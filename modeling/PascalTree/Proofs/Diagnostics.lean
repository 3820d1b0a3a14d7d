import PascalTree.Proofs.Json.Reads

/-!
# Diagnostics — texts can be read off the messages that show them

The message about a malformed literal shows its text between quotes. Some characters stand for
themselves and others are escaped, as tables of character properties have it, but to read the text
back no table is needed:

* `Text.Unshow.chars?`: reads shown characters up to the closing quote;
* `Text.unquoted?_quoted`: the shown text is read back, whatever its characters are;
* `Text.not_isControl_of_mem_quoted`: what is shown has no control characters;
* `malformedLiteral_messages`: what both say of the messages.
-/

namespace PascalTree
namespace Text

/-! ## Reading what is shown -/

/-- The letters that may follow a backslash, and the characters they show. -/
def shortEscapes : List (Char × Char) :=
  [('0', '\x00'), ('t', '\t'), ('r', '\r'), ('n', '\n'), ('"', '"'), ('\\', '\\')]

/-- What has been read of a shown character. -/
inductive Unshow where
  | fresh
  /-- A backslash. -/
  | escape
  /-- A backslash and the letter `u`. -/
  | unicode
  /-- An opening brace behind them, and digits of this number. -/
  | digits (n : Nat)

namespace Unshow

/-- The shown characters up to the closing quote, which must come last. -/
def chars? : Unshow → List Char → Option (List Char)
  | _, [] => none
  | fresh, c :: s =>
    if c = '"' then if s.isEmpty then some [] else none
    else if c = '\\' then chars? escape s
    else (chars? fresh s).map (c :: ·)
  | escape, c :: s =>
    if c = 'u' then chars? unicode s
    else (shortEscapes.lookup c).bind fun shown => (chars? fresh s).map (shown :: ·)
  | unicode, c :: s => if c = '{' then chars? (digits 0) s else none
  | digits n, c :: s =>
    if c = '}' then (chars? fresh s).map (Char.ofNat n :: ·)
    else (Json.hexValue? c).bind fun d => chars? (digits (n * 16 + d)) s

end Unshow

/-- The text that is shown between double quotes. -/
def unquoted? (shown : List Char) : Option String :=
  match shown with
  | '"' :: s => (Unshow.chars? .fresh s).map String.ofList
  | _ => none

/-! ## Hexadecimal digits -/

/-- A number is its last digit behind the digits of what is left. -/
theorem hexDigits_induction {p : Nat → List Char → Prop}
    (single : ∀ n, n < 16 → p n [n.digitChar])
    (more : ∀ m d, d < 16 → p m (hexDigits m) → p (m * 16 + d) (hexDigits m ++ [d.digitChar]))
    (n : Nat) : p n (hexDigits n) := by
  induction n using Nat.strongRecOn with
  | ind n ih =>
    by_cases hn : n < 16
    · rw [hexDigits, Nat.toDigits_of_lt_base hn]
      exact single n hn
    · have hle : 16 ≤ n := Nat.not_lt.mp hn
      have hmore := more (n / 16) (n % 16) (Nat.mod_lt n (by decide)) (ih (n / 16) (by omega))
      rw [Nat.div_add_mod' n 16] at hmore
      rw [hexDigits, Nat.toDigits_of_base_le (by decide) hle]
      exact hmore

theorem forall_mem_hexDigits {p : Char → Prop} (h : ∀ d, d < 16 → p d.digitChar) (n : Nat) :
    ∀ c ∈ hexDigits n, p c := by
  induction n using hexDigits_induction with
  | single n hn => exact List.forall_mem_singleton.mpr (h n hn)
  | more m d hd ih => exact List.forall_mem_append.mpr ⟨ih, List.forall_mem_singleton.mpr (h d hd)⟩

/-! ## What is shown is read back -/

namespace Unshow

theorem chars?_digitChar {d : Nat} (hd : d < 16) (n : Nat) (s : List Char) :
    chars? (digits n) (d.digitChar :: s) = chars? (digits (n * 16 + d)) s := by
  have hbrace : ∀ k, k < 16 → k.digitChar ≠ '}' := by decide
  have hvalue : Json.hexValue? d.digitChar = some d :=
    Json.hexValue?_of_hexDigit ⟨hd, Or.inl rfl⟩
  rw [chars?, if_neg (hbrace d hd), hvalue, Option.bind_some]

theorem chars?_hexDigits (n : Nat) (s : List Char) :
    chars? (digits 0) (hexDigits n ++ s) = chars? (digits n) s := by
  induction n using hexDigits_induction generalizing s with
  | single n hn =>
    rw [List.singleton_append, chars?_digitChar hn, Nat.zero_mul, Nat.zero_add]
  | more m d hd ih =>
    rw [List.append_assoc, List.singleton_append, ih, chars?_digitChar hd]

/-- Each character is read back, and its reading ends where it ends. -/
theorem chars?_showChar (c : Char) (s : List Char) :
    chars? fresh (showChar c ++ s) = (chars? fresh s).map (c :: ·) := by
  unfold showChar
  -- Six characters have an escape of one letter.
  iterate 6
    split
    · subst_vars
      rfl
  split
  · -- The braces around the code point say where its digits end.
    simp only [List.cons_append, List.append_assoc]
    change chars? (digits 0) (hexDigits c.toNat ++ '}' :: s) = _
    rw [chars?_hexDigits, chars?, if_pos rfl, Char.ofNat_toNat]
  · rename_i hquote hbackslash _
    rw [List.singleton_append, chars?, if_neg hquote, if_neg hbackslash]

theorem chars?_flatMap_showChar (cs : List Char) :
    chars? fresh (cs.flatMap showChar ++ ['"']) = some cs := by
  induction cs with
  | nil => rfl
  | cons c cs ih => rw [List.flatMap_cons, List.append_assoc, chars?_showChar, ih, Option.map_some]

end Unshow

theorem unquoted?_quoted (text : String) : unquoted? (quoted text).toList = some text := by
  rw [quoted, String.toList_ofList, unquoted?, Unshow.chars?_flatMap_showChar, Option.map_some,
    String.ofList_toList]

/-! ## What is shown stands on one line -/

theorem not_isControl_of_any {cs : List Char} (h : cs.any isControl = false) :
    ∀ c ∈ cs, isControl c = false :=
  fun c hc => Bool.eq_false_of_not_eq_true (List.any_eq_false.mp h c hc)

theorem not_isControl_of_mem_showChar {c : Char} : ∀ d ∈ showChar c, isControl d = false := by
  have hdigit : ∀ k, k < 16 → isControl k.digitChar = false := by decide
  unfold showChar
  iterate 6
    split
    · exact not_isControl_of_any rfl
  split
  · have hfront : ∀ d ∈ ['\\', 'u', '{'], isControl d = false := not_isControl_of_any rfl
    have hdigits : ∀ d ∈ hexDigits c.toNat, isControl d = false :=
      forall_mem_hexDigits hdigit c.toNat
    exact List.forall_mem_append.mpr
      ⟨hfront, List.forall_mem_append.mpr ⟨hdigits, not_isControl_of_any rfl⟩⟩
  · -- What stands for itself is printable.
    rename_i hshown
    simp only [Bool.or_eq_true, Bool.not_eq_true', not_or, Bool.not_eq_false] at hshown
    have hprintable := hshown.2
    rw [isPrintable, Bool.and_eq_true, Bool.not_eq_true'] at hprintable
    exact List.forall_mem_singleton.mpr hprintable.1

theorem not_isControl_of_mem_quoted {text : String} :
    ∀ c ∈ (quoted text).toList, isControl c = false := by
  rw [quoted, String.toList_ofList]
  have hshown : ∀ c ∈ text.toList.flatMap showChar, isControl c = false := by
    intro c hc
    obtain ⟨d, -, hd⟩ := List.mem_flatMap.mp hc
    exact not_isControl_of_mem_showChar c hd
  exact List.forall_mem_cons.mpr
    ⟨rfl, List.forall_mem_append.mpr ⟨hshown, not_isControl_of_any rfl⟩⟩

theorem isControl_eq_false {c : Char} :
    isControl c = false ↔ 0x20 ≤ c.toNat ∧ ¬(0x7f ≤ c.toNat ∧ c.toNat ≤ 0x9f) := by
  simp only [isControl, Bool.or_eq_false_iff, Bool.and_eq_false_iff, decide_eq_false_iff_not]
  omega

end Text

/-! ## Messages -/

namespace BuildError

/-- What stands before the text in the message about a malformed literal. -/
def malformedLead : List Char := "malformed literal: ".toList

/-- The text that a message about a malformed literal shows. -/
def malformedText? (message : String) : Option String :=
  Text.unquoted? (message.toList.drop malformedLead.length)

theorem toList_message_malformedLiteral (text : String) :
    (malformedLiteral text).message.toList = malformedLead ++ (Text.quoted text).toList :=
  String.toList_append

theorem malformedText?_message (text : String) :
    malformedText? (malformedLiteral text).message = some text := by
  rw [malformedText?, toList_message_malformedLiteral, List.drop_left, Text.unquoted?_quoted]

/-- Messages about malformed literals tell the literals apart, the text can be read off its
message, and no message has a control character. -/
theorem malformedLiteral_messages (s t : String) :
    ((malformedLiteral s).message = (malformedLiteral t).message ↔ s = t) ∧
      malformedText? (malformedLiteral s).message = some s ∧
      ∀ c ∈ (malformedLiteral s).message.toList,
        0x20 ≤ c.toNat ∧ ¬(0x7f ≤ c.toNat ∧ c.toNat ≤ 0x9f) := by
  refine ⟨⟨fun h => ?_, fun h => h ▸ rfl⟩, malformedText?_message s, fun c hc => ?_⟩
  · have hread := congrArg malformedText? h
    rw [malformedText?_message, malformedText?_message] at hread
    exact Option.some.inj hread
  · rw [toList_message_malformedLiteral] at hc
    have hlead : ∀ d ∈ malformedLead, Text.isControl d = false :=
      Text.not_isControl_of_any (by decide)
    exact Text.isControl_eq_false.mp
      (List.forall_mem_append.mpr ⟨hlead, Text.not_isControl_of_mem_quoted⟩ c hc)

end BuildError
end PascalTree
