import Mathlib.Data.List.TakeWhile
import PascalTree.Json.Container
import PascalTree.Proofs.Json.Grammar

/-!
# Reads — how readers end on a given text

`Reads reader w result` says how a reader ends on the text `w`, whatever follows it: with a value,
standing behind `w`, or with a fault. Blanks between the two and before `w` make no difference, so
the statements about parts compose without mention of blanks.

* `Outcome.Ends`: how an outcome is compared with a result;
* `Reads`: the readers' specification;
* `reads_quotes`, `reads_flag`, `reads_word32`: strings in every spelling, truth values and numbers.
-/

namespace PascalTree
namespace Json

variable {α β : Type}

/-! ## Outcomes and results -/

namespace Outcome

/-- The fault a reader ended with. -/
def fault? : Outcome α → Option Fault
  | done _ _ => none
  | pending fault _ => some fault
  | failed fault _ => some fault

/-- How reading ends before `rest`, up to blanks: with a value, or with a fault at any place. -/
def Ends (outcome : Outcome α) (rest : List Char) : Except Fault α → Prop
  | .ok value => ∃ s, outcome = done value s ∧ skipBlanks s = skipBlanks rest
  | .error fault => outcome.fault? = some fault

theorem ends_done {value : α} {rest : List Char} : (done value rest).Ends rest (.ok value) :=
  ⟨rest, rfl, rfl⟩

/-- A fault is pending or has its place. -/
theorem Ends.cases_error {outcome : Outcome α} {rest : List Char} {fault : Fault}
    (h : outcome.Ends rest (.error fault)) :
    (∃ s, outcome = pending fault s) ∨ ∃ mark, outcome = failed fault mark := by
  cases outcome with
  | done value s => cases h
  | pending fault' s =>
    cases h
    exact Or.inl ⟨s, rfl⟩
  | failed fault' mark =>
    cases h
    exact Or.inr ⟨mark, rfl⟩

theorem Ends.bind {outcome : Outcome α} {next : α → List Char → Outcome β} {rest rest' : List Char}
    {result : Except Fault α} {after : α → Except Fault β} (h : outcome.Ends rest result)
    (hnext : ∀ value s, result = .ok value → skipBlanks s = skipBlanks rest →
      (next value s).Ends rest' (after value)) :
    (outcome.bind next).Ends rest' (result.bind after) := by
  cases result with
  | ok value =>
    rcases h with ⟨s, rfl, hs⟩
    exact hnext value s rfl hs
  | error fault => rcases h.cases_error with ⟨s, rfl⟩ | ⟨mark, rfl⟩ <;> rfl

theorem Ends.settle {outcome : Outcome α} {rest : List Char} {result : Except Fault α}
    (h : outcome.Ends rest result) : outcome.settle.Ends rest result := by
  cases result with
  | ok value =>
    rcases h with ⟨s, rfl, hs⟩
    exact ⟨s, rfl, hs⟩
  | error fault => rcases h.cases_error with ⟨s, rfl⟩ | ⟨mark, rfl⟩ <;> rfl

end Outcome

/-! ## Blanks -/

@[simp]
theorem skipBlanks_cons {c : Char} {s : List Char} (h : isBlank c = false) :
    skipBlanks (c :: s) = c :: s := by
  simp [skipBlanks, h]

theorem isBlank_iff {c : Char} : isBlank c = true ↔ c ∈ [' ', '\n', '\t', '\r'] := by
  simp [isBlank, or_assoc]

theorem skipBlanks_blanks_append {b : List Char} (hb : Blanks b) (s : List Char) :
    skipBlanks (b ++ s) = skipBlanks s :=
  List.dropWhile_append_of_pos fun c hc => isBlank_iff.mpr (hb c hc)

theorem skipBlanks_eq_nil {s : List Char} : skipBlanks s = [] ↔ Blanks s := by
  rw [skipBlanks, List.dropWhile_eq_nil_iff]
  exact forall₂_congr fun c _ => isBlank_iff

/-- What begins a text begins it also when more follows. -/
theorem skipBlanks_append {c : Char} {s rest : List Char} (h : skipBlanks s = c :: rest)
    (more : List Char) : skipBlanks (s ++ more) = c :: (rest ++ more) := by
  unfold skipBlanks at h ⊢
  rw [List.dropWhile_append, h]
  rfl

theorem skipBlanks_padded {before w w' : List Char} {c : Char} (hbefore : Blanks before)
    (h : skipBlanks w = c :: w') (after : List Char) :
    skipBlanks (before ++ w ++ after) = c :: (w' ++ after) := by
  rw [List.append_assoc, skipBlanks_blanks_append hbefore, skipBlanks_append h]

theorem isBlank_of_skipBlanks {c : Char} {s rest : List Char} (h : skipBlanks s = c :: rest) :
    isBlank c = false := by
  have hhead := List.head?_dropWhile_not isBlank s
  rw [← skipBlanks, h] at hhead
  simpa using hhead

theorem skipBlanks_suffix (s : List Char) : skipBlanks s <:+ s := List.dropWhile_suffix _

theorem skipBlanks_skipBlanks (s : List Char) : skipBlanks (skipBlanks s) = skipBlanks s := by
  cases hs : skipBlanks s with
  | nil => rfl
  | cons c rest => exact skipBlanks_cons (isBlank_of_skipBlanks hs)

theorem isBlank_of_isDigit {c : Char} (h : c.isDigit = true) : isBlank c = false := by
  simp only [isBlank, Bool.or_eq_false_iff, beq_eq_false_iff_ne]
  refine ⟨⟨⟨?_, ?_⟩, ?_⟩, ?_⟩ <;> (rintro rfl; revert h; decide)

/-! ## The specification of readers -/

/-- A text that no number before it can go on with. -/
def Stops : List Char → Prop
  | [] => True
  | c :: _ => c.isDigit = false ∧ c ≠ '.' ∧ c ≠ 'e' ∧ c ≠ 'E'

/-- On the text `w`, up to blanks, the reader ends with the result, whatever follows. -/
def Reads (reader : Reader α) (w : List Char) (result : Except Fault α) : Prop :=
  ∀ s rest, Stops rest → skipBlanks s = skipBlanks (w ++ rest) → (reader s).Ends rest result

theorem stops_blanks_append {b rest : List Char} (hb : Blanks b) (hrest : Stops rest) :
    Stops (b ++ rest) := by
  cases b with
  | nil => exact hrest
  | cons c b =>
    have hc := hb c List.mem_cons_self
    simp only [List.mem_cons, List.not_mem_nil, or_false] at hc
    rcases hc with rfl | rfl | rfl | rfl <;> exact ⟨rfl, by decide, by decide, by decide⟩

/-- Blanks around a text make no difference. -/
theorem Reads.padded {reader : Reader α} {before w after : List Char} {result : Except Fault α}
    (h : Reads reader w result) (hbefore : Blanks before) (hafter : Blanks after) :
    Reads reader (before ++ w ++ after) result := by
  intro s rest hrest hs
  rw [List.append_assoc, List.append_assoc, skipBlanks_blanks_append hbefore] at hs
  have hread := h s (after ++ rest) (stops_blanks_append hafter hrest) hs
  cases result with
  | ok value =>
    rcases hread with ⟨s', heq, hs'⟩
    exact ⟨s', heq, hs'.trans (skipBlanks_blanks_append hafter rest)⟩
  | error fault => exact hread

/-- Readers that skip blanks and then see a character are specified from that character on. -/
theorem reads_startValue {reader : Reader α} {c : Char} {w : List Char} {result : Except Fault α}
    (hc : isBlank c = false)
    (h : ∀ rest, Stops rest → (reader (c :: (w ++ rest))).Ends rest result) :
    Reads (startValue reader) (c :: w) result := by
  intro s rest hrest hs
  rw [List.cons_append, skipBlanks_cons hc] at hs
  rw [startValue, hs]
  exact h rest hrest

/-! ## What stands between commas -/

/-- Texts between commas; a comma stands before the first one too, unless it starts a bracket. -/
def joined (first : Bool) : List (List Char) → List Char
  | [] => []
  | w :: ws => (if first then w else ',' :: w) ++ joined false ws

theorem joined_true (ws : List (List Char)) : joined true ws = commaJoin ws := by
  have hfalse : ∀ ws, joined false ws = ws.flatMap (',' :: ·) := by
    intro ws
    induction ws with
    | nil => rfl
    | cons w ws ih => simp [joined, ih]
  cases ws with
  | nil => rfl
  | cons w ws => simp [joined, commaJoin, hfalse]

theorem stops_closing {c : Char} (hc : c = ']' ∨ c = '}') (rest : List Char) :
    Stops (c :: rest) := by
  rcases hc with rfl | rfl
  · exact ⟨rfl, by decide, by decide, by decide⟩
  · exact ⟨rfl, by decide, by decide, by decide⟩

/-- Behind a part of a bracket stands a comma or the end of the bracket. -/
theorem stops_joined {c : Char} (hc : c = ']' ∨ c = '}') (ws : List (List Char))
    (rest : List Char) : Stops (joined false ws ++ c :: rest) := by
  cases ws with
  | nil => exact stops_closing hc rest
  | cons w ws => exact ⟨rfl, by decide, by decide, by decide⟩

/-- Each part takes room, so the text bounds the number of its parts. -/
theorem length_le_joined {ws : List (List Char)} (h : ∀ w ∈ ws, w ≠ []) (first : Bool) :
    ws.length ≤ (joined first ws).length := by
  induction ws generalizing first with
  | nil => exact Nat.zero_le _
  | cons w ws ih =>
    have hw : 0 < w.length := List.length_pos_iff.mpr (h w List.mem_cons_self)
    have hws := ih (fun v hv => h v (List.mem_cons_of_mem w hv)) false
    cases first with
    | true =>
      simp only [joined, if_true, List.length_append, List.length_cons]
      omega
    | false =>
      simp only [joined, Bool.false_eq_true, if_false, List.length_append, List.length_cons]
      omega

/-! ## Sequences of readers -/

theorem Reads.map {reader : Reader α} {w : List Char} {result : Except Fault α}
    (h : Reads reader w result) (f : α → β) :
    Reads (reader >>= fun value => pure (f value)) w (result.map f) := by
  intro s rest hrest hs
  have hmap : result.map f = result.bind fun value => .ok (f value) := by
    cases result <;> rfl
  rw [hmap]
  exact (h s rest hrest hs).bind fun value s' _ hs' => ⟨s', rfl, hs'⟩

/-- A step that is to be repeated, and what the repetitions behind it end with. -/
theorem iterateWithin_next {σ : Type} {step : σ → Reader (σ ⊕ β)} {c : Char} {budget : List Char}
    {state : σ} {s mid rest : List Char} {result : Except Fault σ} (final : σ → Except Fault β)
    (hstep : (step state s).Ends mid (result.map .inl))
    (hnext : ∀ state' s', result = .ok state' → skipBlanks s' = skipBlanks mid →
      (Reader.iterateWithin step budget state' s').Ends rest (final state')) :
    (Reader.iterateWithin step (c :: budget) state s).Ends rest (result.bind final) := by
  rw [Reader.iterateWithin]
  cases result with
  | ok state' =>
    rcases hstep with ⟨s', heq, hs'⟩
    rw [heq]
    exact hnext state' s' rfl hs'
  | error fault =>
    rcases hstep.cases_error with ⟨s', heq⟩ | ⟨mark, heq⟩
    · rw [heq]
      rfl
    · rw [heq]
      rfl

theorem iterateWithin_last {σ : Type} {step : σ → Reader (σ ⊕ β)} {budget : List Char} {state : σ}
    {s rest : List Char} {value : β} (hstep : step state s = .done (.inr value) rest) :
    (Reader.iterateWithin step budget state s).Ends rest (.ok value) := by
  rw [Reader.iterateWithin, hstep]
  exact Outcome.ends_done

/-- Content that ends before its closing bracket, which the closing step then takes. -/
theorem Outcome.Ends.closedBy {content : Reader α} {close : Reader Unit} {s rest rest' : List Char}
    {result : Except Fault α} (h : (content s).Ends rest result)
    (hclose : ∀ s', skipBlanks s' = skipBlanks rest → close s' = .done () rest') :
    (Reader.closedBy close content s).Ends rest' result := by
  rw [Reader.closedBy]
  cases result with
  | ok value =>
    rcases h with ⟨s', heq, hs'⟩
    simp only [heq, hclose s' hs', Outcome.bind_done]
    exact Outcome.ends_done
  | error fault =>
    -- The closing step may fail as well, but the fault of the content stays.
    rcases h.cases_error with ⟨s', heq⟩ | ⟨mark, heq⟩
    · rw [heq]
      rfl
    · rw [heq]
      rfl

/-! ## Strings -/

theorem hexValue?_of_hexDigit {c : Char} {n : Nat} (h : HexDigit c n) : hexValue? c = some n := by
  have hvalue : ∀ k, k < 16 →
      hexValue? k.digitChar = some k ∧ hexValue? k.digitChar.toUpper = some k := by decide
  rcases h with ⟨hn, rfl | rfl⟩
  · exact (hvalue n hn).1
  · exact (hvalue n hn).2

theorem readCodeUnit_of_codeUnit {digits : List Char} {n : Nat} (h : CodeUnit digits n)
    (rest : List Char) : readCodeUnit (digits ++ rest) = .done n rest := by
  cases h with
  | @mk a b c d i j k l first second third fourth =>
    have hunit : codeUnit? a b c d = some (((i * 16 + j) * 16 + k) * 16 + l) := by
      simp only [codeUnit?, hexValue?_of_hexDigit first, hexValue?_of_hexDigit second,
        hexValue?_of_hexDigit third, hexValue?_of_hexDigit fourth, Option.some.injEq]
      omega
    simp [readCodeUnit, hunit]

theorem simpleEscape?_of_mem {e c : Char} (h : (e, c) ∈ escapes) :
    simpleEscape? e = some c ∧ e ≠ 'u' := by
  have hall : ∀ p ∈ escapes, simpleEscape? p.1 = some p.2 ∧ p.1 ≠ 'u' := by decide
  exact hall (e, c) h

/-- A code unit that is no half of a pair is a character. -/
theorem readUnicode_single {digits : List Char} {n : Nat} (h : CodeUnit digits n)
    (hn : n < 0xd800 ∨ 0xe000 ≤ n) (rest : List Char) :
    readUnicode (digits ++ rest) = .done (Char.ofNat n) rest := by
  have htrailing : isTrailing n = false := by
    simp only [isTrailing, Bool.and_eq_false_iff, decide_eq_false_iff_not]
    omega
  have hleading : isLeading n = false := by
    simp only [isLeading, Bool.and_eq_false_iff, decide_eq_false_iff_not]
    omega
  simp [readUnicode, readCodeUnit_of_codeUnit h, htrailing, hleading]

theorem readUnicode_pair {digits digits' : List Char} {m n : Nat} (h : CodeUnit digits m)
    (h' : CodeUnit digits' n) (hm : 0xd800 ≤ m ∧ m < 0xdc00) (hn : 0xdc00 ≤ n ∧ n < 0xe000)
    (rest : List Char) :
    readUnicode (digits ++ '\\' :: 'u' :: (digits' ++ rest)) =
      .done (Char.ofNat (0x10000 + (m - 0xd800) * 0x400 + (n - 0xdc00))) rest := by
  have hnotTrailing : isTrailing m = false := by
    simp only [isTrailing, Bool.and_eq_false_iff, decide_eq_false_iff_not]
    omega
  have hleading : isLeading m = true := by simp [isLeading, hm]
  have htrailing : isTrailing n = true := by simp [isTrailing, hn]
  simp [readUnicode, readCodeUnit_of_codeUnit h, hnotTrailing, hleading, readTrailing, expectInPair,
    readCodeUnit_of_codeUnit h', htrailing, joinPair]

/-- The characters of a string are read back from any spelling. -/
theorem readTextFrom_spells {w cs : List Char} (h : Spells w cs) (acc rest : List Char) :
    readTextFrom acc (w ++ '"' :: rest) = .done (String.ofList (acc.reverse ++ cs)) rest := by
  induction h generalizing acc with
  | nil => simp [readTextFrom_cons]
  | plain char _ ih =>
    have hcontrol := Nat.not_lt.mpr char.2.2
    rw [List.cons_append, readTextFrom_cons, if_neg char.1, if_neg char.2.1, if_neg hcontrol, ih]
    simp
  | escape char _ ih =>
    obtain ⟨hescape, hu⟩ := simpleEscape?_of_mem char
    simp [readTextFrom_cons, readEscape, hu, hescape, ih]
  | unicode unit single _ ih =>
    simp [readTextFrom_cons, readEscape, readUnicode_single unit single, ih]
  | pair leading trailing first second _ ih =>
    simp [readTextFrom_cons, readEscape, readUnicode_pair leading trailing first second, ih]

theorem readTextTail_spells {w : List Char} {text : String} (h : Spells w text.toList)
    (rest : List Char) : readTextTail (w ++ '"' :: rest) = .done text rest := by
  rw [readTextTail, readTextFrom_spells h]
  simp

theorem hexDigit_hexDigit (n : Nat) : HexDigit (hexDigit n) (n % 16) :=
  ⟨Nat.mod_lt n (by decide), Or.inl rfl⟩

/-- The way a character is written inside a string is one of its spellings. -/
theorem Spells.escapeChar {w cs : List Char} (h : Spells w cs) (c : Char) :
    Spells (escapeChar c ++ w) (c :: cs) := by
  unfold Json.escapeChar
  -- Seven characters have an escape of one letter.
  iterate 7
    split
    · subst_vars
      exact .escape (by decide) h
  split
  · rename_i hcontrol
    have hzero : HexDigit '0' 0 := ⟨by decide, Or.inl rfl⟩
    have hunit :=
      CodeUnit.mk hzero hzero (hexDigit_hexDigit (c.toNat / 16)) (hexDigit_hexDigit c.toNat)
    have hvalue : ((0 * 16 + 0) * 16 + c.toNat / 16 % 16) * 16 + c.toNat % 16 = c.toNat := by omega
    rw [hvalue] at hunit
    have hspells := Spells.unicode hunit (by omega) h
    rwa [Char.ofNat_toNat] at hspells
  · rename_i hquote hslash _ _ _ _ _ hcontrol
    exact .plain ⟨hquote, hslash, Nat.not_lt.mp hcontrol⟩ h

theorem spells_escaped (cs : List Char) : Spells (cs.flatMap escapeChar) cs := by
  induction cs with
  | nil => exact .nil
  | cons c cs ih => exact ih.escapeChar c

theorem reads_quotes {w : List Char} {text : String} (h : Quotes w text) :
    Reads readText w (.ok text) := by
  rcases h with ⟨content, hcontent, rfl⟩
  apply reads_startValue rfl
  intro rest _
  apply Outcome.Ends.settle
  simp only [List.append_assoc, List.singleton_append, readTextTail_spells hcontent]
  exact Outcome.ends_done

theorem quotes_textChars (text : String) : Quotes (textChars text) text :=
  ⟨_, spells_escaped text.toList, rfl⟩

theorem reads_text (text : String) : Reads readText (textChars text) (.ok text) :=
  reads_quotes (quotes_textChars text)

/-! ## Truth values -/

theorem reads_flag (b : Bool) : Reads readFlag (Document.flag b).chars (.ok b) := by
  rw [Document.chars_flag]
  cases b with
  | true => exact reads_startValue rfl fun rest _ => Outcome.ends_done
  | false => exact reads_startValue rfl fun rest _ => Outcome.ends_done

/-! ## Numbers -/

/-- Digits are absorbed whole while their number stays within the limit. -/
theorem absorb_eq {limit : Nat} {digits : List Char} {n : Nat}
    (h : Nat.ofDigitChars 10 digits n ≤ limit) :
    absorb limit n digits = (Nat.ofDigitChars 10 digits n, []) := by
  induction digits generalizing n with
  | nil => simp [absorb]
  | cons c digits ih =>
    have hstep : Nat.ofDigitChars 10 (c :: digits) n =
        Nat.ofDigitChars 10 digits (n * 10 + Numeric.digitValue c) := by
      rw [Nat.ofDigitChars_cons, Nat.mul_comm, Numeric.digitValue]
    rw [hstep] at h ⊢
    -- Further digits only make the number larger, so no part of them passes the limit.
    have hle : n * 10 + Numeric.digitValue c ≤ limit := by
      rw [Nat.ofDigitChars_eq_ofDigitChars_zero] at h
      have hpow : 0 < 10 ^ digits.length := Nat.pow_pos (by decide)
      calc
        n * 10 + Numeric.digitValue c
            ≤ 10 ^ digits.length * (n * 10 + Numeric.digitValue c) :=
          Nat.le_mul_of_pos_left _ hpow
        _ ≤ limit := Nat.le_trans (Nat.le_add_right _ _) h
    simp only [absorb, hle, if_true]
    exact ih h

/-- Digits whose number fits into 64 bits are an integer when nothing behind them belongs to it. -/
theorem readNumberEnd_stops (positive : Bool) {digits rest : List Char} (hrest : Stops rest)
    (h : Nat.ofDigitChars 10 digits 0 ≤ significandLimit) :
    readNumberEnd positive digits rest =
      .done (ofInteger positive (Nat.ofDigitChars 10 digits 0)) rest := by
  simp only [readNumberEnd, absorb_eq h]
  split
  · exact absurd rfl hrest.2.1
  · exact absurd rfl hrest.2.2.1
  · exact absurd rfl hrest.2.2.2
  · rfl

theorem startsWithDigit_of_stops {rest : List Char} (hrest : Stops rest) :
    startsWithDigit rest = false := by
  cases rest with
  | nil => rfl
  | cons c rest => exact hrest.1

section Digits

variable {digits rest : List Char} (hdigits : ∀ c ∈ digits, c.isDigit)
  (hrest : startsWithDigit rest = false)
include hdigits hrest

theorem takeWhile_isDigit_append : (digits ++ rest).takeWhile Char.isDigit = digits := by
  rw [List.takeWhile_append_of_pos hdigits]
  cases rest with
  | nil => simp
  | cons c rest => simp [show c.isDigit = false from hrest]

theorem dropWhile_isDigit_append : (digits ++ rest).dropWhile Char.isDigit = rest := by
  rw [List.dropWhile_append_of_pos hdigits]
  cases rest with
  | nil => simp
  | cons c rest => simp [show c.isDigit = false from hrest]

end Digits

theorem toDigits_eq_digit_cons (n : Nat) :
    ∃ c ds, Nat.toDigits 10 n = c :: ds ∧ c.isDigit = true := by
  rcases List.exists_cons_of_ne_nil (Nat.toDigits_ne_nil (n := n) (b := 10)) with ⟨c, ds, hds⟩
  have hmem : c ∈ Nat.toDigits 10 n := by
    rw [hds]
    exact List.mem_cons_self
  exact ⟨c, ds, hds, Nat.isDigit_of_mem_toDigits (by decide) (by decide) hmem⟩

/-- The decimal digits of a positive number do not start with a zero. -/
theorem toDigits_eq_cons {n : Nat} (hn : n ≠ 0) :
    ∃ c ds, Nat.toDigits 10 n = c :: ds ∧ c ≠ '0' := by
  induction n using Nat.strongRecOn with
  | ind n ih =>
    by_cases hlt : n < 10
    · have h : ∀ k, k < 10 → k ≠ 0 → Nat.digitChar k ≠ '0' := by decide
      exact ⟨n.digitChar, [], Nat.toDigits_of_lt_base hlt, h n hlt hn⟩
    · -- The digits of `n / 10` come first, and it is positive as well.
      have hle : 10 ≤ n := Nat.not_lt.mp hlt
      rcases ih (n / 10) (by omega) (by omega) with ⟨c, ds, hds, hc⟩
      refine ⟨c, ds ++ [(n % 10).digitChar], ?_, hc⟩
      rw [Nat.toDigits_of_base_le (by decide) hle, hds, List.cons_append]

/-- A number below `2 ^ 64` is read back from its decimal digits. -/
theorem readNumber_toDigits {n : Nat} {rest : List Char} (hn : n ≤ significandLimit)
    (hrest : Stops rest) :
    readNumber true (Nat.toDigits 10 n ++ rest) = .done (.natural n) rest := by
  have hvalue : Nat.ofDigitChars 10 (Nat.toDigits 10 n) 0 = n := Nat.ofDigitChars_ten_toDigits
  have hend : readNumberEnd true (Nat.toDigits 10 n) rest = .done (.natural n) rest := by
    have h := readNumberEnd_stops true hrest (hvalue.symm ▸ hn)
    rw [hvalue] at h
    exact h
  have hdigits : ∀ c ∈ Nat.toDigits 10 n, c.isDigit := fun c hc =>
    Nat.isDigit_of_mem_toDigits (by decide) (by decide) hc
  have hstop := startsWithDigit_of_stops hrest
  -- A leading zero stands alone, so zero is a case of its own.
  by_cases hzero : n = 0
  · subst hzero
    rw [Nat.toDigits_zero] at hend ⊢
    simp only [List.singleton_append, readNumber, if_true, hstop]
    exact hend
  · rcases toDigits_eq_cons hzero with ⟨c, ds, hds, hc⟩
    rw [hds] at hend hdigits ⊢
    rw [List.cons_append, readNumber, if_neg hc, if_pos (hdigits c List.mem_cons_self),
      ← List.cons_append, takeWhile_isDigit_append hdigits hstop,
      dropWhile_isDigit_append hdigits hstop]
    exact hend

/-- A number that starts with a digit, behind its sign, is read and converted. -/
theorem reads_numeral_of_number {expected : Expected} {convert : Number → Except Fault α}
    {positive : Bool} {c : Char} {w : List Char} {result : Except Fault Number}
    (hdigit : c.isDigit = true)
    (h : ∀ rest, Stops rest → (readNumber positive (c :: (w ++ rest))).Ends rest result) :
    Reads (readNumeral expected convert) (if positive then c :: w else '-' :: c :: w)
      (result.bind convert) := by
  have hconverted : ∀ rest, Stops rest →
      ((readNumber positive (c :: (w ++ rest))).bind fun n rest =>
        match convert n with
        | .ok value => .done value rest
        | .error fault => .pending fault rest).settle.Ends rest (result.bind convert) := by
    intro rest hrest
    refine ((h rest hrest).bind fun n s _ hs => ?_).settle
    cases convert n with
    | ok value => exact ⟨s, rfl, hs⟩
    | error fault => rfl
  cases positive with
  | false => exact reads_startValue rfl hconverted
  | true =>
    refine reads_startValue (isBlank_of_isDigit hdigit) fun rest hrest => ?_
    rw [Reader.settle]
    split
    · -- A digit is no sign.
      rename_i heq
      cases heq
      exact absurd hdigit (by decide)
    · simp only [startsWithDigit, hdigit, if_true]
      exact hconverted rest hrest

/-- A number below `2 ^ 64`, given by its decimal digits, is read and converted. -/
theorem reads_numeral {expected : Expected} {convert : Number → Except Fault α} {n : Nat}
    (hn : n ≤ significandLimit) :
    Reads (readNumeral expected convert) (Nat.toDigits 10 n) (convert (.natural n)) := by
  rcases toDigits_eq_digit_cons n with ⟨c, ds, hds, hdigit⟩
  have hread : ∀ rest, Stops rest →
      (readNumber true (c :: (ds ++ rest))).Ends rest (.ok (.natural n)) := by
    intro rest hrest
    rw [← List.cons_append, ← hds, readNumber_toDigits hn hrest]
    exact Outcome.ends_done
  rw [hds]
  exact reads_numeral_of_number hdigit hread

theorem reads_word32 (n : UInt32) : Reads readWord32 (Document.number n.toNat).chars (.ok n) := by
  have hbound : n.toNat < UInt32.size := n.toNat_lt_size
  have hwithin : (0 : Int) ≤ n.toNat ∧ (n.toNat : Int) ≤ UInt32.size - 1 := by omega
  have hconvert : (integerWithin .word32 0 (UInt32.size - 1) (.natural n.toNat)).map
      (fun i => UInt32.ofNat i.toNat) = .ok n := by
    simp only [integerWithin, Number.integer?, if_pos hwithin, Except.map, Int.toNat_natCast,
      UInt32.ofNat_toNat]
  have hlimit : n.toNat ≤ significandLimit := by
    have hsizes : UInt32.size ≤ significandLimit := by decide
    exact Nat.le_of_lt (Nat.lt_of_lt_of_le hbound hsizes)
  rw [Document.chars_number, ← hconvert]
  exact reads_numeral hlimit

end Json
end PascalTree
