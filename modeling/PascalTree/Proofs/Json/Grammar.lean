import PascalTree.Proofs.Json.Nesting
import PascalTree.Proofs.LiteralGrammar

/-!
# Grammar — the written forms of documents

The texts of JSON values, given by rules and without reference to a reader. A document may be
written in many ways: blanks stand between tokens, and a character of a string may be escaped or
not.

* `Blanks`: what may stand between tokens;
* `Spells`: the ways to write the characters of a string;
* `number`: the texts of numbers, as a language;
* `IsJson`: the texts of values of every kind.
-/

namespace PascalTree
namespace Json

open Computability

/-! ## Blanks -/

/-- Blanks between tokens: spaces, line ends and tabs. -/
def Blanks (w : List Char) : Prop := ∀ c ∈ w, c ∈ [' ', '\n', '\t', '\r']

instance (w : List Char) : Decidable (Blanks w) := List.decidableBAll _ w

theorem blanks_nil : Blanks [] := List.forall_mem_nil _

/-! ## Strings -/

/-- The characters that may stand for themselves in a string. -/
def Plain (c : Char) : Prop := c ≠ '"' ∧ c ≠ '\\' ∧ 0x20 ≤ c.toNat

/-- The letters that may follow a backslash, and the characters they denote. -/
def escapes : List (Char × Char) :=
  [('"', '"'), ('\\', '\\'), ('/', '/'), ('b', '\x08'), ('f', '\x0c'), ('n', '\n'), ('r', '\r'),
   ('t', '\t')]

/-- A hexadecimal digit of either case, and its value. -/
def HexDigit (c : Char) (n : Nat) : Prop := n < 16 ∧ (c = n.digitChar ∨ c = n.digitChar.toUpper)

/-- Four hexadecimal digits, and the number they write. -/
inductive CodeUnit : List Char → Nat → Prop where
  | mk {a b c d : Char} {i j k l : Nat} (first : HexDigit a i) (second : HexDigit b j)
      (third : HexDigit c k) (fourth : HexDigit d l) :
      CodeUnit [a, b, c, d] (((i * 16 + j) * 16 + k) * 16 + l)

/-- The text `w`, between two quotes, stands for the given characters. Characters beyond U+FFFF are
escaped as a pair of code units, and half a pair stands for none. -/
inductive Spells : (w cs : List Char) → Prop where
  | nil : Spells [] []
  | plain {c : Char} {w cs : List Char} (char : Plain c) (rest : Spells w cs) :
      Spells (c :: w) (c :: cs)
  | escape {e c : Char} {w cs : List Char} (char : (e, c) ∈ escapes) (rest : Spells w cs) :
      Spells ('\\' :: e :: w) (c :: cs)
  | unicode {digits w cs : List Char} {n : Nat} (unit : CodeUnit digits n)
      (single : n < 0xd800 ∨ 0xe000 ≤ n) (rest : Spells w cs) :
      Spells ('\\' :: 'u' :: (digits ++ w)) (Char.ofNat n :: cs)
  | pair {digits digits' w cs : List Char} {m n : Nat} (leading : CodeUnit digits m)
      (trailing : CodeUnit digits' n) (first : 0xd800 ≤ m ∧ m < 0xdc00)
      (second : 0xdc00 ≤ n ∧ n < 0xe000) (rest : Spells w cs) :
      Spells ('\\' :: 'u' :: (digits ++ '\\' :: 'u' :: (digits' ++ w)))
        (Char.ofNat (0x10000 + (m - 0xd800) * 0x400 + (n - 0xdc00)) :: cs)

/-- The text of a string: its characters in some spelling, between quotes. -/
def Quotes (w : List Char) (s : String) : Prop :=
  ∃ content, Spells content s.toList ∧ w = '"' :: (content ++ ['"'])

/-- The text `w` may stand between two quotes. Whether code units form pairs does not matter. -/
inductive TextContent : (w : List Char) → Prop where
  | nil : TextContent []
  | plain {c : Char} {w : List Char} (char : Plain c) (rest : TextContent w) : TextContent (c :: w)
  | escape {e c : Char} {w : List Char} (char : (e, c) ∈ escapes) (rest : TextContent w) :
      TextContent ('\\' :: e :: w)
  | unicode {digits w : List Char} {n : Nat} (unit : CodeUnit digits n) (rest : TextContent w) :
      TextContent ('\\' :: 'u' :: (digits ++ w))

/-! ## Numbers -/

/-- The digits before the point: `0|[1-9][0-9]*`. -/
def wholePart : Language Char :=
  {['0']} + Grammar.oneOf (fun c => '1' ≤ c ∧ c ≤ '9') * (Grammar.oneOf fun c => '0' ≤ c ∧ c ≤ '9')∗

/-- Numbers: `-?(0|[1-9][0-9]*)(\.[0-9]+)?([eE][+-]?[0-9]+)?`. -/
def number : Language Char :=
  (1 + {['-']}) * (wholePart * ((1 + {['.']} * Grammar.digits) * (1 + Grammar.exponent)))

/-! ## Values -/

/-- A member of an object as it is written, in parts: its key stands between quotes, with blanks
around it, and a colon before the value. -/
structure MemberText where
  before : List Char
  key : List Char
  after : List Char
  value : List Char

namespace MemberText

def chars (m : MemberText) : List Char :=
  m.before ++ '"' :: (m.key ++ '"' :: (m.after ++ ':' :: m.value))

/-- Nothing but blanks stands around the key. -/
def Spaced (m : MemberText) : Prop := Blanks m.before ∧ Blanks m.after

/-- The member has the given key and the given text for its value. -/
structure Writes (m : MemberText) (key : String) (w : List Char) : Prop where
  spaced : m.Spaced
  key : Spells m.key key.toList
  value : m.value = w

end MemberText

/-- The text of an object; the gap matters where it has no members. -/
def objectChars (gap : List Char) (members : List MemberText) : List Char :=
  '{' :: (gap ++ (commaJoin (members.map MemberText.chars) ++ ['}']))

/-- The text of a list; the gap matters where it has no items. -/
def arrayChars (gap : List Char) (items : List (List Char)) : List Char :=
  '[' :: (gap ++ (commaJoin items ++ [']']))

/-- The texts of values. -/
inductive IsJson : List Char → Prop where
  | padded {before w after : List Char} (hbefore : Blanks before) (hafter : Blanks after)
      (h : IsJson w) : IsJson (before ++ w ++ after)
  | null : IsJson ['n', 'u', 'l', 'l']
  | true : IsJson ['t', 'r', 'u', 'e']
  | false : IsJson ['f', 'a', 'l', 's', 'e']
  | number {w : List Char} (h : w ∈ number) : IsJson w
  | text {w : List Char} (h : TextContent w) : IsJson ('"' :: (w ++ ['"']))
  | array {gap : List Char} {items : List (List Char)} (hgap : Blanks gap)
      (h : ∀ w ∈ items, IsJson w) : IsJson (arrayChars gap items)
  | object {gap : List Char} {members : List MemberText} (hgap : Blanks gap)
      (hkeys : ∀ m ∈ members, m.Spaced ∧ TextContent m.key)
      (h : ∀ m ∈ members, IsJson m.value) : IsJson (objectChars gap members)

/-! ## Nesting -/

theorem nests_blanks {w : List Char} (h : Blanks w) : Nests 0 w := by
  apply Nests.of_unchanged
  intro level deepest
  apply Scan.run_eq_self
  intro c hc
  have hblank := h c hc
  simp only [List.mem_cons, List.not_mem_nil, or_false] at hblank
  rcases hblank with rfl | rfl | rfl | rfl <;> rfl

namespace Scan

variable (level deepest : Nat)

/-- Hexadecimal digits neither end a string nor start an escape. -/
theorem run_codeUnit {digits : List Char} {n : Nat} (h : CodeUnit digits n) :
    run ⟨level, deepest, .inString⟩ digits = ⟨level, deepest, .inString⟩ := by
  have hdigit : ∀ c n, HexDigit c n →
      next ⟨level, deepest, .inString⟩ c = ⟨level, deepest, .inString⟩ := by
    have hplain : ∀ k, k < 16 → (k.digitChar ≠ '"' ∧ k.digitChar ≠ '\\') ∧
        k.digitChar.toUpper ≠ '"' ∧ k.digitChar.toUpper ≠ '\\' := by decide
    rintro c n ⟨hn, rfl | rfl⟩
    · simp [next, (hplain n hn).1]
    · simp [next, (hplain n hn).2]
  cases h with
  | mk first second third fourth =>
    simp only [run_cons, run_nil, hdigit _ _ first, hdigit _ _ second, hdigit _ _ third,
      hdigit _ _ fourth]

theorem run_spells {w cs : List Char} (h : Spells w cs) :
    run ⟨level, deepest, .inString⟩ w = ⟨level, deepest, .inString⟩ := by
  induction h with
  | nil => rfl
  | plain char _ ih => simpa [next, char.1, char.2.1] using ih
  | escape char _ ih => simpa [next] using ih
  | unicode unit single _ ih => simpa [next, run_append, run_codeUnit level deepest unit] using ih
  | pair leading trailing first second _ ih =>
    simpa [next, run_append, run_codeUnit level deepest leading,
      run_codeUnit level deepest trailing] using ih

end Scan

theorem nests_quotes {w : List Char} {s : String} (h : Quotes w s) : Nests 0 w := by
  rcases h with ⟨content, hcontent, rfl⟩
  apply Nests.of_unchanged
  intro level deepest
  simp [Scan.next, Scan.run_append, Scan.run_spells level deepest hcontent]

/-- A member nests as deep as its value. -/
theorem MemberText.Writes.nests {m : MemberText} {key : String} {w : List Char} {k : Nat}
    (hm : m.Writes key w) (h : Nests k w) : Nests k m.chars := by
  have hquoted : Nests 0 ('"' :: (m.key ++ ['"'])) := nests_quotes ⟨m.key, hm.key, rfl⟩
  have hparts := (nests_blanks hm.spaced.1).append (hquoted.append
    ((nests_blanks hm.spaced.2).append (Nests.cons (Or.inr rfl) (hm.value ▸ h))))
  simp only [Nat.zero_max] at hparts
  simpa [MemberText.chars] using hparts

theorem nests_objectChars {gap : List Char} (hgap : Blanks gap) {members : List MemberText}
    {k : MemberText → Nat} (h : ∀ m ∈ members, Nests (k m) m.chars) :
    Nests ((members.map k).foldr max 0 + 1) (objectChars gap members) := by
  have hcontent := (nests_blanks hgap).append (nests_commaJoin h)
  rw [Nat.zero_max] at hcontent
  have hbracket := Nests.bracket (Or.inl rfl) (Or.inl rfl) hcontent
  rwa [List.append_assoc] at hbracket

theorem nests_arrayChars {α : Type} {gap : List Char} (hgap : Blanks gap) {items : List α}
    {text : α → List Char} {k : α → Nat} (h : ∀ i ∈ items, Nests (k i) (text i)) :
    Nests ((items.map k).foldr max 0 + 1) (arrayChars gap (items.map text)) := by
  have hcontent := (nests_blanks hgap).append (nests_commaJoin h)
  rw [Nat.zero_max] at hcontent
  have hbracket := Nests.bracket (Or.inr rfl) (Or.inr rfl) hcontent
  rwa [List.append_assoc] at hbracket

end Json
end PascalTree
