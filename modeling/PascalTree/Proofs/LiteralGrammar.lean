import Mathlib.Computability.Language
import PascalTree.Literal.Basic

/-!
# LiteralGrammar — the written forms of literals as regular languages

The four classes of literal texts are given as languages, built from single characters by union,
product and repetition, without reference to the scanner:

* `Grammar.ofType`: the language of each type of literals;
* `Grammar.FirstToken`: the longest piece at the front of a text that belongs to a class;
* `Grammar.Lexes`: the class of a text by its first token, which has to span it;
* `parse?_type`: the scanner finds a form of a type exactly in the texts of that type's language.

The scanner takes the longest run of digits where the grammar allows any split, so the split has to
be shown unique: what may follow the digits never starts with one.
-/

namespace PascalTree
namespace Grammar

open Computability
open Form

/-! ## The languages -/

/-- The texts of one character that has a property. -/
def oneOf (p : Char → Prop) : Language Char := {w | ∃ c, p c ∧ w = [c]}

/-- Decimal digits: `[0-9]+`. -/
def digits : Language Char :=
  oneOf (fun c => '0' ≤ c ∧ c ≤ '9') * (oneOf fun c => '0' ≤ c ∧ c ≤ '9')∗

/-- An optional sign: `[+-]?`. -/
def sign : Language Char := 1 + oneOf fun c => c = '+' ∨ c = '-'

/-- A power of ten: `[eE][+-]?[0-9]+`. -/
def exponent : Language Char := oneOf (fun c => c = 'e' ∨ c = 'E') * (sign * digits)

/-- What stands behind the point of a real: `[0-9]+([eE][+-]?[0-9]+)?`. -/
def fraction : Language Char := digits * (1 + exponent)

/-- Integers: `[+-]?[0-9]+`. -/
def integer : Language Char := sign * digits

/-- Reals: `[+-]?[0-9]+\.[0-9]+([eE][+-]?[0-9]+)?` or `[+-]?[0-9]+[eE][+-]?[0-9]+`. -/
def real : Language Char :=
  sign * (digits * ({['.']} * fraction)) + sign * (digits * exponent)

/-- A word of small letters, each of which may also be written as a capital. -/
def anyCase (word : List Char) : Language Char :=
  (word.map fun c => oneOf fun d => d = c ∨ d = c.toUpper).prod

/-- Truth values: `true` or `false`, in any case. -/
def boolean : Language Char := anyCase ['t', 'r', 'u', 'e'] + anyCase ['f', 'a', 'l', 's', 'e']

/-- A piece of the content between two delimiters `q`: `[^q\n]|qq`. -/
def piece (q : Char) : Language Char := oneOf (fun c => c ≠ q ∧ c ≠ '\n') + {[q, q]}

/-- Texts between two delimiters `q`: `q([^q\n]|qq)*q`. -/
def quoted (q : Char) : Language Char := {[q]} * ((piece q)∗ * {[q]})

/-- A text between single or double quotes. -/
def string : Language Char := quoted '\'' + quoted '"'

/-- The texts of the literals of a type. -/
def ofType : LiteralType → Language Char
  | .integer => integer
  | .real => real
  | .boolean => boolean
  | .string => string

/-- The longest piece `w` at the front of a text that belongs to a class, and its class. -/
structure FirstToken (text w : List Char) (type : LiteralType) : Prop where
  front : w <+: text
  mem : w ∈ ofType type
  longest : ∀ w' type', w' <+: text → w' ∈ ofType type' → w'.length ≤ w.length

/-- The class of a text as its first token decides it: a token that spans the text gives its own
class, and a text with a shorter one or none is malformed. -/
inductive Lexes (text : String) : Except BuildError LiteralType → Prop where
  | spans {w : List Char} {type : LiteralType} (token : FirstToken text.toList w type)
      (span : w = text.toList) : Lexes text (.ok type)
  | stops {w : List Char} {type : LiteralType} (token : FirstToken text.toList w type)
      (span : w ≠ text.toList) : Lexes text (.error (.malformedLiteral text))
  | none (notoken : ∀ w type, w <+: text.toList → w ∉ ofType type) :
      Lexes text (.error (.malformedLiteral text))

/-! ## Single characters -/

theorem mem_oneOf_mul {p : Char → Prop} {l : Language Char} {w : List Char} :
    w ∈ oneOf p * l ↔ ∃ c cs, w = c :: cs ∧ p c ∧ cs ∈ l := by
  rw [Language.mem_mul]
  constructor
  · rintro ⟨_, ⟨c, hc, rfl⟩, cs, hcs, rfl⟩
    exact ⟨c, cs, rfl, hc, hcs⟩
  · rintro ⟨c, cs, rfl, hc, hcs⟩
    exact ⟨[c], ⟨c, hc, rfl⟩, cs, hcs, rfl⟩

theorem mem_singleton_mul {c : Char} {l : Language Char} {w : List Char} :
    w ∈ ({[c]} : Language Char) * l ↔ ∃ cs, w = c :: cs ∧ cs ∈ l := by
  rw [Language.mem_mul]
  constructor
  · rintro ⟨_, rfl, cs, hcs, rfl⟩
    exact ⟨cs, rfl, hcs⟩
  · rintro ⟨cs, rfl, hcs⟩
    exact ⟨[c], rfl, cs, hcs, rfl⟩

theorem mem_kstar_oneOf {p : Char → Prop} {w : List Char} : w ∈ (oneOf p)∗ ↔ ∀ c ∈ w, p c := by
  constructor
  · intro h
    rcases Language.mem_kstar.1 h with ⟨words, rfl, hwords⟩
    intro c hc
    rcases List.mem_flatten.1 hc with ⟨word, hword, hcw⟩
    rcases hwords word hword with ⟨d, hd, rfl⟩
    rw [List.mem_singleton] at hcw
    rwa [hcw]
  · intro h
    have hflat : w = (w.map fun c => [c]).flatten := by
      rw [← List.flatMap_def, List.flatMap_singleton']
    rw [hflat]
    apply Language.join_mem_kstar
    intro word hword
    rcases List.mem_map.1 hword with ⟨c, hc, rfl⟩
    exact ⟨c, h c hc, rfl⟩

/-! ## Digits and signs -/

theorem isDigit_iff {c : Char} : c.isDigit = true ↔ '0' ≤ c ∧ c ≤ '9' := by
  simp [Char.isDigit, Char.le_def]

theorem mem_digits {w : List Char} : w ∈ digits ↔ w ≠ [] ∧ ∀ c ∈ w, c.isDigit = true := by
  rw [digits, mem_oneOf_mul]
  constructor
  · rintro ⟨c, cs, rfl, hc, hcs⟩
    rw [mem_kstar_oneOf] at hcs
    refine ⟨List.cons_ne_nil c cs, ?_⟩
    intro d hd
    rcases List.mem_cons.1 hd with rfl | hd
    · exact isDigit_iff.2 hc
    · exact isDigit_iff.2 (hcs d hd)
  · rintro ⟨hne, hall⟩
    obtain ⟨c, cs, rfl⟩ := List.exists_cons_of_ne_nil hne
    refine ⟨c, cs, rfl, isDigit_iff.1 (hall c List.mem_cons_self), mem_kstar_oneOf.2 ?_⟩
    intro d hd
    exact isDigit_iff.1 (hall d (List.mem_cons_of_mem c hd))

/-- No word of the language starts with a digit. -/
def NoDigitFirst (l : Language Char) : Prop := ∀ c cs, c :: cs ∈ l → c.isDigit = false

/-- Behind a run of digits, the longest such run is the only split. -/
theorem mem_digits_mul {l : Language Char} (hl : NoDigitFirst l) {w : List Char} :
    w ∈ digits * l ↔ w.takeWhile Char.isDigit ≠ [] ∧ w.dropWhile Char.isDigit ∈ l := by
  rw [Language.mem_mul]
  constructor
  · rintro ⟨ds, hds, rest, hrest, rfl⟩
    rcases mem_digits.1 hds with ⟨hne, hall⟩
    have hstop : rest.takeWhile Char.isDigit = [] ∧ rest.dropWhile Char.isDigit = rest := by
      cases rest with
      | nil => exact ⟨rfl, rfl⟩
      | cons c cs => simp [hl c cs hrest]
    rw [List.takeWhile_append_of_pos hall, List.dropWhile_append_of_pos hall, hstop.1, hstop.2,
      List.append_nil]
    exact ⟨hne, hrest⟩
  · rintro ⟨hne, hrest⟩
    refine ⟨w.takeWhile Char.isDigit, mem_digits.2 ⟨hne, ?_⟩, _, hrest,
      List.takeWhile_append_dropWhile⟩
    exact List.all_eq_true.1 List.all_takeWhile

theorem noDigitFirst_one : NoDigitFirst 1 := by
  intro c cs h
  cases h

theorem noDigitFirst_exponent : NoDigitFirst exponent := by
  intro c cs h
  rcases mem_oneOf_mul.1 h with ⟨d, ds, heq, hd, _⟩
  cases heq
  rcases hd with rfl | rfl <;> rfl

theorem noDigitFirst_point (l : Language Char) : NoDigitFirst ({['.']} * l) := by
  intro c cs h
  rcases mem_singleton_mul.1 h with ⟨ds, heq, _⟩
  cases heq
  rfl

theorem noDigitFirst_add {l m : Language Char} (hl : NoDigitFirst l) (hm : NoDigitFirst m) :
    NoDigitFirst (l + m) := by
  rintro c cs (h | h)
  · exact hl c cs h
  · exact hm c cs h

theorem dropSign_of_isDigit {c : Char} (hc : c.isDigit = true) (cs : List Char) :
    dropSign (c :: cs) = c :: cs := by
  unfold dropSign
  split
  · rename_i heq
    cases heq
    cases hc
  · rename_i heq
    cases heq
    cases hc
  · rfl

/-- An optional sign before a text that starts with a digit is what `dropSign` drops. -/
theorem mem_sign_mul {l : Language Char} {w : List Char} :
    w ∈ sign * (digits * l) ↔ dropSign w ∈ digits * l := by
  rw [sign, add_mul, one_mul, Language.mem_add, mem_oneOf_mul]
  constructor
  · rintro (h | ⟨c, cs, rfl, rfl | rfl, hcs⟩)
    · -- A text of `digits * l` has no sign to drop.
      rcases Language.mem_mul.1 h with ⟨ds, hds, rest, _, rfl⟩
      rcases mem_digits.1 hds with ⟨hne, hall⟩
      obtain ⟨c, cs, rfl⟩ := List.exists_cons_of_ne_nil hne
      rw [List.cons_append, dropSign_of_isDigit (hall c List.mem_cons_self)]
      exact h
    · exact hcs
    · exact hcs
  · intro h
    unfold dropSign at h
    split at h
    · exact Or.inr ⟨'+', _, rfl, Or.inl rfl, h⟩
    · exact Or.inr ⟨'-', _, rfl, Or.inr rfl, h⟩
    · exact Or.inl h

/-! ## Numbers -/

theorem mem_integer {w : List Char} :
    w ∈ integer ↔
      (dropSign w).takeWhile Char.isDigit ≠ [] ∧ (dropSign w).dropWhile Char.isDigit = [] := by
  rw [integer, ← mul_one digits, mem_sign_mul, mem_digits_mul noDigitFirst_one, Language.mem_one]

theorem mem_real {w : List Char} :
    w ∈ real ↔
      (dropSign w).takeWhile Char.isDigit ≠ [] ∧
        ((∃ rest, (dropSign w).dropWhile Char.isDigit = '.' :: rest ∧ rest ∈ fraction) ∨
          (dropSign w).dropWhile Char.isDigit ∈ exponent) := by
  -- The two forms of a real share the sign and the digits before the point.
  have hreal : real = sign * (digits * ({['.']} * fraction + exponent)) := by
    rw [real, mul_add, mul_add]
  rw [hreal, mem_sign_mul,
    mem_digits_mul (noDigitFirst_add (noDigitFirst_point _) noDigitFirst_exponent),
    Language.mem_add, mem_singleton_mul]

theorem signedDigits?_isSome {cs : List Char} :
    (signedDigits? cs).isSome ↔ cs ∈ sign * digits := by
  have hmem : cs ∈ sign * digits ↔ dropSign cs ∈ digits := by
    rw [← mul_one digits, mem_sign_mul]
  rw [hmem, mem_digits, signedDigits?]
  by_cases hempty : dropSign cs = []
  · simp [hempty]
  · by_cases hall : ∀ c ∈ dropSign cs, c.isDigit = true
    · have hall' := List.all_eq_true.2 hall
      simpa [hempty, hall'] using hall
    · have hall' : (dropSign cs).all Char.isDigit = false := by
        rw [← Bool.not_eq_true]
        intro h
        exact hall (List.all_eq_true.1 h)
      simp [hall', hall]

theorem exponent?_isSome {cs : List Char} : (exponent? cs).isSome ↔ cs ∈ exponent := by
  rw [exponent, mem_oneOf_mul]
  cases cs with
  | nil => simp [exponent?]
  | cons c cs =>
    rw [exponent?]
    split
    · rename_i hc
      rw [signedDigits?_isSome]
      constructor
      · intro h
        exact ⟨c, cs, rfl, hc, h⟩
      · rintro ⟨d, ds, heq, _, h⟩
        cases heq
        exact h
    · rename_i hc
      simp only [Option.isSome_none, Bool.false_eq_true, false_iff]
      rintro ⟨d, ds, heq, hd, _⟩
      cases heq
      exact hc hd

theorem exponent?_eq_none {cs : List Char} : exponent? cs = none ↔ cs ∉ exponent := by
  rw [← exponent?_isSome, Bool.not_eq_true, Option.isSome_eq_false_iff, Option.isNone_iff_eq_none]

theorem fraction?_isSome {cs : List Char} :
    (fraction? cs).isSome ↔ cs ∈ fraction := by
  rw [fraction, mem_digits_mul (noDigitFirst_add noDigitFirst_one noDigitFirst_exponent),
    Language.mem_add, Language.mem_one, ← exponent?_isSome, fraction?]
  by_cases hdigits : cs.takeWhile Char.isDigit = []
  · simp [hdigits]
  · by_cases hrest : cs.dropWhile Char.isDigit = []
    · simp [hdigits, hrest]
    · simp [hdigits, hrest]

theorem fraction?_eq_none {cs : List Char} : fraction? cs = none ↔ cs ∉ fraction := by
  rw [← fraction?_isSome, Bool.not_eq_true, Option.isSome_eq_false_iff, Option.isNone_iff_eq_none]

/-- The scanner of numbers finds an integer in the texts of integers and a real in those of
reals. -/
theorem number?_type {cs : List Char} {type : LiteralType} :
    (number? cs).map Form.type = some type ↔
      (type = .integer ∧ cs ∈ integer) ∨ (type = .real ∧ cs ∈ real) := by
  rw [mem_integer, mem_real, number?]
  by_cases hwhole : (dropSign cs).takeWhile Char.isDigit = []
  · simp [hwhole]
  · -- What follows the digits decides between the forms.
    cases hrest : (dropSign cs).dropWhile Char.isDigit with
    | nil =>
      have hmem : [] ∉ exponent := exponent?_eq_none.1 rfl
      simp [hwhole, hmem, Form.type, eq_comm (a := LiteralType.integer)]
    | cons c rest =>
      by_cases hc : c = '.'
      · subst hc
        have hpoint : '.' :: rest ∉ exponent := exponent?_eq_none.1 rfl
        cases hfrac : fraction? rest with
        | none =>
          have hmem : rest ∉ fraction := fraction?_eq_none.1 hfrac
          simp [hwhole, hpoint, hfrac, hmem]
        | some part =>
          have hmem : rest ∈ fraction := by
            rw [← fraction?_isSome, hfrac]
            rfl
          simp [hwhole, hfrac, hmem, Form.type, eq_comm (a := LiteralType.real)]
      · cases hexp : exponent? (c :: rest) with
        | none =>
          have hmem : c :: rest ∉ exponent := exponent?_eq_none.1 hexp
          simp [hwhole, hc, hexp, hmem]
        | some e =>
          have hmem : c :: rest ∈ exponent := by
            rw [← exponent?_isSome, hexp]
            rfl
          simp [hwhole, hc, hexp, hmem, Form.type, eq_comm (a := LiteralType.real)]

/-! ## Quoted texts -/

theorem mem_piece_mul {q : Char} {l : Language Char} {w : List Char} :
    w ∈ piece q * l ↔
      (∃ c cs, w = c :: cs ∧ (c ≠ q ∧ c ≠ '\n') ∧ cs ∈ l) ∨ ∃ cs, w = q :: q :: cs ∧ cs ∈ l := by
  rw [piece, add_mul, Language.mem_add, mem_oneOf_mul, Language.mem_mul]
  constructor
  · rintro (h | ⟨_, rfl, cs, hcs, rfl⟩)
    · exact Or.inl h
    · exact Or.inr ⟨cs, rfl, hcs⟩
  · rintro (h | ⟨cs, rfl, hcs⟩)
    · exact Or.inl h
    · exact Or.inr ⟨[q, q], rfl, cs, hcs, rfl⟩

/-- Behind the opening delimiter stands the closing one, or a piece of the content before such a
rest. -/
theorem mem_content {q : Char} {w : List Char} :
    w ∈ (piece q)∗ * {[q]} ↔ w = [q] ∨ w ∈ piece q * ((piece q)∗ * {[q]}) := by
  have hstar : (piece q)∗ * {[q]} = {[q]} + piece q * ((piece q)∗ * {[q]}) := by
    calc
      (piece q)∗ * {[q]} = (1 + piece q * (piece q)∗) * {[q]} := by
          rw [Language.one_add_self_mul_kstar_eq_kstar]
      _ = {[q]} + piece q * ((piece q)∗ * {[q]}) := by rw [add_mul, one_mul, mul_assoc]
  constructor
  · intro h
    rwa [hstar] at h
  · intro h
    rwa [hstar]

/-- The scanner of quoted texts accepts what may stand behind the opening delimiter. -/
theorem content?_isSome {q : Char} {cs : List Char} :
    (content? q cs).isSome ↔ cs ∈ (piece q)∗ * {[q]} := by
  -- Every case opens one piece of the language, as far as the scanner has looked.
  fun_induction content? q cs with
  | case1 =>
    rw [mem_content, mem_piece_mul]
    simp
  | case2 =>
    rw [mem_content]
    simp
  | case3 rest ih =>
    rw [mem_content, mem_piece_mul, Option.isSome_map, ih]
    simp
  | case4 d rest hd =>
    rw [mem_content, mem_piece_mul]
    simp [hd]
  | case5 cs hq =>
    rw [mem_content, mem_piece_mul]
    simp [hq]
  | case6 c cs hq hn ih =>
    rw [mem_content, mem_piece_mul, Option.isSome_map, ih]
    simp [hq, hn]

theorem mem_quoted {q : Char} {w : List Char} :
    w ∈ quoted q ↔ ∃ cs, w = q :: cs ∧ (content? q cs).isSome := by
  rw [quoted, mem_singleton_mul]
  simp only [content?_isSome]

/-! ## Truth values -/

theorem toLower_eq_iff {c d : Char} (hc : c.isLower = true) :
    d.toLower = c ↔ d = c ∨ d = c.toUpper := by
  have hlow : 'a'.val ≤ c.val ∧ c.val ≤ 'z'.val := by
    delta Char.isLower at hc
    simpa using hc
  have hup : c.toUpper.val = c.val + ('A'.val - 'a'.val) := by
    delta Char.toUpper
    rw [dif_pos hlow]
  rw [Char.ext_iff, Char.ext_iff, Char.ext_iff, hup]
  delta Char.toLower
  -- What is left compares code points, in and out of the range of the capitals.
  simp only [UInt32.le_iff_toNat_le, Char.reduceVal, UInt32.reduceToNat] at hlow
  split
  all_goals
    rename_i h
    simp only [ge_iff_le, UInt32.le_iff_toNat_le, Char.reduceVal, UInt32.reduceToNat] at h
    simp only [← UInt32.toNat_inj, UInt32.toNat_add, Char.reduceVal, UInt32.reduceSub,
      UInt32.reduceToNat]
    omega

theorem mem_anyCase {word w : List Char} (hword : ∀ c ∈ word, c.isLower = true) :
    w ∈ anyCase word ↔ w.map Char.toLower = word := by
  induction word generalizing w with
  | nil => simp [anyCase, Language.mem_one]
  | cons c word ih =>
    have hc := hword c List.mem_cons_self
    have htail : ∀ {cs : List Char}, cs ∈ anyCase word ↔ cs.map Char.toLower = word :=
      ih fun d hd => hword d (List.mem_cons_of_mem c hd)
    rw [anyCase, List.map_cons, List.prod_cons, mem_oneOf_mul]
    constructor
    · rintro ⟨d, cs, rfl, hd, hcs⟩
      rw [List.map_cons, (toLower_eq_iff hc).2 hd, htail.1 hcs]
    · intro h
      cases w with
      | nil => cases h
      | cons d cs =>
        rw [List.map_cons] at h
        cases h
        exact ⟨d, cs, rfl, (toLower_eq_iff hc).1 rfl, htail.2 rfl⟩

theorem mem_boolean {text : String} :
    text.toList ∈ boolean ↔
      Text.sameIgnoringCase text "true" = true ∨ Text.sameIgnoringCase text "false" = true := by
  have htrue : Text.lowered "true" = ['t', 'r', 'u', 'e'] := by decide
  have hfalse : Text.lowered "false" = ['f', 'a', 'l', 's', 'e'] := by decide
  rw [boolean, Language.mem_add, mem_anyCase (List.all_eq_true.mp rfl),
    mem_anyCase (List.all_eq_true.mp rfl), Text.sameIgnoringCase, Text.sameIgnoringCase,
    beq_iff_eq, beq_iff_eq, htrue, hfalse, Text.lowered]

/-! ## First characters -/

/-- How the texts of a type may start. -/
def StartsAs : LiteralType → Char → Prop
  | .integer, c | .real, c => c.isDigit = true ∨ c = '+' ∨ c = '-'
  | .boolean, c => c = 't' ∨ c = 'T' ∨ c = 'f' ∨ c = 'F'
  | .string, c => c = '\'' ∨ c = '"'

theorem startsAs_of_dropSign {w : List Char} (h : (dropSign w).takeWhile Char.isDigit ≠ []) :
    ∃ c cs, w = c :: cs ∧ (c.isDigit = true ∨ c = '+' ∨ c = '-') := by
  unfold dropSign at h
  split at h
  · exact ⟨'+', _, rfl, Or.inr (Or.inl rfl)⟩
  · exact ⟨'-', _, rfl, Or.inr (Or.inr rfl)⟩
  · cases w with
    | nil => exact absurd rfl h
    | cons c cs =>
      refine ⟨c, cs, rfl, Or.inl ?_⟩
      by_contra hc
      exact h (List.takeWhile_cons_of_neg hc)

theorem startsAs_of_mem {type : LiteralType} {w : List Char} (h : w ∈ ofType type) :
    ∃ c cs, w = c :: cs ∧ StartsAs type c := by
  cases type with
  | integer => exact startsAs_of_dropSign (mem_integer.1 h).1
  | real => exact startsAs_of_dropSign (mem_real.1 h).1
  | boolean =>
    rcases h with h | h
    · rcases mem_oneOf_mul.1 h with ⟨c, cs, rfl, rfl | rfl, _⟩
      · exact ⟨'t', cs, rfl, Or.inl rfl⟩
      · exact ⟨'T', cs, rfl, Or.inr (Or.inl rfl)⟩
    · rcases mem_oneOf_mul.1 h with ⟨c, cs, rfl, rfl | rfl, _⟩
      · exact ⟨'f', cs, rfl, Or.inr (Or.inr (Or.inl rfl))⟩
      · exact ⟨'F', cs, rfl, Or.inr (Or.inr (Or.inr rfl))⟩
  | string =>
    rcases h with h | h
    · rcases mem_quoted.1 h with ⟨cs, rfl, _⟩
      exact ⟨'\'', cs, rfl, Or.inl rfl⟩
    · rcases mem_quoted.1 h with ⟨cs, rfl, _⟩
      exact ⟨'"', cs, rfl, Or.inr rfl⟩

/-- The texts of no other type start as truth values do. -/
theorem StartsAs.eq_boolean {type : LiteralType} {c : Char} (hc : StartsAs .boolean c)
    (h : StartsAs type c) : type = .boolean := by
  rcases hc with rfl | rfl | rfl | rfl <;> cases type <;> simp [StartsAs] at h ⊢

/-- The texts of no other type start as quoted texts do. -/
theorem StartsAs.eq_string {type : LiteralType} {c : Char} (hc : StartsAs .string c)
    (h : StartsAs type c) : type = .string := by
  rcases hc with rfl | rfl <;> cases type <;> simp [StartsAs] at h ⊢

theorem startsAs_of_cons_mem {type : LiteralType} {c : Char} {cs : List Char}
    (h : c :: cs ∈ ofType type) : StartsAs type c := by
  rcases startsAs_of_mem h with ⟨d, ds, heq, hd⟩
  cases heq
  exact hd

theorem cons_mem_string {q : Char} {cs : List Char} (hq : StartsAs .string q) :
    q :: cs ∈ string ↔ (content? q cs).isSome := by
  rw [string, Language.mem_add, mem_quoted, mem_quoted]
  rcases hq with rfl | rfl <;> simp

/-! ## The scanner -/

theorem parse?_of_mem_boolean {text : String} (h : text.toList ∈ boolean) :
    (parse? text).map Form.type = some .boolean := by
  rw [parse?]
  rcases mem_boolean.1 h with h | h
  · rw [if_pos h]
    rfl
  · rw [if_pos h]
    split <;> rfl

theorem parse?_of_quote {text : String} {q : Char} {cs : List Char} (htext : text.toList = q :: cs)
    (hq : StartsAs .string q) : parse? text = (content? q cs).map .string := by
  have hbool : text.toList ∉ boolean := by
    intro h
    have hstart : StartsAs .boolean q := startsAs_of_cons_mem (htext ▸ h)
    cases hq.eq_string hstart
  rw [mem_boolean, not_or] at hbool
  rw [parse?, if_neg hbool.1, if_neg hbool.2, htext]
  rcases hq with rfl | rfl <;> rfl

theorem parse?_of_other {text : String} (hbool : text.toList ∉ boolean)
    (hquote : ∀ q cs, text.toList = q :: cs → ¬StartsAs .string q) :
    parse? text = number? text.toList := by
  rw [mem_boolean, not_or] at hbool
  rw [parse?, if_neg hbool.1, if_neg hbool.2]
  split
  · exact absurd (Or.inl rfl) (hquote _ _ ‹_›)
  · exact absurd (Or.inr rfl) (hquote _ _ ‹_›)
  · rfl

/-- The scanner finds a form of a type exactly in the texts of that type. -/
theorem parse?_type {text : String} {type : LiteralType} :
    (parse? text).map Form.type = some type ↔ text.toList ∈ ofType type := by
  -- The scanner looks for truth values, then for quotes, then for numbers.
  by_cases hbool : text.toList ∈ boolean
  · rw [parse?_of_mem_boolean hbool, Option.some.injEq]
    constructor
    · rintro rfl
      exact hbool
    · intro h
      have hmem : text.toList ∈ ofType .boolean := hbool
      rcases startsAs_of_mem hmem with ⟨c, cs, heq, hc⟩
      rw [heq] at h
      exact (hc.eq_boolean (startsAs_of_cons_mem h)).symm
  · by_cases hquote : ∃ q cs, text.toList = q :: cs ∧ StartsAs .string q
    · rcases hquote with ⟨q, cs, htext, hq⟩
      rw [parse?_of_quote htext hq, htext, Option.map_map]
      constructor
      · intro h
        rcases Option.map_eq_some_iff.1 h with ⟨content, hcontent, rfl⟩
        exact (cons_mem_string hq).2 (by rw [hcontent]; rfl)
      · intro h
        cases hq.eq_string (startsAs_of_cons_mem h)
        rcases Option.isSome_iff_exists.1 ((cons_mem_string hq).1 h) with ⟨content, hcontent⟩
        rw [hcontent]
        rfl
    · have hother : ∀ q cs, text.toList = q :: cs → ¬StartsAs .string q := by
        intro q cs htext hq
        exact hquote ⟨q, cs, htext, hq⟩
      rw [parse?_of_other hbool hother, number?_type]
      cases type with
      | integer => simp [ofType]
      | real => simp [ofType]
      | boolean => simpa [ofType] using hbool
      | string =>
        simp only [reduceCtorEq, false_and, or_self, false_iff]
        intro h
        rcases startsAs_of_mem h with ⟨q, cs, htext, hq⟩
        exact hother q cs htext hq

/-! ## Classes and values -/

theorem classify_eq_ok {text : String} {type : LiteralType} :
    classify text = .ok type ↔ text.toList ∈ ofType type := by
  rw [← parse?_type, classify]
  cases parse? text with
  | none => simp
  | some form => simp

theorem classify_eq_error {text : String} {error : BuildError} (h : classify text = .error error) :
    error = .malformedLiteral text := by
  rw [classify] at h
  split at h
  · cases h
  · cases h
    rfl

/-- No text belongs to two classes. -/
theorem ofType_unique {w : List Char} {type type' : LiteralType} (h : w ∈ ofType type)
    (h' : w ∈ ofType type') : type = type' := by
  have hclass : classify (String.ofList w) = .ok type :=
    classify_eq_ok.2 (by rwa [String.toList_ofList])
  have hclass' : classify (String.ofList w) = .ok type' :=
    classify_eq_ok.2 (by rwa [String.toList_ofList])
  rw [hclass] at hclass'
  cases hclass'
  rfl

theorem classify_eq_malformed_iff {text : String} :
    classify text = .error (.malformedLiteral text) ↔ ∀ type, text.toList ∉ ofType type := by
  constructor
  · intro h type hmem
    rw [classify_eq_ok.2 hmem] at h
    cases h
  · intro h
    cases hclass : classify text with
    | ok type => exact absurd (classify_eq_ok.1 hclass) (h type)
    | error error => rw [classify_eq_error hclass]

/-! ## First tokens -/

/-- Where any token stands at the front, there is a longest one. -/
theorem exists_firstToken {text w : List Char} {type : LiteralType} (hfront : w <+: text)
    (hw : w ∈ ofType type) : ∃ w type, FirstToken text w type := by
  -- From a token that is not the longest one goes on to a longer one, up to the whole text.
  induction hn : text.length - w.length using Nat.strongRecOn generalizing w type with
  | ind n ih =>
    by_cases hlongest : ∀ w' type', w' <+: text → w' ∈ ofType type' → w'.length ≤ w.length
    · exact ⟨w, type, hfront, hw, hlongest⟩
    · push Not at hlongest
      obtain ⟨w', type', hfront', hw', hlonger⟩ := hlongest
      have hle := hfront'.length_le
      exact ih (text.length - w'.length) (by omega) hfront' hw' rfl

/-- The first token of a text that is a token itself spans it. -/
theorem FirstToken.eq_of_mem {text w : List Char} {type type' : LiteralType}
    (token : FirstToken text w type) (hmem : text ∈ ofType type') : w = text :=
  token.front.eq_of_length_le (token.longest text type' List.prefix_rfl hmem)

/-- The scanner gives every text the class that its first token decides. -/
theorem classify_eq_iff_lexes {text : String} {result : Except BuildError LiteralType} :
    classify text = result ↔ Lexes text result := by
  constructor
  · rintro rfl
    cases hclass : classify text with
    | ok type =>
      have hmem := classify_eq_ok.1 hclass
      exact .spans ⟨List.prefix_rfl, hmem, fun w' _ hfront _ => hfront.length_le⟩ rfl
    | error error =>
      obtain rfl := classify_eq_error hclass
      by_cases htoken : ∃ w type, w <+: text.toList ∧ w ∈ ofType type
      · obtain ⟨w, type, hfront, hw⟩ := htoken
        obtain ⟨w', type', token⟩ := exists_firstToken hfront hw
        refine .stops token fun hspan => ?_
        exact classify_eq_malformed_iff.1 hclass type' (hspan ▸ token.mem)
      · exact .none fun w type hfront hw => htoken ⟨w, type, hfront, hw⟩
  · intro h
    cases h with
    | spans token span => exact classify_eq_ok.2 (span ▸ token.mem)
    | stops token span =>
      exact classify_eq_malformed_iff.2 fun type hmem => span (token.eq_of_mem hmem)
    | none notoken =>
      exact classify_eq_malformed_iff.2 fun type => notoken text.toList type List.prefix_rfl

/-! ## Values -/

theorem resolve_eq_ok_iff {text : String} {form : Form} (h : parse? text = some form)
    {value : Value} : resolve text = .ok value ↔ form.value? = some value := by
  rw [resolve, h, Option.bind_some]
  cases form.value? <;> simp

theorem resolve_eq_malformed_iff {text : String} {form : Form} (h : parse? text = some form) :
    resolve text = .error (.malformedLiteral text) ↔ form.value? = none := by
  rw [resolve, h, Option.bind_some]
  cases form.value? <;> simp

theorem type_of_value? {form : Form} {value : Value} (h : form.value? = some value) :
    value.type = form.type := by
  cases form with
  | integer negative ds =>
    rcases Option.map_eq_some_iff.1 h with ⟨n, _, rfl⟩
    rfl
  | real negative whole frac e =>
    simp only [Form.value?] at h
    split at h
    · cases h
      rfl
    · cases h
  | boolean b =>
    cases h
    rfl
  | string content =>
    cases h
    rfl

theorem resolve_type {text : String} {value : Value} (h : resolve text = .ok value) :
    classify text = .ok value.type := by
  rw [resolve] at h
  rw [classify]
  cases hform : parse? text with
  | none => simp [hform] at h
  | some form =>
    cases hvalue : form.value? with
    | none => simp [hform, hvalue] at h
    | some v =>
      simp only [hform, Option.bind_some, hvalue, Except.ok.injEq] at h
      rw [← h, type_of_value? hvalue]

/-- Only numbers can be out of range. -/
theorem resolve_isOk {text : String} (h : text.toList ∈ boolean ∨ text.toList ∈ string) :
    ∃ value, resolve text = .ok value := by
  have htype : (parse? text).map Form.type = some .boolean ∨
      (parse? text).map Form.type = some .string :=
    h.imp parse?_type.2 parse?_type.2
  rw [resolve]
  cases hform : parse? text with
  | none => simp [hform] at htype
  | some form =>
    cases form with
    | integer negative ds => simp [hform, Form.type] at htype
    | real negative whole frac e => simp [hform, Form.type] at htype
    | boolean b => exact ⟨.boolean b, rfl⟩
    | string content => exact ⟨.string (String.ofList content), rfl⟩

theorem resolve_eq_error {text : String} {error : BuildError} (h : resolve text = .error error) :
    error = .malformedLiteral text := by
  rw [resolve] at h
  split at h
  · cases h
  · cases h
    rfl

/-- The class of a text is the one language it belongs to as a whole, and this is what the longest
token at its front decides; a text of no language is malformed, and the error carries it. A resolved
value has the type of the class, all texts of truth values and quoted texts resolve, and a text that
does not is carried by the error. -/
theorem classify_is_grammar (text : String) :
    (∀ type, classify text = .ok type ↔ text.toList ∈ ofType type) ∧
      (classify text = .error (.malformedLiteral text) ↔ ∀ type, text.toList ∉ ofType type) ∧
      (∀ w type type', w ∈ ofType type → w ∈ ofType type' → type = type') ∧
      (∀ result, classify text = result ↔ Lexes text result) ∧
      (∀ value, resolve text = .ok value → classify text = .ok value.type) ∧
      (text.toList ∈ boolean ∨ text.toList ∈ string → ∃ value, resolve text = .ok value) ∧
      ∀ error, resolve text = .error error → error = .malformedLiteral text :=
  ⟨fun _ => classify_eq_ok, classify_eq_malformed_iff, fun _ _ _ => ofType_unique,
    fun _ => classify_eq_iff_lexes, fun _ => resolve_type, resolve_isOk, fun _ => resolve_eq_error⟩

end Grammar
end PascalTree
