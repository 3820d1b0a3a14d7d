import Mathlib.Data.Nat.Digits.Defs
import PascalTree.Proofs.LiteralGrammar
import PascalTree.Proofs.Numeric.Rounding

/-!
# Numerals — the numbers that texts of integers and reals denote

Each form of a numeral is given with the exact number it denotes, part by part and without
reference to the scanner:

* `Grammar.natural`: the number of a run of digits, by powers of ten;
* `Grammar.IntegerText`, `Grammar.RealText`: the texts of the two languages with their numbers;
* `Grammar.number?_integer`, `Grammar.number?_real`: the scanner finds the parts that denote the
  number;
* `Grammar.integers_resolve_exactly`: integers resolve to their numbers and never wrap;
* `Grammar.reals_resolve_rounded`: reals resolve to a nearest binary number, or are too large.

No bound on the length of a text is used anywhere: the scanner computes with exact numbers and
compares with the bounds of 64 bits at the end.
-/

namespace PascalTree
namespace Grammar

open Computability
open Form

/-! ## What texts denote -/

/-- The number that decimal digits denote, each digit weighed by its power of ten. -/
def natural (ds : List Char) : ℕ := Nat.ofDigits 10 (ds.reverse.map Numeric.digitValue)

/-- The texts of a sign, and whether it is negative. -/
inductive SignText : List Char → Bool → Prop where
  | absent : SignText [] false
  | plus : SignText ['+'] false
  | minus : SignText ['-'] true

/-- A number with a sign. -/
def signed {α : Type} [Neg α] (negative : Bool) (x : α) : α := if negative then -x else x

/-- The texts of an integer, and the integer. -/
inductive IntegerText : List Char → ℤ → Prop where
  | mk {s ds : List Char} {negative : Bool} (hs : SignText s negative) (hds : ds ∈ digits) :
      IntegerText (s ++ ds) (signed negative (natural ds))

/-- The texts of a power of ten, and its exponent. -/
inductive ExponentText : List Char → ℤ → Prop where
  | mk {c : Char} {w : List Char} {e : ℤ} (hc : c = 'e' ∨ c = 'E') (he : IntegerText w e) :
      ExponentText (c :: w) e

/-- The texts of a real, and its exact value. -/
inductive RealText : List Char → ℚ → Prop where
  | point {s ds fs : List Char} {negative : Bool} (hs : SignText s negative) (hds : ds ∈ digits)
      (hfs : fs ∈ digits) :
      RealText (s ++ (ds ++ '.' :: fs))
        (signed negative (natural ds + natural fs / 10 ^ fs.length))
  | pointExponent {s ds fs w : List Char} {negative : Bool} {e : ℤ} (hs : SignText s negative)
      (hds : ds ∈ digits) (hfs : fs ∈ digits) (hw : ExponentText w e) :
      RealText (s ++ (ds ++ '.' :: (fs ++ w)))
        (signed negative ((natural ds + natural fs / 10 ^ fs.length) * 10 ^ e))
  | exponent {s ds w : List Char} {negative : Bool} {e : ℤ} (hs : SignText s negative)
      (hds : ds ∈ digits) (hw : ExponentText w e) :
      RealText (s ++ (ds ++ w)) (signed negative (natural ds * 10 ^ e))

theorem exists_signText {s : List Char} : (∃ negative, SignText s negative) ↔ s ∈ sign := by
  rw [sign, Language.mem_add, Language.mem_one]
  constructor
  · rintro ⟨_, h⟩
    cases h with
    | absent => exact Or.inl rfl
    | plus => exact Or.inr ⟨'+', Or.inl rfl, rfl⟩
    | minus => exact Or.inr ⟨'-', Or.inr rfl, rfl⟩
  · rintro (rfl | ⟨c, rfl | rfl, rfl⟩)
    · exact ⟨false, .absent⟩
    · exact ⟨false, .plus⟩
    · exact ⟨true, .minus⟩

/-- The integers are the texts that denote one. -/
theorem exists_integerText {w : List Char} : (∃ n, IntegerText w n) ↔ w ∈ integer := by
  rw [integer, Language.mem_mul]
  constructor
  · rintro ⟨_, hs, hds⟩
    exact ⟨_, exists_signText.mp ⟨_, hs⟩, _, hds, rfl⟩
  · rintro ⟨s, hs, ds, hds, rfl⟩
    obtain ⟨negative, hs⟩ := exists_signText.mpr hs
    exact ⟨_, .mk hs hds⟩

theorem exists_exponentText {w : List Char} : (∃ e, ExponentText w e) ↔ w ∈ exponent := by
  rw [exponent, mem_oneOf_mul]
  constructor
  · rintro ⟨_, hc, he⟩
    exact ⟨_, _, rfl, hc, exists_integerText.mp ⟨_, he⟩⟩
  · rintro ⟨c, w, rfl, hc, hw⟩
    obtain ⟨e, he⟩ := exists_integerText.mpr hw
    exact ⟨e, .mk hc he⟩

/-- The reals are the texts that denote one. -/
theorem exists_realText {w : List Char} : (∃ x, RealText w x) ↔ w ∈ real := by
  rw [real, Language.mem_add, Language.mem_mul, Language.mem_mul]
  constructor
  · rintro ⟨_, h⟩
    cases h with
    | point hs hds hfs =>
      have hnone : [] ∈ 1 + exponent := Or.inl rfl
      have hfraction := Language.append_mem_mul hfs hnone
      rw [List.append_nil] at hfraction
      exact Or.inl ⟨_, exists_signText.mp ⟨_, hs⟩, _,
        Language.append_mem_mul hds (Language.append_mem_mul rfl hfraction), rfl⟩
    | pointExponent hs hds hfs hw =>
      have hsome : _ ∈ 1 + exponent := Or.inr (exists_exponentText.mp ⟨_, hw⟩)
      have hfraction := Language.append_mem_mul hfs hsome
      exact Or.inl ⟨_, exists_signText.mp ⟨_, hs⟩, _,
        Language.append_mem_mul hds (Language.append_mem_mul rfl hfraction), rfl⟩
    | exponent hs hds hw =>
      exact Or.inr ⟨_, exists_signText.mp ⟨_, hs⟩, _,
        Language.append_mem_mul hds (exists_exponentText.mp ⟨_, hw⟩), rfl⟩
  · rintro (⟨s, hs, _, ⟨ds, hds, _, ⟨_, rfl, _, ⟨fs, hfs, w, hw, rfl⟩, rfl⟩, rfl⟩, rfl⟩ |
      ⟨s, hs, _, ⟨ds, hds, w, hw, rfl⟩, rfl⟩)
    · obtain ⟨negative, hs⟩ := exists_signText.mpr hs
      change ∃ x, RealText (s ++ (ds ++ '.' :: (fs ++ w))) x
      rcases hw with rfl | hw
      · rw [List.append_nil]
        exact ⟨_, .point hs hds hfs⟩
      · obtain ⟨e, hw⟩ := exists_exponentText.mpr hw
        exact ⟨_, .pointExponent hs hds hfs hw⟩
    · obtain ⟨negative, hs⟩ := exists_signText.mpr hs
      obtain ⟨e, hw⟩ := exists_exponentText.mpr hw
      exact ⟨_, .exponent hs hds hw⟩

/-! ## What the scanner makes of them -/

theorem digitsValue_eq_natural (ds : List Char) : Numeric.digitsValue ds = natural ds := by
  rw [natural, Nat.ofDigits_eq_foldr, List.foldr_map, List.foldr_reverse, Numeric.digitsValue]
  simp [Nat.mul_comm, Nat.add_comm]

theorem natural_append (ds es : List Char) :
    natural (ds ++ es) = natural ds * 10 ^ es.length + natural es := by
  rw [natural, List.reverse_append, List.map_append, Nat.ofDigits_append, List.length_map,
    List.length_reverse]
  unfold natural
  ring

theorem natural_replicate_zero (k : ℕ) : natural (List.replicate k '0') = 0 := by
  rw [natural, List.reverse_replicate, List.map_replicate]
  exact Nat.ofDigits_replicate_zero

theorem natural_toDigits (n : ℕ) : natural (Nat.toDigits 10 n) = n := by
  have h := Nat.ofDigitChars_toDigits (n := n) (by decide : 1 < 10) le_rfl
  rw [← digitsValue_eq_natural, Numeric.digitsValue]
  simpa [Nat.ofDigitChars_eq_foldl, Numeric.digitValue, Nat.mul_comm] using h

theorem isEmpty_of_mem_digits {ds : List Char} (h : ds ∈ digits) : ds.isEmpty = false := by
  simpa using (mem_digits.mp h).1

theorem startsNegative_of_isDigit {c : Char} (hc : c.isDigit = true) (cs : List Char) :
    startsNegative (c :: cs) = false := by
  unfold startsNegative
  split
  · rename_i heq
    cases heq
    cases hc
  · rfl

/-- The scanner drops the sign of a numeral, and remembers it. -/
theorem scan_sign {s ds : List Char} {negative : Bool} (hs : SignText s negative)
    (hds : ds ∈ digits) (rest : List Char) :
    startsNegative (s ++ (ds ++ rest)) = negative ∧ dropSign (s ++ (ds ++ rest)) = ds ++ rest := by
  obtain ⟨hne, hall⟩ := mem_digits.mp hds
  obtain ⟨c, cs, rfl⟩ := List.exists_cons_of_ne_nil hne
  have hc := hall c List.mem_cons_self
  cases hs with
  | absent => exact ⟨startsNegative_of_isDigit hc _, dropSign_of_isDigit hc _⟩
  | plus => exact ⟨rfl, rfl⟩
  | minus => exact ⟨rfl, rfl⟩

/-- The scanner ends the digits of a numeral where something else follows. -/
theorem scan_digits {ds rest : List Char} (hds : ds ∈ digits)
    (hrest : rest.takeWhile Char.isDigit = []) :
    (ds ++ rest).takeWhile Char.isDigit = ds ∧ (ds ++ rest).dropWhile Char.isDigit = rest := by
  have hall := (mem_digits.mp hds).2
  have hdrop : rest.dropWhile Char.isDigit = rest := by
    have h := List.takeWhile_append_dropWhile (p := Char.isDigit) (l := rest)
    rwa [hrest, List.nil_append] at h
  rw [List.takeWhile_append_of_pos hall, List.dropWhile_append_of_pos hall, hrest, hdrop,
    List.append_nil]
  exact ⟨rfl, rfl⟩

theorem signedDigits?_eq {w : List Char} {n : ℤ} (h : IntegerText w n) :
    signedDigits? w = some n := by
  obtain ⟨hs, hds⟩ := h
  rename_i s ds negative
  obtain ⟨hsign, hdigits⟩ := scan_sign hs hds []
  rw [List.append_nil] at hsign hdigits
  have hall : ds.all Char.isDigit = true := List.all_eq_true.mpr (mem_digits.mp hds).2
  simp only [signedDigits?, hsign, hdigits, isEmpty_of_mem_digits hds, hall,
    digitsValue_eq_natural, signed]
  simp

theorem exponent?_eq {w : List Char} {e : ℤ} (h : ExponentText w e) : exponent? w = some e := by
  obtain ⟨hc, he⟩ := h
  rw [exponent?, if_pos hc, signedDigits?_eq he]

theorem ExponentText.takeWhile_eq_nil {w : List Char} {e : ℤ} (h : ExponentText w e) :
    w.takeWhile Char.isDigit = [] := by
  obtain ⟨hc, _⟩ := h
  rcases hc with rfl | rfl <;> rfl

section Numbers

variable {s ds : List Char} {negative : Bool} (hs : SignText s negative) (hds : ds ∈ digits)
include hs hds

/-- The scanner finds the sign and the first digits of a numeral, and what follows them. -/
theorem scan_number {rest : List Char} (hrest : rest.takeWhile Char.isDigit = []) :
    startsNegative (s ++ (ds ++ rest)) = negative ∧
      (dropSign (s ++ (ds ++ rest))).takeWhile Char.isDigit = ds ∧
      (dropSign (s ++ (ds ++ rest))).dropWhile Char.isDigit = rest := by
  obtain ⟨hsign, hdigits⟩ := scan_sign hs hds rest
  rw [hdigits]
  exact ⟨hsign, scan_digits hds hrest⟩

theorem number?_integer : number? (s ++ ds) = some (.integer negative ds) := by
  have hnil : ([] : List Char).takeWhile Char.isDigit = [] := rfl
  obtain ⟨hsign, htake, hdrop⟩ := scan_number hs hds hnil
  rw [List.append_nil] at hsign htake hdrop
  simp [number?, hsign, htake, hdrop, isEmpty_of_mem_digits hds]

theorem number?_point (rest : List Char) :
    number? (s ++ (ds ++ '.' :: rest)) =
      (fraction? rest).map fun part => .real negative ds part.1 part.2 := by
  have hpoint : ('.' :: rest).takeWhile Char.isDigit = [] := rfl
  obtain ⟨hsign, htake, hdrop⟩ := scan_number hs hds hpoint
  simp [number?, hsign, htake, hdrop, isEmpty_of_mem_digits hds]

theorem number?_exponent {w : List Char} {e : ℤ} (hw : ExponentText w e) :
    number? (s ++ (ds ++ w)) = some (.real negative ds [] e) := by
  obtain ⟨hsign, htake, hdrop⟩ := scan_number hs hds hw.takeWhile_eq_nil
  have hexponent := exponent?_eq hw
  obtain ⟨hc, _⟩ := hw
  -- A numeral goes on with a power of ten only if it has no point.
  rcases hc with rfl | rfl <;>
    simp [number?, hsign, htake, hdrop, isEmpty_of_mem_digits hds, hexponent]

end Numbers

theorem fraction?_digits {fs : List Char} (hfs : fs ∈ digits) : fraction? fs = some (fs, 0) := by
  have hnil : ([] : List Char).takeWhile Char.isDigit = [] := rfl
  obtain ⟨htake, hdrop⟩ := scan_digits hfs hnil
  rw [List.append_nil] at htake hdrop
  simp [fraction?, htake, hdrop, isEmpty_of_mem_digits hfs]

theorem fraction?_exponent {fs w : List Char} {e : ℤ} (hfs : fs ∈ digits)
    (hw : ExponentText w e) : fraction? (fs ++ w) = some (fs, e) := by
  obtain ⟨htake, hdrop⟩ := scan_digits hfs hw.takeWhile_eq_nil
  have hexponent := exponent?_eq hw
  have hne : w.isEmpty = false := by
    obtain ⟨_, _⟩ := hw
    rfl
  simp [fraction?, htake, hdrop, isEmpty_of_mem_digits hfs, hne, hexponent]

/-- Digits behind the point count as digits before it, at a smaller power of ten. -/
theorem digitsValue_append_mul (ds fs : List Char) (e : ℤ) :
    (Numeric.digitsValue (ds ++ fs) * 10 ^ (e - fs.length) : ℚ) =
      (natural ds + natural fs / 10 ^ fs.length) * 10 ^ e := by
  rw [digitsValue_eq_natural, natural_append, zpow_sub₀ (by norm_num), zpow_natCast]
  push_cast
  field_simp

/-- The scanner finds the parts of a real, which denote its exact value. -/
theorem number?_real {w : List Char} {x : ℚ} (h : RealText w x) :
    ∃ whole fraction e, number? w = some (.real (startsNegative w) whole fraction e) ∧
      x = signed (startsNegative w)
        (Numeric.digitsValue (whole ++ fraction) * 10 ^ (e - fraction.length) : ℚ) := by
  cases h with
  | @point s ds fs negative hs hds hfs =>
    refine ⟨ds, fs, 0, ?_, ?_⟩
    · rw [number?_point hs hds, fraction?_digits hfs, (scan_sign hs hds _).1]
      rfl
    · rw [digitsValue_append_mul, zpow_zero, mul_one, (scan_sign hs hds _).1]
  | @pointExponent s ds fs w negative e hs hds hfs hw =>
    refine ⟨ds, fs, e, ?_, ?_⟩
    · rw [number?_point hs hds, fraction?_exponent hfs hw, (scan_sign hs hds _).1]
      rfl
    · rw [digitsValue_append_mul, (scan_sign hs hds _).1]
  | @exponent s ds w negative e hs hds hw =>
    refine ⟨ds, [], e, ?_, ?_⟩
    · rw [number?_exponent hs hds hw, (scan_sign hs hds _).1]
    · rw [List.append_nil, digitsValue_eq_natural, List.length_nil, Nat.cast_zero, sub_zero,
        (scan_sign hs hds _).1]

/-- The scanner takes the texts of numbers for nothing else. -/
theorem parse?_of_number {text : String} (h : text.toList ∈ integer ∨ text.toList ∈ real) :
    parse? text = number? text.toList := by
  have hstart : ∃ c cs, text.toList = c :: cs ∧ StartsAs .integer c := by
    rcases h with h | h
    · exact startsAs_of_dropSign (mem_integer.mp h).1
    · exact startsAs_of_dropSign (mem_real.mp h).1
  obtain ⟨c, cs, htext, hc⟩ := hstart
  -- A sign or a digit starts neither a truth value nor a quoted text.
  refine parse?_of_other ?_ ?_
  · intro hbool
    have hc' : StartsAs .boolean c := startsAs_of_cons_mem (htext ▸ hbool)
    cases hc'.eq_boolean hc
  · intro q cs' htext' hq
    rw [htext] at htext'
    cases htext'
    cases hq.eq_string hc

/-! ## Integers -/

theorem int64?_eq_some {n : ℤ} {k : Int64} : int64? n = some k ↔ k.toInt = n := by
  have hlow := k.minValue_le_toInt
  have hhigh := k.toInt_le
  rw [int64?]
  constructor
  · intro h
    split at h
    · rename_i hrange
      cases h
      exact Int64.toInt_ofInt_of_le hrange.1 (Int.lt_add_one_of_le hrange.2)
    · cases h
  · rintro rfl
    rw [if_pos ⟨hlow, hhigh⟩, Int64.ofInt_toInt]

theorem int64?_eq_none {n : ℤ} : int64? n = none ↔ ¬(-2 ^ 63 ≤ n ∧ n ≤ 2 ^ 63 - 1) := by
  have hlow : Int64.minValue.toInt = -2 ^ 63 := rfl
  have hhigh : Int64.maxValue.toInt = 2 ^ 63 - 1 := rfl
  rw [int64?, hlow, hhigh]
  split <;> simp_all

section Integers

variable {text : String} {n : ℤ} (h : IntegerText text.toList n)
include h

/-- The value of an integer is the number it denotes, if that has 64 bits. -/
theorem exists_integer_form :
    ∃ form, parse? text = some form ∧ form.value? = (int64? n).map .integer := by
  have hparse := parse?_of_number (Or.inl (exists_integerText.mp ⟨n, h⟩))
  generalize text.toList = w at *
  obtain ⟨hs, hds⟩ := h
  rename_i s ds negative
  refine ⟨.integer negative ds, hparse.trans (number?_integer hs hds), ?_⟩
  simp only [value?, digitsValue_eq_natural, signed]

theorem resolve_integer_eq_ok {k : Int64} : resolve text = .ok (.integer k) ↔ k.toInt = n := by
  obtain ⟨form, hform, hvalue⟩ := exists_integer_form h
  rw [resolve_eq_ok_iff hform, hvalue, ← int64?_eq_some]
  simp

theorem resolve_integer_eq_error :
    resolve text = .error (.malformedLiteral text) ↔ ¬(-2 ^ 63 ≤ n ∧ n ≤ 2 ^ 63 - 1) := by
  obtain ⟨form, hform, hvalue⟩ := exists_integer_form h
  rw [resolve_eq_malformed_iff hform, hvalue, Option.map_eq_none_iff, int64?_eq_none]

end Integers

/-- No text denotes two integers. -/
theorem IntegerText.unique {w : List Char} {n n' : ℤ} (h : IntegerText w n)
    (h' : IntegerText w n') : n = n' :=
  Option.some.inj ((signedDigits?_eq h).symm.trans (signedDigits?_eq h'))

/-- The decimal text of a number, with zeros before its digits. -/
theorem integerText_padded {s : List Char} {negative : Bool} (hs : SignText s negative)
    (zeros n : ℕ) :
    IntegerText (s ++ (List.replicate zeros '0' ++ Nat.toDigits 10 n)) (signed negative n) := by
  have hds : List.replicate zeros '0' ++ Nat.toDigits 10 n ∈ digits := by
    refine mem_digits.mpr ⟨?_, ?_⟩
    · simp [Nat.toDigits_ne_nil]
    · intro c hc
      rcases List.mem_append.mp hc with hc | hc
      · rw [List.eq_of_mem_replicate hc]
        rfl
      · exact Nat.isDigit_of_mem_toDigits (by decide) le_rfl hc
  have h := IntegerText.mk hs hds
  rwa [natural_append, natural_replicate_zero, natural_toDigits, Nat.zero_mul, Nat.zero_add] at h

/-- The sign of a number before its magnitude gives the number. -/
theorem signed_natAbs (n : ℤ) : signed (decide (n < 0)) (n.natAbs : ℤ) = n := by
  by_cases hn : n < 0
  · rw [decide_eq_true hn, signed, if_pos rfl]
    omega
  · rw [decide_eq_false hn, signed, if_neg Bool.false_ne_true]
    omega

/-- An integer text resolves to the one number it denotes if that number has 64 bits, and is
malformed otherwise, however many digits it has. Every 64-bit integer is the value of its decimal
texts, with any number of zeros before the digits and with or without a plus sign. -/
theorem integers_resolve_exactly :
    (∀ text : String, text.toList ∈ integer → ∃ n : ℤ,
      (∀ n', IntegerText text.toList n' ↔ n' = n) ∧
      ((∃ k : Int64, k.toInt = n ∧ resolve text = .ok (.integer k)) ↔
        -2 ^ 63 ≤ n ∧ n ≤ 2 ^ 63 - 1) ∧
      (resolve text = .error (.malformedLiteral text) ↔ ¬(-2 ^ 63 ≤ n ∧ n ≤ 2 ^ 63 - 1))) ∧
    ∀ (k : Int64) (s : List Char) (zeros : ℕ), SignText s (decide (k.toInt < 0)) →
      resolve (String.ofList (s ++ (List.replicate zeros '0' ++ Nat.toDigits 10 k.toInt.natAbs))) =
        .ok (.integer k) := by
  constructor
  · intro text htext
    obtain ⟨n, hn⟩ := exists_integerText.mpr htext
    refine ⟨n, ?_, ?_, resolve_integer_eq_error hn⟩
    · intro n'
      exact ⟨fun h => h.unique hn, fun h => h ▸ hn⟩
    · constructor
      · rintro ⟨k, rfl, _⟩
        exact ⟨k.minValue_le_toInt, k.toInt_le⟩
      · intro hrange
        obtain ⟨k, hk⟩ := Option.ne_none_iff_exists'.mp (mt int64?_eq_none.mp (not_not.mpr hrange))
        have hk' := int64?_eq_some.mp hk
        exact ⟨k, hk', (resolve_integer_eq_ok hn).mpr hk'⟩
  · intro k s zeros hs
    have h := integerText_padded hs zeros k.toInt.natAbs
    rw [signed_natAbs] at h
    exact (resolve_integer_eq_ok (by rwa [String.toList_ofList])).mpr rfl

/-- One past the largest integer is malformed; the largest one may have a sign and zeros. -/
theorem integers_resolve_exactly_largest :
    "9223372036854775808".toList ∈ integer ∧
      SignText ['+'] (decide (Int64.maxValue.toInt < 0)) ∧
      resolve "9223372036854775808" = .error (.malformedLiteral "9223372036854775808") ∧
      resolve "+009223372036854775807" = .ok (.integer Int64.maxValue) := by
  have htext : IntegerText "9223372036854775808".toList (2 ^ 63) :=
    .mk .absent (mem_digits.mpr ⟨by decide, List.all_eq_true.mp rfl⟩)
  have hmem := exists_integerText.mp ⟨_, htext⟩
  have hsign : SignText ['+'] (decide (Int64.maxValue.toInt < 0)) := .plus
  obtain ⟨n, hn, _, herror⟩ := integers_resolve_exactly.1 _ hmem
  have hpadded := integers_resolve_exactly.2 Int64.maxValue ['+'] 2 hsign
  refine ⟨hmem, hsign, herror.mpr ?_, ?_⟩
  · rw [← (hn _).mp htext]
    decide
  · rw [← hpadded]
    rfl

/-! ## Reals -/

theorem startsNegative_iff {w : List Char} : startsNegative w = true ↔ w.head? = some '-' := by
  unfold startsNegative
  split
  · simp
  · rename_i hne
    cases w with
    | nil => simp
    | cons c cs =>
      simp only [Bool.false_eq_true, List.head?_cons, Option.some.injEq, false_iff]
      rintro rfl
      exact hne cs rfl

theorem abs_signed {negative : Bool} {x : ℚ} (hx : 0 ≤ x) : |signed negative x| = x := by
  unfold signed
  split
  · rw [abs_neg, abs_of_nonneg hx]
  · exact abs_of_nonneg hx

/-- No text denotes two reals. -/
theorem RealText.unique {w : List Char} {x x' : ℚ} (h : RealText w x) (h' : RealText w x') :
    x = x' := by
  obtain ⟨whole, fraction, e, hform, rfl⟩ := number?_real h
  obtain ⟨whole', fraction', e', hform', rfl⟩ := number?_real h'
  rw [hform] at hform'
  cases hform'
  rfl

/-- The value of a real is the number it denotes, rounded, if that is finite. -/
theorem exists_real_form {text : String} {x : ℚ} (h : RealText text.toList x) :
    ∃ form b, parse? text = some form ∧
      form.value? = (if b.isFinite = true then some (.real b) else none) ∧
      Numeric.Binary64.Rounds (startsNegative text.toList) |x| b := by
  have hparse := parse?_of_number (Or.inr (exists_realText.mp ⟨x, h⟩))
  obtain ⟨whole, fraction, e, hform, rfl⟩ := number?_real h
  rw [abs_signed (by positivity)]
  exact ⟨_, _, hparse.trans hform, rfl, Numeric.Binary64.rounds_ofDecimal _ _ _⟩

/-- A real text denotes one exact number, of any length and at any power of ten. It is malformed if
the number is past the doubles, and else it resolves to a finite double with the sign that stands
before it, no other finite double being nearer in magnitude, and with an even significand if another
one is as near. -/
theorem reals_resolve_rounded {text : String} (h : text.toList ∈ real) :
    ∃ x : ℚ, (∀ x', RealText text.toList x' ↔ x' = x) ∧
      (resolve text = .error (.malformedLiteral text) ↔ 2 ^ 1024 - 2 ^ 970 ≤ |x|) ∧
      (|x| < 2 ^ 1024 - 2 ^ 970 → ∃ b : Numeric.Binary64,
        resolve text = .ok (.real b) ∧
          b.isFinite = true ∧
          (b.isNegative = true ↔ text.toList.head? = some '-') ∧
          (∀ y : Numeric.Binary64, y.isFinite = true →
            |b.exact - abs x| ≤ |y.exact - abs x|) ∧
          ∀ y : Numeric.Binary64, y.isFinite = true → y.exact ≠ b.exact →
            |y.exact - abs x| = |b.exact - abs x| → b.significand % 2 = 0) := by
  obtain ⟨x, hx⟩ := exists_realText.mpr h
  obtain ⟨form, b, hform, hvalue, hrounds⟩ := exists_real_form hx
  refine ⟨x, fun x' => ⟨fun h' => h'.unique hx, fun h' => h' ▸ hx⟩, ?_, ?_⟩
  · rw [resolve_eq_malformed_iff hform, hvalue, ← not_lt, ← hrounds.isFinite]
    split <;> simp_all
  · intro hlt
    have hfinite : b.isFinite = true := hrounds.isFinite.mpr hlt
    refine ⟨b, ?_, hfinite, ?_, hrounds.nearest hfinite, hrounds.even hfinite⟩
    · rw [resolve_eq_ok_iff hform, hvalue, if_pos hfinite]
    · rw [hrounds.isNegative, startsNegative_iff]

/-- A real far below the least double keeps its sign. -/
theorem reals_resolve_rounded_underflow :
    "-1.5e-400".toList ∈ real ∧
      ∃ b : Numeric.Binary64, resolve "-1.5e-400" = .ok (.real b) ∧ b.isFinite = true ∧
        b.isNegative = true := by
  have hdigits {c : Char} {cs : List Char} (h : (c :: cs).all Char.isDigit = true) :
      c :: cs ∈ digits :=
    mem_digits.mpr ⟨List.cons_ne_nil c cs, List.all_eq_true.mp h⟩
  have hone : ['1'] ∈ digits := hdigits rfl
  have hfive : ['5'] ∈ digits := hdigits rfl
  have hpower : ['4', '0', '0'] ∈ digits := hdigits rfl
  have htext := RealText.pointExponent .minus hone hfive (.mk (Or.inl rfl) (.mk .minus hpower))
  have hmem : "-1.5e-400".toList ∈ real := exists_realText.mp ⟨_, htext⟩
  obtain ⟨x, hx, _, hresolve⟩ := reals_resolve_rounded hmem
  -- The number itself is never computed: it is at most its digits, and these are below two.
  have hlt : |x| < 2 ^ 1024 - 2 ^ 970 := by
    have hmantissa : (natural ['1'] : ℚ) + natural ['5'] / 10 ^ ['5'].length = 3 / 2 := by
      rw [show natural ['1'] = 1 from rfl, show natural ['5'] = 5 from rfl]
      norm_num
    have hscale : (10 : ℚ) ^ (signed true (natural ['4', '0', '0']) : ℤ) ≤ 1 :=
      zpow_le_one_of_nonpos₀ (by norm_num) (by decide)
    have hlimit : (2 : ℚ) ≤ 2 ^ 1024 - 2 ^ 970 := by
      rw [show (2 : ℚ) ^ 1024 = 2 ^ 54 * 2 ^ 970 from pow_add 2 54 970, ← sub_one_mul]
      have hfactor : (2 : ℚ) ≤ 2 ^ 54 - 1 := by norm_num
      exact hfactor.trans (le_mul_of_one_le_right (by norm_num) (one_le_pow₀ one_le_two))
    rw [← (hx _).mp htext, abs_signed (by positivity), hmantissa]
    calc
      (3 / 2 : ℚ) * 10 ^ signed true (natural ['4', '0', '0'] : ℤ)
          ≤ 3 / 2 := mul_le_of_le_one_right (by norm_num) hscale
      _ < 2 := by norm_num
      _ ≤ 2 ^ 1024 - 2 ^ 970 := hlimit
  obtain ⟨b, hb, hfinite, hsign, _⟩ := hresolve hlt
  exact ⟨hmem, b, hb, hfinite, hsign.mpr rfl⟩

end Grammar
end PascalTree
