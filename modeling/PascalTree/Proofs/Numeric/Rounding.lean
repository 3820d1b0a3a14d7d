import Mathlib.Algebra.Order.Field.Basic
import Mathlib.Algebra.Order.Field.Power
import Mathlib.Data.Rat.Cast.Order
import Mathlib.Tactic.FieldSimp
import Mathlib.Tactic.Linarith
import Mathlib.Tactic.NormNum
import Mathlib.Tactic.Positivity
import Mathlib.Tactic.Ring
import PascalTree.Numeric.Decimal

/-!
# Rounding — the double nearest to an exact number

A pattern stands for a rational number. Rounding takes a quotient to a significand in the unit of
its own magnitude and packs unit and significand into one word. That this gives the pattern nearest
to the quotient has three parts:

* `NearestEven`: a quotient of naturals is rounded to the nearest one, a tie to the even one;
* `Binary64.abs_sub_le_of_nearestEven`: patterns with a smaller unit are farther away than the
  least significand of the quotient's own unit, and all others are multiples of that unit;
* `Binary64.significand_ofWord`, `Binary64.lt_infinityWord_iff`: the word is read back as it was
  packed, also when rounding reaches the next power of two, unless it is past the finite ones.

`Binary64.Rounds` says what it is to be rounded correctly, with sign and overflow, and
`Binary64.rounds_ofDecimal` that decimals are, for exponents of any size.
-/

namespace PascalTree
namespace Numeric

/-! ## The nearest natural number -/

/-- The number `m` is nearest to `t`, and even if `t` lies half-way between it and another. -/
structure NearestEven (t : ℚ) (m : ℕ) : Prop where
  near : |(m : ℚ) - t| ≤ 1 / 2
  even : |(m : ℚ) - t| = 1 / 2 → m % 2 = 0

namespace NearestEven

variable {t : ℚ} {m : ℕ}

/-- A fraction of at most one half is cut off. -/
theorem down {q : ℕ} {f : ℚ} (hf : 0 ≤ f) (hle : f ≤ 1 / 2) (heven : f = 1 / 2 → q % 2 = 0) :
    NearestEven (q + f) q := by
  have hdistance : |(q : ℚ) - (q + f)| = f := by
    rw [sub_add_cancel_left, abs_neg, abs_of_nonneg hf]
  constructor
  · rwa [hdistance]
  · rwa [hdistance]

/-- A fraction of at least one half is filled up. -/
theorem up {q : ℕ} {f : ℚ} (hf : f ≤ 1) (hle : 1 / 2 ≤ f) (heven : f = 1 / 2 → (q + 1) % 2 = 0) :
    NearestEven (q + f) (q + 1) := by
  have hdistance : |((q + 1 : ℕ) : ℚ) - (q + f)| = 1 - f := by
    rw [Nat.cast_add_one, add_sub_add_left_eq_sub, abs_of_nonneg (by linarith)]
  constructor
  · rw [hdistance]
    linarith
  · rw [hdistance]
    intro h
    exact heven (by linarith)

/-- Two different numbers are at least one apart. -/
theorem one_le_abs_sub {k : ℕ} (hk : k ≠ m) : 1 ≤ |(k : ℚ) - m| := by
  have h : (1 : ℤ) ≤ |(k : ℤ) - m| := Int.one_le_abs (by omega)
  exact_mod_cast h

theorem half_le (h : NearestEven t m) {k : ℕ} (hk : k ≠ m) : 1 / 2 ≤ |(k : ℚ) - t| := by
  have hsum : |(k : ℚ) - m| ≤ |(k : ℚ) - t| + |(m : ℚ) - t| := by
    rw [abs_sub_comm (m : ℚ) t]
    exact abs_sub_le _ _ _
  linarith [one_le_abs_sub hk, h.near]

theorem abs_sub_le_abs_sub (h : NearestEven t m) (k : ℕ) : |(m : ℚ) - t| ≤ |(k : ℚ) - t| := by
  by_cases hk : k = m
  · rw [hk]
  · exact h.near.trans (h.half_le hk)

theorem even_of_eq (h : NearestEven t m) {k : ℕ} (hk : k ≠ m)
    (heq : |(k : ℚ) - t| = |(m : ℚ) - t|) : m % 2 = 0 :=
  h.even (le_antisymm h.near (heq ▸ h.half_le hk))

theorem le_of_lt (h : NearestEven t m) {n : ℕ} (ht : t < n) : m ≤ n := by
  have hlt : (m : ℚ) < n + 1 := by linarith [(abs_le.mp h.near).2]
  exact Nat.lt_succ_iff.mp (by exact_mod_cast hlt)

theorem le_of_le (h : NearestEven t m) {n : ℕ} (ht : (n : ℚ) ≤ t) : n ≤ m := by
  have hlt : (n : ℚ) < m + 1 := by linarith [(abs_le.mp h.near).1]
  exact Nat.lt_succ_iff.mp (by exact_mod_cast hlt)

/-- An even number is reached from half a step below it on. -/
theorem lt_iff_of_even (h : NearestEven t m) {n : ℕ} (hn : n % 2 = 0) :
    m < n ↔ t < n - 1 / 2 := by
  have hnear := abs_le.mp h.near
  constructor
  · intro hlt
    have hle : (m : ℚ) + 1 ≤ n := by exact_mod_cast hlt
    refine lt_of_le_of_ne (by linarith) ?_
    -- Half a step below `n` the number before it is as near, but odd.
    intro heq
    have hm : (m : ℚ) + 1 = n := le_antisymm hle (by linarith)
    have htie : |(m : ℚ) - t| = 1 / 2 := by
      rw [heq, ← hm, abs_of_nonpos (by linarith)]
      ring
    have heven : m % 2 = 0 := h.even htie
    have hm' : m + 1 = n := by exact_mod_cast hm
    omega
  · intro hlt
    have hlt' : (m : ℚ) < n := by linarith
    exact_mod_cast hlt'

end NearestEven

theorem nearestEven_roundHalfEven (a : ℕ) {d : ℕ} (hd : 0 < d) :
    NearestEven (a / d) (roundHalfEven a d) := by
  have hpos : (0 : ℚ) < d := by exact_mod_cast hd
  have hlt : ((a % d : ℕ) : ℚ) < d := by exact_mod_cast Nat.mod_lt a hd
  -- The division cuts off `r / d`, which is compared with one half.
  have hsplit : (a : ℚ) / d = ((a / d : ℕ) : ℚ) + ((a % d : ℕ) : ℚ) / d := by
    have h : (d : ℚ) * ((a / d : ℕ) : ℚ) + ((a % d : ℕ) : ℚ) = a := by
      exact_mod_cast Nat.div_add_mod a d
    rw [← h]
    field_simp
  have hnonneg : 0 ≤ ((a % d : ℕ) : ℚ) / d := by positivity
  have hone : ((a % d : ℕ) : ℚ) / d ≤ 1 := (div_le_one hpos).mpr hlt.le
  have hhalf : ((a % d : ℕ) : ℚ) / d = 1 / 2 ↔ 2 * (a % d) = d := by
    rw [div_eq_div_iff hpos.ne' two_ne_zero, one_mul, mul_comm]
    exact_mod_cast Iff.rfl
  have hbelow : ((a % d : ℕ) : ℚ) / d ≤ 1 / 2 ↔ 2 * (a % d) ≤ d := by
    rw [div_le_div_iff₀ hpos two_pos, one_mul, mul_comm]
    exact_mod_cast Iff.rfl
  have habove : 1 / 2 ≤ ((a % d : ℕ) : ℚ) / d ↔ d ≤ 2 * (a % d) := by
    rw [div_le_div_iff₀ two_pos hpos, one_mul, mul_comm]
    exact_mod_cast Iff.rfl
  rw [hsplit]
  simp only [roundHalfEven]
  split
  · exact .down hnonneg (hbelow.mpr (by omega)) (fun h => absurd (hhalf.mp h) (by omega))
  · split
    · exact .up hone (habove.mpr (by omega)) (fun h => absurd (hhalf.mp h) (by omega))
    · split
      · exact .down hnonneg (hbelow.mpr (by omega)) (fun _ => ‹_›)
      · exact .up hone (habove.mpr (by omega)) (fun _ => by omega)

namespace Binary64

/-! ## Patterns and their exact values -/

/-- The magnitude that a finite pattern stands for. -/
def exact (x : Binary64) : ℚ :=
  if x.biasedExponent = 0 then x.fraction / 2 ^ 52 * 2 ^ (-1022 : ℤ)
  else (1 + x.fraction / 2 ^ 52) * 2 ^ ((x.biasedExponent : ℤ) - 1023)

/-- One unit of `magnitude`. -/
def unit : ℚ := 2 ^ (-1074 : ℤ)

theorem unit_pos : 0 < unit := by
  unfold unit
  positivity

theorem two_zpow_eq_unit (n : ℕ) : (2 : ℚ) ^ ((n : ℤ) - 1074) = 2 ^ n * unit := by
  rw [unit, ← zpow_natCast, ← zpow_add₀ two_ne_zero, ← sub_eq_add_neg]

theorem cast_two_pow_mul_unit (n : ℕ) :
    ((Nat.pow 2 n : ℕ) : ℚ) * unit = 2 ^ ((n : ℤ) - 1074) := by
  rw [two_zpow_eq_unit, Nat.pow_eq, Nat.cast_pow, Nat.cast_ofNat]

theorem exact_eq (x : Binary64) : x.exact = x.magnitude * unit := by
  rw [exact, magnitude, significand, unitExponent, Nat.pow_eq]
  split
  · rename_i h
    have hshift : (2 : ℚ) ^ (-1022 : ℤ) = 2 ^ 52 * unit := two_zpow_eq_unit 52
    rw [h, hshift]
    push_cast
    ring
  · rename_i h
    have hexponent : (x.biasedExponent : ℤ) - 1023 = (52 + (x.biasedExponent - 1) : ℕ) - 1074 := by
      omega
    rw [hexponent, two_zpow_eq_unit, pow_add]
    push_cast [Nat.pow_eq]
    ring

theorem word_ofWord (negative : Bool) (w : ℕ) :
    (ofWord negative w).word = (if negative then 2 ^ 63 else 0) + min w infinityWord := by
  have hlt : (if negative then 2 ^ 63 else 0) + min w infinityWord < 2 ^ 64 := by
    have hmin : min w infinityWord ≤ 2047 * 2 ^ 52 := Nat.min_le_right _ _
    split <;> omega
  rw [ofWord, word, UInt64.toNat_ofNat']
  exact Nat.mod_eq_of_lt hlt

theorem isNegative_ofWord (negative : Bool) (w : ℕ) : (ofWord negative w).isNegative = negative := by
  have hmin : min w infinityWord ≤ 2047 * 2 ^ 52 := Nat.min_le_right _ _
  rw [isNegative, word_ofWord]
  cases negative with
  | false => simp; omega
  | true => simp

theorem biasedExponent_ofWord (negative : Bool) (w : ℕ) :
    (ofWord negative w).biasedExponent = min w infinityWord / 2 ^ 52 := by
  have hmin : min w infinityWord ≤ 2047 * 2 ^ 52 := Nat.min_le_right _ _
  rw [biasedExponent, word_ofWord, Nat.pow_eq, Nat.pow_eq]
  split <;> omega

theorem fraction_ofWord (negative : Bool) (w : ℕ) :
    (ofWord negative w).fraction = min w infinityWord % 2 ^ 52 := by
  rw [fraction, word_ofWord, Nat.pow_eq]
  split <;> omega

/-- The words below that of infinity are the finite ones. -/
theorem isFinite_ofWord (negative : Bool) (w : ℕ) :
    (ofWord negative w).isFinite = true ↔ w < infinityWord := by
  have hword : infinityWord = 2047 * 2 ^ 52 := rfl
  rw [isFinite, biasedExponent_ofWord, bne_iff_ne]
  omega

section Significand

variable {p m : ℕ} (hm : m ≤ 2 ^ 53) (hp : p = 0 ∨ 2 ^ 52 ≤ m)
  (hw : p * 2 ^ 52 + m < infinityWord) (negative : Bool)
include hm hp hw

/-- A significand added to its unit in one word is read back as it was, or, when it is `2 ^ 53`,
as half of it in twice the unit. -/
theorem significand_ofWord :
    (ofWord negative (p * 2 ^ 52 + m)).significand = m ∧
        (ofWord negative (p * 2 ^ 52 + m)).unitExponent = p ∨
      m = 2 ^ 53 ∧ (ofWord negative (p * 2 ^ 52 + m)).significand = 2 ^ 52 ∧
        (ofWord negative (p * 2 ^ 52 + m)).unitExponent = p + 1 := by
  rw [significand, unitExponent, biasedExponent_ofWord, fraction_ofWord, Nat.min_eq_left hw.le,
    Nat.pow_eq]
  -- The leading bit of `m` runs over into the exponent, which is that of the unit plus one.
  split <;> omega

theorem magnitude_ofWord :
    (ofWord negative (p * 2 ^ 52 + m)).magnitude = m * 2 ^ p := by
  rw [magnitude, Nat.pow_eq]
  rcases significand_ofWord hm hp hw negative with ⟨hs, hu⟩ | ⟨rfl, hs, hu⟩
  · rw [hs, hu]
  · rw [hs, hu]
    ring

theorem significand_ofWord_mod_two :
    (ofWord negative (p * 2 ^ 52 + m)).significand % 2 = m % 2 := by
  rcases significand_ofWord hm hp hw negative with ⟨hs, _⟩ | ⟨rfl, hs, _⟩
  · rw [hs]
  · rw [hs]
    rfl

end Significand

theorem significand_lt (x : Binary64) : x.significand < 2 ^ 53 := by
  have hfraction : x.fraction < 2 ^ 52 := Nat.mod_lt _ (by decide)
  rw [significand, Nat.pow_eq]
  split <;> omega

/-- Every magnitude is a multiple of a given unit, or below the significands of that unit. -/
theorem magnitude_eq_or_lt (x : Binary64) (p : ℕ) :
    (∃ k, x.magnitude = k * 2 ^ p) ∨ 0 < p ∧ x.magnitude < 2 ^ 52 * 2 ^ p := by
  rw [magnitude, Nat.pow_eq]
  rcases Nat.lt_or_ge x.unitExponent p with hlt | hge
  · refine Or.inr ⟨by omega, ?_⟩
    calc
      x.significand * 2 ^ x.unitExponent
          < 2 ^ 53 * 2 ^ x.unitExponent :=
            Nat.mul_lt_mul_of_pos_right x.significand_lt (Nat.two_pow_pos _)
      _ = 2 ^ 52 * 2 ^ (x.unitExponent + 1) := by ring
      _ ≤ 2 ^ 52 * 2 ^ p := Nat.mul_le_mul_left _ (Nat.pow_le_pow_right two_pos hlt)
  · refine Or.inl ⟨x.significand * 2 ^ (x.unitExponent - p), ?_⟩
    rw [Nat.mul_assoc, ← Nat.pow_add, Nat.sub_add_cancel hge]

/-! ## Rounding to a pattern -/

/-- The unit in which a quotient is rounded leaves fifty-three bits, or fewer if it is the least. -/
theorem roundingUnit_spec (q : ℕ) :
    q < 2 ^ 53 * 2 ^ roundingUnit q ∧ (roundingUnit q = 0 ∨ 2 ^ 52 * 2 ^ roundingUnit q ≤ q) := by
  rw [roundingUnit, Nat.pow_eq]
  split
  · rename_i h
    exact ⟨by omega, Or.inl rfl⟩
  · rename_i h
    have hne : q ≠ 0 := by omega
    have hlog : 53 ≤ q.log2 := (Nat.le_log2 hne).mpr (by omega)
    rw [← Nat.pow_add, ← Nat.pow_add]
    constructor
    · rw [show 53 + (q.log2 - 52) = q.log2 + 1 by omega]
      exact Nat.lt_log2_self
    · right
      rw [show 52 + (q.log2 - 52) = q.log2 by omega]
      exact Nat.log2_self_le hne

/-- A quotient whose significand `m` is nearest to it in the unit `2 ^ p` is nearest to `m * 2 ^ p`
among all magnitudes: those below the unit's significands are farther away than the least one of
these. -/
theorem abs_sub_le_of_nearestEven {v : ℚ} {p m : ℕ} (hm : NearestEven (v / 2 ^ p) m)
    (hp : p = 0 ∨ (2 : ℚ) ^ 52 * 2 ^ p ≤ v) (y : Binary64) :
    |(m : ℚ) * 2 ^ p - v| ≤ |(y.magnitude : ℚ) - v| ∧
      ((y.magnitude : ℚ) ≠ m * 2 ^ p → |(y.magnitude : ℚ) - v| = |(m : ℚ) * 2 ^ p - v| →
        m % 2 = 0) := by
  have hpos : (0 : ℚ) < 2 ^ p := by positivity
  have hscale (k : ℕ) : |(k : ℚ) * 2 ^ p - v| = |(k : ℚ) - v / 2 ^ p| * 2 ^ p := by
    rw [← abs_of_pos hpos, ← abs_mul, abs_of_pos hpos, sub_mul, div_mul_cancel₀ _ hpos.ne']
  rcases magnitude_eq_or_lt y p with ⟨k, hk⟩ | ⟨hpos', hlt⟩
  · -- On the grid of the unit the question is that of the nearest number.
    have hy : (y.magnitude : ℚ) = k * 2 ^ p := by exact_mod_cast hk
    rw [hy, hscale, hscale]
    refine ⟨mul_le_mul_of_nonneg_right (hm.abs_sub_le_abs_sub k) hpos.le, ?_⟩
    intro hne heq
    refine hm.even_of_eq ?_ (mul_right_cancel₀ hpos.ne' heq)
    rintro rfl
    exact hne rfl
  · have hle : (2 : ℚ) ^ 52 * 2 ^ p ≤ v := hp.resolve_left (by omega)
    have hlt' : (y.magnitude : ℚ) < 2 ^ 52 * 2 ^ p := by exact_mod_cast hlt
    have hleast : |(m : ℚ) * 2 ^ p - v| ≤ v - 2 ^ 52 * 2 ^ p := by
      have h : |(m : ℚ) * 2 ^ p - v| ≤ |((2 ^ 52 : ℕ) : ℚ) * 2 ^ p - v| := by
        rw [hscale, hscale]
        exact mul_le_mul_of_nonneg_right (hm.abs_sub_le_abs_sub _) hpos.le
      rwa [Nat.cast_pow, Nat.cast_ofNat, abs_of_nonpos (sub_nonpos.mpr hle), neg_sub] at h
    have hfar : |(m : ℚ) * 2 ^ p - v| < |(y.magnitude : ℚ) - v| := by
      rw [abs_of_neg (by linarith : (y.magnitude : ℚ) - v < 0)]
      linarith
    exact ⟨hfar.le, fun _ heq => absurd heq hfar.ne'⟩

/-- The magnitude `v` is rounded to `x`: the pattern has the given sign, it is finite up to half a
unit past the largest magnitude, and then no other finite magnitude is nearer, and the significand
is even if another one is as near. -/
structure Rounds (negative : Bool) (v : ℚ) (x : Binary64) : Prop where
  isNegative : x.isNegative = negative
  isFinite : x.isFinite = true ↔ v < 2 ^ 1024 - 2 ^ 970
  nearest : x.isFinite = true → ∀ y : Binary64, y.isFinite = true → |x.exact - v| ≤ |y.exact - v|
  even : x.isFinite = true → ∀ y : Binary64, y.isFinite = true → y.exact ≠ x.exact →
    |y.exact - v| = |x.exact - v| → x.significand % 2 = 0

/-- The bound of the finite magnitudes, in units. -/
theorem limit_eq : (2 : ℚ) ^ 1024 - 2 ^ 970 = (2 ^ 53 - 1 / 2) * 2 ^ 2045 * unit := by
  have htop : (2 : ℚ) ^ 1024 = 2 ^ 53 * 2 ^ 2045 * unit := by
    rw [← pow_add]
    exact two_zpow_eq_unit 2098
  have hhalf : (2 : ℚ) ^ 970 = 1 / 2 * 2 ^ 2045 * unit := by
    rw [pow_succ' 2 2044, ← mul_assoc, one_div_mul_cancel two_ne_zero, one_mul]
    exact two_zpow_eq_unit 2044
  rw [htop, hhalf, ← sub_mul, ← sub_mul]

theorem abs_exact_sub (x : Binary64) (v : ℚ) :
    |x.exact - v * unit| = |(x.magnitude : ℚ) - v| * unit := by
  rw [exact_eq, ← sub_mul, abs_mul, abs_of_pos unit_pos]

section Significand

variable {v : ℚ} {p m : ℕ} (hm : NearestEven (v / 2 ^ p) m) (hlt : v < 2 ^ 53 * 2 ^ p)
  (hp : p = 0 ∨ (2 : ℚ) ^ 52 * 2 ^ p ≤ v)
include hm

include hlt in
theorem significand_le : m ≤ 2 ^ 53 := by
  refine hm.le_of_lt ?_
  rw [div_lt_iff₀ (by positivity)]
  exact_mod_cast hlt

include hp in
theorem le_significand : p = 0 ∨ 2 ^ 52 ≤ m := by
  refine hp.imp_right fun h => hm.le_of_le ?_
  rw [le_div_iff₀ (by positivity)]
  exact_mod_cast h

include hlt hp

/-- Unit and significand make the word of a finite pattern exactly below half a unit past the
largest magnitude. -/
theorem lt_infinityWord_iff :
    p * 2 ^ 52 + m < infinityWord ↔ v < (2 ^ 53 - 1 / 2) * 2 ^ 2045 := by
  have hinfinity : infinityWord = 2047 * 2 ^ 52 := rfl
  have hle : m ≤ 2 ^ 53 := significand_le hm hlt
  have hge : p = 0 ∨ 2 ^ 52 ≤ m := le_significand hm hp
  rcases Nat.lt_trichotomy p 2045 with hsmall | rfl | hlarge
  · have hpow : (2 : ℚ) ^ 53 * 2 ^ p ≤ 2 ^ 52 * 2 ^ 2045 := by
      rw [← pow_add, ← pow_add]
      exact pow_le_pow_right₀ one_le_two (by omega)
    have hbound : (2 : ℚ) ^ 52 * 2 ^ 2045 ≤ (2 ^ 53 - 1 / 2) * 2 ^ 2045 :=
      mul_le_mul_of_nonneg_right (by norm_num) (by positivity)
    exact iff_of_true (by omega) (hlt.trans_le (hpow.trans hbound))
  · -- In the largest unit the significand `2 ^ 53` is even, and the tie below it goes there.
    have hword : 2045 * 2 ^ 52 + m < infinityWord ↔ m < 2 ^ 53 := by omega
    rw [hword, ← div_lt_iff₀ (by positivity), hm.lt_iff_of_even (by decide)]
    norm_num
  · have hpow : (2 : ℚ) ^ 53 * 2 ^ 2045 ≤ 2 ^ 52 * 2 ^ p := by
      rw [← pow_add, ← pow_add]
      exact pow_le_pow_right₀ one_le_two (by omega)
    have hbound : (2 ^ 53 - 1 / 2) * 2 ^ 2045 ≤ (2 : ℚ) ^ 53 * 2 ^ 2045 :=
      mul_le_mul_of_nonneg_right (by norm_num) (by positivity)
    have hv : (2 : ℚ) ^ 52 * 2 ^ p ≤ v := hp.resolve_left (by omega)
    exact iff_of_false (by omega) (not_lt.mpr (hbound.trans (hpow.trans hv)))

/-- What is nearest in its unit is nearest among all patterns, once packed into one. -/
theorem rounds_ofWord (negative : Bool) :
    Rounds negative (v * unit) (ofWord negative (p * 2 ^ 52 + m)) := by
  have hle : m ≤ 2 ^ 53 := significand_le hm hlt
  have hge : p = 0 ∨ 2 ^ 52 ≤ m := le_significand hm hp
  refine ⟨isNegative_ofWord _ _, ?_, ?_, ?_⟩
  · rw [isFinite_ofWord, lt_infinityWord_iff hm hlt hp, limit_eq, mul_lt_mul_iff_left₀ unit_pos]
  · intro hfinite y _
    have hw := (isFinite_ofWord _ _).mp hfinite
    rw [abs_exact_sub, abs_exact_sub, magnitude_ofWord hle hge hw]
    push_cast
    exact mul_le_mul_of_nonneg_right (abs_sub_le_of_nearestEven hm hp y).1 unit_pos.le
  · intro hfinite y _ hne heq
    have hw := (isFinite_ofWord _ _).mp hfinite
    rw [abs_exact_sub, abs_exact_sub, magnitude_ofWord hle hge hw] at heq
    rw [exact_eq, exact_eq, magnitude_ofWord hle hge hw] at hne
    push_cast at heq hne
    rw [significand_ofWord_mod_two hle hge hw]
    refine (abs_sub_le_of_nearestEven hm hp y).2 ?_ (mul_right_cancel₀ unit_pos.ne' heq)
    rintro h
    exact hne (by rw [h])

end Significand

theorem cast_le_div_iff {a d n : ℕ} (hd : 0 < d) : (n : ℚ) ≤ (a : ℚ) / d ↔ n ≤ a / d := by
  have hpos : (0 : ℚ) < d := by exact_mod_cast hd
  rw [le_div_iff₀ hpos, Nat.le_div_iff_mul_le hd]
  exact_mod_cast Iff.rfl

/-- A quotient of units is rounded as a whole, whatever its size. -/
theorem rounds_roundQuotient (negative : Bool) (a : ℕ) {d : ℕ} (hd : 0 < d) :
    Rounds negative ((a : ℚ) / d * unit) (roundQuotient negative a d) := by
  obtain ⟨hlt, hge⟩ := roundingUnit_spec (a / d)
  simp only [roundQuotient, Nat.pow_eq]
  generalize roundingUnit (a / d) = p at *
  refine rounds_ofWord ?_ ?_ ?_ negative
  · have h := nearestEven_roundHalfEven a (Nat.mul_pos hd (Nat.two_pow_pos p))
    rwa [Nat.cast_mul, Nat.cast_pow, Nat.cast_ofNat, ← div_div] at h
  · have h := not_le.mp (mt (cast_le_div_iff hd).mp (not_le.mpr hlt))
    exact_mod_cast h
  · refine hge.imp_right fun h => ?_
    exact_mod_cast (cast_le_div_iff hd).mpr h

/-- Below half a unit everything is rounded to zero. -/
theorem rounds_zero (negative : Bool) {v : ℚ} (hnonneg : 0 ≤ v) (hlt : v < 1 / 2 * unit) :
    Rounds negative v (zero negative) := by
  have hunits : v / unit < 1 / 2 := (div_lt_iff₀ unit_pos).mpr hlt
  have hm : NearestEven (v / unit / 2 ^ 0) 0 := by
    have h := NearestEven.down (q := 0) (div_nonneg hnonneg unit_pos.le) hunits.le fun _ => rfl
    rwa [Nat.cast_zero, zero_add, ← div_one (v / unit), ← pow_zero (2 : ℚ)] at h
  have hsmall : v / unit < 2 ^ 53 * 2 ^ 0 := by
    norm_num
    linarith
  have h := rounds_ofWord hm hsmall (Or.inl rfl) negative
  rwa [div_mul_cancel₀ v unit_pos.ne'] at h

theorem rounds_infinity (negative : Bool) {v : ℚ} (hle : 2 ^ 1024 - 2 ^ 970 ≤ v) :
    Rounds negative v (infinity negative) := by
  have hfinite : ¬(infinity negative).isFinite = true := by
    rw [infinity, isFinite_ofWord]
    exact lt_irrefl _
  exact ⟨isNegative_ofWord _ _, iff_of_false hfinite (not_lt.mpr hle),
    fun h => absurd h hfinite, fun h => absurd h hfinite⟩

/-! ## Decimals -/

/-- A quotient, taken to units first. -/
theorem rounds_quotient (negative : Bool) {a d n : ℕ} {v : ℚ} (hd : 0 < d) (hn : n = 1074)
    (hv : v = a / d) : Rounds negative v (roundQuotient negative (a * Nat.pow 2 n) d) := by
  have hunit : ((Nat.pow 2 n : ℕ) : ℚ) * unit = 1 := by
    rw [cast_two_pow_mul_unit, sub_eq_zero.mpr (by exact_mod_cast hn), zpow_zero]
  have h := rounds_roundQuotient negative (a * Nat.pow 2 n) hd
  rwa [div_mul_eq_mul_div, Nat.cast_mul, mul_assoc, hunit, mul_one, ← hv] at h

/-- From `10 ^ 310` on every magnitude is past the largest finite one. -/
theorem limit_le_of_le {digits e : ℕ} (hdigits : digits ≠ 0) (he : 310 ≤ e) :
    (2 : ℚ) ^ 1024 - 2 ^ 970 ≤ digits * 10 ^ e := by
  have hpow : (2 : ℚ) ^ 1024 ≤ 10 ^ 310 := by
    calc
      (2 : ℚ) ^ 1024 ≤ 2 ^ (205 * 5) := pow_le_pow_right₀ one_le_two (by decide)
      _ = (2 ^ 205) ^ 5 := pow_mul 2 205 5
      _ ≤ (10 ^ 62) ^ 5 := by gcongr; norm_num
      _ = 10 ^ 310 := (pow_mul 10 62 5).symm
  have hone : (1 : ℚ) ≤ digits := by exact_mod_cast Nat.one_le_iff_ne_zero.mpr hdigits
  calc
    (2 : ℚ) ^ 1024 - 2 ^ 970 ≤ 2 ^ 1024 := sub_le_self _ (by positivity)
    _ ≤ 10 ^ e := hpow.trans (pow_le_pow_right₀ (by norm_num) he)
    _ ≤ digits * 10 ^ e := le_mul_of_one_le_left (by positivity) hone

/-- Digits far shorter than a power of ten stand for less than half a unit. -/
theorem div_lt_half_unit {digits k : ℕ} (hk : digits.log2 + 1081 < 3 * k) :
    (digits : ℚ) / (10 ^ k : ℕ) < 1 / 2 * unit := by
  have hdigits : (digits : ℚ) < 2 ^ (digits.log2 + 1) := by
    exact_mod_cast Nat.lt_log2_self (n := digits)
  have hten : (2 : ℚ) ^ (3 * k) ≤ (10 ^ k : ℕ) := by
    rw [pow_mul, Nat.cast_pow]
    exact pow_le_pow_left₀ (by positivity) (by norm_num) k
  calc
    (digits : ℚ) / (10 ^ k : ℕ)
        ≤ digits / 2 ^ (3 * k) := div_le_div_of_nonneg_left (by positivity) (by positivity) hten
    _ < 2 ^ (digits.log2 + 1) / 2 ^ (3 * k) := div_lt_div_of_pos_right hdigits (by positivity)
    _ = 2 ^ (((digits.log2 + 1 : ℕ) : ℤ) - (3 * k : ℕ)) := by
        rw [zpow_sub₀ two_ne_zero, zpow_natCast, zpow_natCast]
    _ ≤ 2 ^ (-1 + -1074 : ℤ) := zpow_le_zpow_right₀ one_le_two (by omega)
    _ = 1 / 2 * unit := by rw [zpow_add₀ two_ne_zero, zpow_neg_one, one_div, unit]

/-- The exact value of a decimal is what is rounded; the two cut-offs change nothing. -/
theorem rounds_ofDecimal (negative : Bool) (digits : ℕ) (exponent : ℤ) :
    Rounds negative (digits * 10 ^ exponent) (ofDecimal negative digits exponent) := by
  have hzero : digits = 0 → Rounds negative (digits * 10 ^ exponent) (zero negative) := by
    rintro rfl
    rw [Nat.cast_zero, zero_mul]
    exact rounds_zero negative le_rfl (mul_pos one_half_pos unit_pos)
  -- Of the branches only the last computes a power of ten; the others are decided by its size.
  cases exponent with
  | ofNat e =>
    have hvalue : (digits : ℚ) * 10 ^ Int.ofNat e = (digits * Nat.pow 10 e : ℕ) / (1 : ℕ) := by
      rw [Int.ofNat_eq_natCast, zpow_natCast, Nat.cast_one, div_one, Nat.cast_mul, Nat.pow_eq,
        Nat.cast_pow, Nat.cast_ofNat]
    rw [ofDecimal]
    split
    · exact hzero ‹_›
    · split
      · exact rounds_infinity negative (limit_le_of_le ‹_› ‹_›)
      · -- Nothing depends on the value of `2 ^ 1074`, so its exponent is made a variable.
        generalize hn : 1074 = n
        exact rounds_quotient negative Nat.one_pos hn.symm hvalue
  | negSucc e =>
    have hvalue : (digits : ℚ) * 10 ^ Int.negSucc e = digits / (Nat.pow 10 (e + 1) : ℕ) := by
      rw [zpow_negSucc, div_eq_mul_inv, Nat.pow_eq, Nat.cast_pow, Nat.cast_ofNat]
    rw [ofDecimal]
    split
    · exact hzero ‹_›
    · split
      · rw [hvalue]
        exact rounds_zero negative (by positivity) (div_lt_half_unit ‹_›)
      · generalize hn : 1074 = n
        exact rounds_quotient negative (Nat.pow_pos (by decide)) hn.symm hvalue

end Binary64

end Numeric
end PascalTree
