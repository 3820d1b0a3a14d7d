import PascalTree.Proofs.Json.Skips
import PascalTree.Proofs.Numerals
import PascalTree.Proofs.Stored.RoundTrip

/-!
# NumberTokens — numbers in what nodes carry are loaded exactly or refused

A number in a document may have any length and form. Its digits are gathered as long as they fit
into 64 bits; a number with more of them, with a sign, a point or an exponent is no unsigned integer
any more, whatever it denotes, so none is ever rounded or cut to fit a coordinate or an index.

* `GivesReal`: behind a text, a reader of numbers gives a real or fails;
* `readNumber_ends`: which tokens are integers;
* `Exact`: a result is the number of a token, or there is none;
* `reads_token`: tokens read as unsigned numbers;
* `unsigned_numbers_load_exactly`: the coordinates of a position, and numbers of nodes.
-/

namespace PascalTree
namespace Json

open Grammar (natural)
open Numeric (Binary64)

/-! ## Digits -/

theorem ofDigitChars_eq_natural (ds : List Char) : Nat.ofDigitChars 10 ds 0 = natural ds := by
  rw [← Grammar.digitsValue_eq_natural, Numeric.digitsValue, Nat.ofDigitChars_eq_foldl]
  simp only [Numeric.digitValue, Nat.mul_comm]

/-- Only a number within the limit is absorbed whole. -/
theorem le_of_absorb_eq {limit : Nat} {digits : List Char} {n m : Nat} (hn : n ≤ limit)
    (h : absorb limit n digits = (m, [])) : Nat.ofDigitChars 10 digits n ≤ limit := by
  induction digits generalizing n with
  | nil => exact hn
  | cons c digits ih =>
    rw [absorb] at h
    split at h
    · rename_i hle
      rw [Nat.ofDigitChars_cons, Nat.mul_comm]
      exact ih hle h
    · cases h

/-! ## Reals -/

/-- Behind the text, whatever follows it, the reader gives a real or fails. -/
def GivesReal (reader : Reader Number) (w : List Char) : Prop :=
  ∃ result : Except Fault Binary64, ∀ rest, Stops rest →
    (reader (w ++ rest)).Ends rest (result.map .real)

section Reals

variable (positive : Bool) (significand : Nat) (exponent : Int)

theorem givesReal_endReal : GivesReal (endReal positive significand exponent) [] := by
  cases hscale : scale? (Binary64.ofNat significand) exponent with
  | some x =>
    refine ⟨.ok (if positive then x else x.neg), fun rest _ => ?_⟩
    simp only [endReal, hscale]
    exact Outcome.ends_done
  | none =>
    refine ⟨.error .numberOutOfRange, fun rest _ => ?_⟩
    simp only [endReal, hscale]
    rfl

/-- What an exponent does depends on its sign and its digits only. -/
theorem readExponent_append {sign ds : List Char} (hsign : sign ∈ Grammar.sign)
    (hds : ds ∈ Grammar.digits) :
    ∃ raises : Bool, ∀ rest, Stops rest →
      readExponent positive significand exponent (sign ++ (ds ++ rest)) =
        match absorb exponentLimit 0 ds with
        | (e, []) =>
          endReal positive significand (if raises then exponent + e else exponent - e) rest
        | (_, _ :: left) =>
          if significand ≠ 0 && raises then .failed .numberOutOfRange ⟨left ++ rest, 0⟩
          else .done (.real (Binary64.zero (!positive))) rest := by
  obtain ⟨hne, hall⟩ := Grammar.mem_digits.mp hds
  obtain ⟨c, cs, rfl⟩ := List.exists_cons_of_ne_nil hne
  have hc : c.isDigit = true := hall c List.mem_cons_self
  have hdigits : ∀ rest, Stops rest →
      (c :: (cs ++ rest)).takeWhile Char.isDigit = c :: cs ∧
        (c :: (cs ++ rest)).dropWhile Char.isDigit = rest := fun rest hrest =>
    ⟨takeWhile_isDigit_append hall (startsWithDigit_of_stops hrest),
      dropWhile_isDigit_append hall (startsWithDigit_of_stops hrest)⟩
  have hsigns : c ≠ '+' ∧ c ≠ '-' := by
    constructor <;> (rintro rfl; cases hc)
  -- Only a minus sign lowers the power of ten, whether the digits fit or not.
  rcases habsorb : absorb exponentLimit 0 (c :: cs) with ⟨e, _ | ⟨d, left⟩⟩
  all_goals rcases hsign with rfl | ⟨_, rfl | rfl, rfl⟩
  · exact ⟨true, fun rest hrest => by simp [readExponent, hsigns, hc, hdigits rest hrest, habsorb]⟩
  · exact ⟨true, fun rest hrest => by simp [readExponent, hc, hdigits rest hrest, habsorb]⟩
  · exact ⟨false, fun rest hrest => by simp [readExponent, hc, hdigits rest hrest, habsorb]⟩
  · exact ⟨true, fun rest hrest => by simp [readExponent, hsigns, hc, hdigits rest hrest, habsorb]⟩
  · exact ⟨true, fun rest hrest => by simp [readExponent, hc, hdigits rest hrest, habsorb]⟩
  · exact ⟨false, fun rest hrest => by simp [readExponent, hc, hdigits rest hrest, habsorb]⟩

theorem givesReal_readExponent {w : List Char} (hw : w ∈ Grammar.sign * Grammar.digits) :
    GivesReal (readExponent positive significand exponent) w := by
  obtain ⟨sign, hsign, ds, hds, rfl⟩ := Language.mem_mul.mp hw
  obtain ⟨raises, hread⟩ := readExponent_append positive significand exponent hsign hds
  rcases habsorb : absorb exponentLimit 0 ds with ⟨e, _ | ⟨d, left⟩⟩
  · obtain ⟨result, hend⟩ := givesReal_endReal positive significand
      (if raises then exponent + e else exponent - e)
    refine ⟨result, fun rest hrest => ?_⟩
    rw [List.append_assoc, hread rest hrest, habsorb]
    exact hend rest hrest
  · -- An exponent of more than 31 bits makes the real zero or too large.
    by_cases hlarge : (significand ≠ 0 && raises) = true
    · refine ⟨.error .numberOutOfRange, fun rest hrest => ?_⟩
      rw [List.append_assoc, hread rest hrest, habsorb]
      simp only [hlarge, if_true]
      rfl
    · refine ⟨.ok (Binary64.zero (!positive)), fun rest hrest => ?_⟩
      rw [List.append_assoc, hread rest hrest, habsorb]
      simp only [hlarge]
      exact Outcome.ends_done

theorem readRealEnd_stops {rest : List Char} (hrest : Stops rest) :
    readRealEnd positive significand exponent rest =
      endReal positive significand exponent rest := by
  unfold readRealEnd
  split
  · exact absurd rfl hrest.2.2.1
  · exact absurd rfl hrest.2.2.2
  · rfl

theorem givesReal_readRealEnd {w : List Char} (hw : w ∈ 1 + Grammar.exponent) :
    GivesReal (readRealEnd positive significand exponent) w := by
  rcases hw with rfl | hw
  · obtain ⟨result, hend⟩ := givesReal_endReal positive significand exponent
    refine ⟨result, fun rest hrest => ?_⟩
    rw [List.nil_append, readRealEnd_stops _ _ _ hrest]
    exact hend rest hrest
  · obtain ⟨c, cs, rfl, hc, hcs⟩ := Grammar.mem_oneOf_mul.mp hw
    rcases hc with rfl | rfl <;> exact givesReal_readExponent positive significand exponent hcs

theorem givesReal_readFraction {ds w : List Char} (hds : ds ∈ Grammar.digits)
    (hw : w ∈ 1 + Grammar.exponent) :
    GivesReal (readFraction positive significand exponent) (ds ++ w) := by
  obtain ⟨hne, hall⟩ := Grammar.mem_digits.mp hds
  have hempty : ds.isEmpty = false := by simpa using hne
  rcases habsorb : absorb significandLimit significand ds with ⟨significand', left⟩
  obtain ⟨result, hend⟩ := givesReal_readRealEnd positive significand'
    (exponent - (ds.length - left.length : Nat)) hw
  refine ⟨result, fun rest hrest => ?_⟩
  have hstop := startsWithDigit_exponent hw hrest
  simp only [List.append_assoc, readFraction, takeWhile_isDigit_append hall hstop,
    dropWhile_isDigit_append hall hstop, hempty, habsorb]
  exact hend rest hrest

end Reals

/-! ## Numbers -/

section Numbers

variable (positive : Bool) {digits w : List Char}

/-- Too many digits make a real. -/
theorem givesReal_readNumberEnd_nil (h : significandLimit < natural digits) :
    GivesReal (readNumberEnd positive digits) [] := by
  rcases habsorb : absorb significandLimit 0 digits with ⟨significand, left⟩
  have hleft : left.isEmpty = false := by
    cases left with
    | nil =>
      have hle := le_of_absorb_eq (Nat.zero_le _) habsorb
      rw [ofDigitChars_eq_natural] at hle
      exact absurd h (Nat.not_lt.mpr hle)
    | cons c left => rfl
  obtain ⟨result, hend⟩ := givesReal_endReal positive significand left.length
  refine ⟨result, fun rest hrest => ?_⟩
  simp only [List.nil_append, readNumberEnd, habsorb]
  -- What follows is neither a point nor an exponent, and some digits are left over.
  split
  · exact absurd rfl hrest.2.1
  · exact absurd rfl hrest.2.2.1
  · exact absurd rfl hrest.2.2.2
  · rw [hleft]
    exact hend _ hrest

/-- A point or an exponent makes a real, even of an integer. -/
theorem givesReal_readNumberEnd_cons (hw : w ∈ numberEnd) (hne : w ≠ []) :
    GivesReal (readNumberEnd positive digits) w := by
  obtain ⟨fraction, hfraction, exponent, hexponent, rfl⟩ := Language.mem_mul.mp hw
  rcases habsorb : absorb significandLimit 0 digits with ⟨significand, left⟩
  rcases hfraction with rfl | hfraction
  · rcases hexponent with rfl | hexponent
    · exact absurd rfl hne
    · obtain ⟨c, cs, rfl, hc, hcs⟩ := Grammar.mem_oneOf_mul.mp hexponent
      obtain ⟨result, hend⟩ := givesReal_readExponent positive significand left.length hcs
      refine ⟨result, fun rest hrest => ?_⟩
      rcases hc with rfl | rfl
      · simpa only [List.nil_append, List.cons_append, readNumberEnd, habsorb] using hend rest hrest
      · simpa only [List.nil_append, List.cons_append, readNumberEnd, habsorb] using hend rest hrest
  · obtain ⟨ds, rfl, hds⟩ := Grammar.mem_singleton_mul.mp hfraction
    obtain ⟨result, hend⟩ :=
      givesReal_readFraction positive significand left.length hds hexponent
    refine ⟨result, fun rest hrest => ?_⟩
    simpa only [List.cons_append, readNumberEnd, habsorb] using hend rest hrest

theorem readNumber_wholePart {whole s : List Char} (hwhole : whole ∈ wholePart)
    (hs : startsWithDigit s = false) :
    readNumber positive (whole ++ s) = readNumberEnd positive whole s := by
  rcases mem_wholePart.mp hwhole with rfl | ⟨hdigits, hzero⟩
  · simp [readNumber, hs]
  · obtain ⟨hne, hall⟩ := Grammar.mem_digits.mp hdigits
    obtain ⟨c, cs, rfl⟩ := List.exists_cons_of_ne_nil hne
    have hc : c ≠ '0' := fun heq => hzero (congrArg some heq)
    rw [List.cons_append, readNumber, if_neg hc, if_pos (hall c List.mem_cons_self),
      ← List.cons_append, takeWhile_isDigit_append hall hs, dropWhile_isDigit_append hall hs]

/-- A number behind its sign is an integer if it has nothing but digits, whose number fits into 64
bits, and a real otherwise. -/
theorem readNumber_ends {whole tail : List Char} (hwhole : whole ∈ wholePart)
    (htail : tail ∈ numberEnd) :
    ∃ result : Except Fault Number,
      (∀ rest, Stops rest → (readNumber positive (whole ++ tail ++ rest)).Ends rest result) ∧
      ((tail = [] ∧ natural whole ≤ significandLimit) ∧
          result = .ok (ofInteger positive (natural whole)) ∨
        ¬(tail = [] ∧ natural whole ≤ significandLimit) ∧
          ∃ real : Except Fault Binary64, result = real.map .real) := by
  have hread : ∀ rest, Stops rest →
      readNumber positive (whole ++ tail ++ rest) =
        readNumberEnd positive whole (tail ++ rest) := by
    intro rest hrest
    rw [List.append_assoc]
    exact readNumber_wholePart positive hwhole
      (startsWithDigit_append noDigitFirst_numberEnd htail hrest)
  by_cases hplain : tail = [] ∧ natural whole ≤ significandLimit
  · refine ⟨_, fun rest hrest => ?_, Or.inl ⟨hplain, rfl⟩⟩
    obtain ⟨rfl, hfits⟩ := hplain
    rw [← ofDigitChars_eq_natural] at hfits ⊢
    rw [hread rest hrest, List.nil_append, readNumberEnd_stops positive hrest hfits]
    exact Outcome.ends_done
  · have hreal : GivesReal (readNumberEnd positive whole) tail := by
      by_cases hnil : tail = []
      · subst hnil
        exact givesReal_readNumberEnd_nil positive (Nat.not_le.mp fun hle => hplain ⟨rfl, hle⟩)
      · exact givesReal_readNumberEnd_cons positive htail hnil
    obtain ⟨real, hend⟩ := hreal
    refine ⟨_, fun rest hrest => ?_, Or.inr ⟨hplain, real, rfl⟩⟩
    rw [hread rest hrest]
    exact hend rest hrest

end Numbers

/-! ## Exact numbers -/

/-- The result is a value iff the text has digits only and denotes a number below the bound, and the
value then has this very number. -/
structure Exact {ε α : Type} (w : List Char) (bound : Nat) (Has : α → Nat → Prop)
    (result : Except ε α) : Prop where
  exists_ok : (∃ x, result = .ok x) ↔ w ∈ wholePart ∧ natural w < bound
  has : ∀ x, result = .ok x → Has x (natural w)

namespace Exact

variable {ε ε' α β : Type} {w : List Char} {bound : Nat} {Has : α → Nat → Prop}
  {result : Except ε α}

theorem ok {x : α} (hresult : result = .ok x) (hw : w ∈ wholePart) (hlt : natural w < bound)
    (hx : Has x (natural w)) : Exact w bound Has result := by
  subst hresult
  refine ⟨iff_of_true ⟨x, rfl⟩ ⟨hw, hlt⟩, fun y hy => ?_⟩
  cases hy
  exact hx

theorem error {e : ε} (h : ¬(w ∈ wholePart ∧ natural w < bound)) :
    Exact w bound Has (.error e) :=
  ⟨iff_of_false (fun ⟨_, h⟩ => nomatch h) h, nofun⟩

theorem mono {Has' : α → Nat → Prop} (h : Exact w bound Has result)
    (hhas : ∀ x n, n < bound → Has x n → Has' x n) : Exact w bound Has' result :=
  ⟨h.exists_ok, fun x hx => hhas x _ (h.exists_ok.mp ⟨x, hx⟩).2 (h.has x hx)⟩

theorem map {Has' : β → Nat → Prop} {f : α → β} (h : Exact w bound Has result)
    (hhas : ∀ x n, Has x n → Has' (f x) n) : Exact w bound Has' (result.map f) := by
  cases result with
  | ok x =>
    obtain ⟨hw, hlt⟩ := h.exists_ok.mp ⟨x, rfl⟩
    exact .ok rfl hw hlt (hhas x _ (h.has x rfl))
  | error e =>
    refine .error fun hplain => ?_
    obtain ⟨x, hx⟩ := h.exists_ok.mpr hplain
    cases hx

/-- What an error is does not matter. -/
theorem of_mapError {f : ε → ε'} (h : Exact w bound Has (result.mapError f)) :
    Exact w bound Has result := by
  cases result with
  | ok x =>
    obtain ⟨hw, hlt⟩ := h.exists_ok.mp ⟨x, rfl⟩
    exact .ok rfl hw hlt (h.has x rfl)
  | error e =>
    refine .error fun hplain => ?_
    obtain ⟨x, hx⟩ := h.exists_ok.mpr hplain
    cases hx

end Exact

/-! ## Unsigned numbers -/

section Unsigned

variable {α : Type} (expected : Expected) (high : Int) {bound : Nat}

/-- A real is of the wrong type, also if it denotes an integer. -/
theorem integerWithin_real (x : Binary64) :
    ∃ fault, integerWithin expected 0 high (.real x) = .error fault := ⟨_, rfl⟩

/-- No number behind a minus sign is an unsigned one, not even zero. -/
theorem integerWithin_ofInteger_false (n : Nat) :
    ∃ fault, integerWithin expected 0 high (ofInteger false n) = .error fault := by
  rw [ofInteger, if_neg Bool.false_ne_true]
  split
  · exact integerWithin_real expected high _
  · rename_i hn
    have hbelow : ¬(0 ≤ -(n : Int) ∧ -(n : Int) ≤ high) := by omega
    simp only [integerWithin, Number.integer?, if_neg hbelow]
    exact ⟨_, rfl⟩

theorem integerWithin_natural (n : Nat) (hn : (n : Int) ≤ high) :
    integerWithin expected 0 high (.natural n) = .ok n := by
  simp only [integerWithin, Number.integer?, if_pos (And.intro (Int.natCast_nonneg n) hn)]

theorem integerWithin_natural_of_lt (n : Nat) (hn : high < n) :
    ∃ fault, integerWithin expected 0 high (.natural n) = .error fault := by
  have hlarge : ¬(0 ≤ (n : Int) ∧ (n : Int) ≤ high) := by omega
  simp only [integerWithin, Number.integer?, if_neg hlarge]
  exact ⟨_, rfl⟩

/-- The text of a number, in its parts, has digits only if nothing stands around them. -/
theorem signed_mem_wholePart_iff {whole tail : List Char} (hwhole : whole ∈ wholePart)
    (htail : tail ∈ numberEnd) (positive : Bool) :
    (if positive then whole ++ tail else '-' :: (whole ++ tail)) ∈ wholePart ↔
      positive = true ∧ tail = [] := by
  constructor
  · intro h
    obtain ⟨-, hall⟩ := isDigit_of_mem_wholePart h
    cases positive with
    | false => exact absurd (hall '-' List.mem_cons_self) (by decide)
    | true =>
      cases tail with
      | nil => exact ⟨rfl, rfl⟩
      | cons c cs =>
        have hdigit : c.isDigit = true := hall c (by simp)
        have hfirst : c.isDigit = false := noDigitFirst_numberEnd c cs htail
        rw [hdigit] at hfirst
        cases hfirst
  · rintro ⟨rfl, rfl⟩
    simpa using hwhole

/-- A number behind its sign is read as an unsigned number below the bound exactly. -/
theorem readNumber_exact (positive : Bool) {whole tail : List Char}
    (hwhole : whole ∈ wholePart) (htail : tail ∈ numberEnd) (hbound : bound ≤ UInt64.size) :
    ∃ result : Except Fault Number,
      (∀ rest, Stops rest → (readNumber positive (whole ++ tail ++ rest)).Ends rest result) ∧
      Exact (if positive then whole ++ tail else '-' :: (whole ++ tail)) bound
        (fun (i : Int) n => i = n) (result.bind (integerWithin expected 0 (bound - 1))) := by
  have hplain := signed_mem_wholePart_iff hwhole htail positive
  obtain ⟨result, hends, ⟨⟨rfl, hfits⟩, rfl⟩ | ⟨hreal, real, rfl⟩⟩ :=
    readNumber_ends positive hwhole htail
  · refine ⟨_, hends, ?_⟩
    -- An integer, which the sign and the bound may still rule out.
    cases positive with
    | false =>
      obtain ⟨fault, hfault⟩ :=
        integerWithin_ofInteger_false expected (bound - 1) (natural whole)
      rw [Except.bind, hfault]
      exact .error fun h => nomatch (hplain.mp h.1).1
    | true =>
      rw [if_pos rfl, List.append_nil]
      by_cases hlt : natural whole < bound
      · have hle : (natural whole : Int) ≤ bound - 1 := by omega
        exact .ok (integerWithin_natural expected _ (natural whole) hle) hwhole hlt rfl
      · obtain ⟨fault, hfault⟩ :=
          integerWithin_natural_of_lt expected (bound - 1) (natural whole) (by omega)
        rw [Except.bind, ofInteger, if_pos rfl, hfault]
        exact .error fun h => hlt h.2
  · refine ⟨_, hends, ?_⟩
    have herror : ∃ fault, (real.map Number.real).bind
        (integerWithin expected 0 (bound - 1)) = .error fault := by
      cases real with
      | ok x => exact integerWithin_real expected (bound - 1) x
      | error fault => exact ⟨fault, rfl⟩
    obtain ⟨fault, hfault⟩ := herror
    rw [hfault]
    refine .error fun ⟨hmem, hlt⟩ => ?_
    -- Digits that denote a number below the bound are no real.
    obtain ⟨rfl, rfl⟩ := hplain.mp hmem
    rw [if_pos rfl, List.append_nil] at hlt
    exact hreal ⟨rfl, Nat.le_sub_one_of_lt (Nat.lt_of_lt_of_le hlt hbound)⟩

/-- A token is read as an unsigned number below the bound exactly. -/
theorem reads_token {w : List Char} (hw : w ∈ number) (hbound : bound ≤ UInt64.size)
    (f : Int → α) :
    ∃ result : Except Fault α,
      Reads (readNumeral expected fun n => (integerWithin expected 0 (bound - 1) n).map f) w
        result ∧
      Exact w bound (fun x n => f n = x) result := by
  obtain ⟨positive, whole, hwhole, tail, htail, rfl⟩ := exists_parts_of_mem_number hw
  obtain ⟨result, hends, hexact⟩ := readNumber_exact expected positive hwhole htail hbound
  obtain ⟨c, cs, rfl, hc⟩ := exists_digit_of_mem_wholePart hwhole
  refine ⟨_, reads_numeral_of_number hc hends, ?_⟩
  have hmap : (result.bind fun n => (integerWithin expected 0 (bound - 1) n).map f) =
      (result.bind (integerWithin expected 0 (bound - 1))).map f := by
    cases result <;> rfl
  rw [hmap]
  exact hexact.map fun i n hi => congrArg f hi.symm

theorem reads_word32_token {w : List Char} (hw : w ∈ number) :
    ∃ result : Except Fault UInt32,
      Reads readWord32 w result ∧ Exact w (2 ^ 32) (fun x n => x.toNat = n) result := by
  obtain ⟨result, hreads, hresult⟩ :=
    reads_token .word32 hw (show UInt32.size ≤ UInt64.size by decide) fun i => UInt32.ofNat i.toNat
  refine ⟨result, hreads, hresult.mono fun x n hn hx => ?_⟩
  rw [← hx, Int.toNat_natCast, UInt32.toNat_ofNat_of_lt' hn]

theorem reads_index_token {w : List Char} (hw : w ∈ number) :
    ∃ result : Except Fault Nat,
      Reads readIndex w result ∧ Exact w (2 ^ 64) (fun x n => x = n) result := by
  obtain ⟨result, hreads, hresult⟩ := reads_token .index hw (Nat.le_refl UInt64.size) Int.toNat
  exact ⟨result, hreads, hresult.mono fun x n _ hx => hx.symm⟩

end Unsigned

/-- Every number has a token with digits only. -/
theorem toDigits_mem_wholePart (n : Nat) : Nat.toDigits 10 n ∈ wholePart := by
  by_cases hn : n = 0
  · subst hn
    exact Or.inl rfl
  · obtain ⟨c, cs, hcs, hzero⟩ := toDigits_eq_cons hn
    refine mem_wholePart.mpr (Or.inr ⟨Grammar.mem_digits.mpr ⟨Nat.toDigits_ne_nil, ?_⟩, ?_⟩)
    · exact fun c hc => Nat.isDigit_of_mem_toDigits (by decide) (by decide) hc
    · rw [hcs]
      exact fun heq => hzero (Option.some.inj heq)

theorem mem_number_of_mem_wholePart {w : List Char} (hw : w ∈ wholePart) : w ∈ number :=
  Language.mem_mul.mpr ⟨[], Or.inl rfl, w, Language.mem_mul.mpr ⟨w, hw, [],
    Language.mem_mul.mpr ⟨[], Or.inl rfl, [], Or.inl rfl, rfl⟩, List.append_nil w⟩, rfl⟩

end Json

/-! ## Positions and numbers of nodes -/

namespace Stored

open Json
open Grammar (natural)

/-- A position of which one coordinate is written. -/
def coordinateText (name token : String) : String :=
  "\x7b\"" ++ name ++ "\":" ++ token ++ "\x7d"

theorem coordinateText_toList {name : String} (hname : name.toList.flatMap escapeChar = name.toList)
    (token : String) :
    (coordinateText name token).toList = objectText [(name, token.toList)] := by
  simp [coordinateText, objectText, objectChars, compactMember, MemberText.chars, commaJoin, hname]

/-- One coordinate, whichever it is: `put` makes the position from it. -/
theorem exact_load_coordinate {name token : String} (put : UInt32 → Position)
    (hname : name.toList.flatMap escapeChar = name.toList) (htoken : token.toList ∈ number)
    (hparts : ∀ result : Except Fault UInt32,
      Reads (readValue 126 (.optional .word32)) token.toList (result.map some) →
        Parts (readValue 126) positionRecord.fields positionRecord.make [(name, token.toList)]
          (result.map put))
    {Has : Position → Nat → Prop} (hput : ∀ n, Has (put n) n.toNat) :
    Exact token.toList (2 ^ 32) Has (load .position (coordinateText name token)) := by
  obtain ⟨result, hreads, hresult⟩ := reads_word32_token htoken
  obtain ⟨c, w, hw, hc⟩ := number_first htoken
  have hnull : c ≠ 'n' := by
    rintro rfl
    rcases hc with hc | hc <;> cases hc
  have hrecord : Reads (readValue maxLevels .position) (coordinateText name token).toList
      (result.map put) := by
    rw [coordinateText_toList hname]
    refine reads_record_parts (hparts result ?_) (by decide)
    rw [readValue_eq]
    exact reads_optional hw hnull hreads
  apply Exact.of_mapError
  rw [load_of_reads_toList hrecord]
  exact hresult.map fun x n hx => hx ▸ hput x

/-- A number token of any length and form gives a coordinate of a position or the number of a node
iff it has digits only and denotes a number that fits, and then this very number. -/
theorem unsigned_numbers_load_exactly {token : String} (htoken : token.toList ∈ number) :
    Exact token.toList (2 ^ 32) (fun p n => p.line.map UInt32.toNat = some n ∧ p.row = none)
        (load .position (coordinateText "line" token)) ∧
      Exact token.toList (2 ^ 32) (fun p n => p.row.map UInt32.toNat = some n ∧ p.line = none)
        (load .position (coordinateText "row" token)) ∧
      Exact token.toList (2 ^ 64) (fun x n => x = n) (load .index token) := by
  refine ⟨?_, ?_, ?_⟩
  · refine exact_load_coordinate (fun x => ⟨some x, none⟩) (by decide) htoken
      (fun result hreads => ?_) fun n => ⟨rfl, rfl⟩
    cases result with
    | ok x => exact .present hreads (.absent rfl (.nil _))
    | error fault => exact .stuck hreads (by simp)
  · refine exact_load_coordinate (fun x => ⟨none, some x⟩) (by decide) htoken
      (fun result hreads => ?_) fun n => ⟨rfl, rfl⟩
    cases result with
    | ok x => exact .absent rfl (.present hreads (.nil _))
    | error fault => exact .absent rfl (.stuck hreads (by simp))
  · obtain ⟨result, hreads, hresult⟩ := reads_index_token htoken
    have hindex : Reads (readValue maxLevels .index) token.toList result := hreads
    apply Exact.of_mapError
    rw [load_of_reads_toList hindex]
    exact hresult

/-- The largest line that fits is loaded, and the next one is refused. -/
theorem load_largest_line :
    ("4294967295".toList ∈ number ∧ "4294967296".toList ∈ number) ∧
      (∃ p, load .position (coordinateText "line" "4294967295") = .ok p ∧
          p.line.map UInt32.toNat = some 4294967295) ∧
      ¬∃ p, load .position (coordinateText "line" "4294967296") = .ok p := by
  have hlargest : "4294967295".toList ∈ wholePart := toDigits_mem_wholePart 4294967295
  have hnext : "4294967296".toList ∈ wholePart := toDigits_mem_wholePart 4294967296
  refine ⟨⟨mem_number_of_mem_wholePart hlargest, mem_number_of_mem_wholePart hnext⟩, ?_, ?_⟩
  · have hline := (unsigned_numbers_load_exactly (mem_number_of_mem_wholePart hlargest)).1
    obtain ⟨p, hp⟩ := hline.exists_ok.mpr ⟨hlargest, by decide⟩
    exact ⟨p, hp, (hline.has p hp).1⟩
  · have hline := (unsigned_numbers_load_exactly (mem_number_of_mem_wholePart hnext)).1
    intro hload
    exact absurd (hline.exists_ok.mp hload).2 (by decide)

end Stored
end PascalTree
