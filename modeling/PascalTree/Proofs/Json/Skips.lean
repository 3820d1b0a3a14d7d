import PascalTree.Json.Skip
import PascalTree.Proofs.Json.Reads

/-!
# Skips — every value can be skipped

Whatever is a value by the rules of the grammar is skipped as the value of an unknown member, to its
end and no further. Skipping keeps the open brackets in a list and goes on from value to value, so a
composed value takes several repetitions of a step; there are fewer of them than characters.

* `Reader.proceed`: what repetition does with the outcome of a step;
* `SkipsWithin`: the repetitions that lead from the front of a value to what stands behind it;
* `skips_parts`: the parts of a list or an object, one after the other;
* `reads_skipValue`: values of every kind.
-/

namespace PascalTree
namespace Json

variable {σ β : Type}

/-! ## Repetition -/

/-- What repetition does with the outcome of a step: it ends, or the step is repeated. -/
def Reader.proceed (step : σ → Reader (σ ⊕ β)) (budget : List Char) : Outcome (σ ⊕ β) → Outcome β
  | .done (.inr result) rest => .done result rest
  | .done (.inl state) rest =>
    match budget with
    | [] => failPeek .expectedValue rest
    | _ :: budget => iterateWithin step budget state rest
  | .pending fault rest => .pending fault rest
  | .failed fault mark => .failed fault mark

theorem iterateWithin_eq_proceed (step : σ → Reader (σ ⊕ β)) (budget : List Char) (state : σ)
    (s : List Char) :
    Reader.iterateWithin step budget state s = Reader.proceed step budget (step state s) := by
  rw [Reader.iterateWithin]
  cases step state s with
  | done result rest =>
    cases result with
    | inl state' => cases budget <;> rfl
    | inr value => rfl
  | pending fault rest => rfl
  | failed fault mark => rfl

/-! ## Values -/

/-- With `n` repetitions, skipping gets from the front of the text to what stands behind it, inside
of any brackets. -/
def SkipsWithin (n : Nat) (w : List Char) : Prop :=
  ∀ outer s rest, Stops rest → skipBlanks s = skipBlanks (w ++ rest) →
    ∃ rest', skipBlanks rest' = skipBlanks rest ∧ ∀ budget, n ≤ budget.length →
      Reader.iterateWithin skipStep budget outer s =
        Reader.proceed skipStep (budget.drop n) (afterValue outer rest')

/-- The text is skipped with fewer repetitions than it has characters. -/
def Skips (w : List Char) : Prop := ∃ n, n < (skipBlanks w).length ∧ SkipsWithin n w

theorem skipStep_skipBlanks (outer : List Bracket) (s : List Char) :
    skipStep outer (skipBlanks s) = skipStep outer s := by
  rw [skipStep, startValue, startValue, skipBlanks_skipBlanks]

/-- A value that is skipped in one step. -/
theorem Skips.of_step {c : Char} {w : List Char} (hc : isBlank c = false)
    (h : ∀ outer rest, Stops rest →
      skipStep outer (c :: (w ++ rest)) = afterValue outer rest) : Skips (c :: w) := by
  -- The step is taken before the budget is looked at: no repetition is needed.
  refine ⟨0, by simp [skipBlanks_cons hc], fun outer s rest hrest hs => ?_⟩
  rw [List.cons_append, skipBlanks_cons hc] at hs
  refine ⟨rest, rfl, fun budget _ => ?_⟩
  rw [iterateWithin_eq_proceed, ← skipStep_skipBlanks, hs, h outer rest hrest, List.drop_zero]

theorem Skips.padded {before w after : List Char} (h : Skips w) (hbefore : Blanks before)
    (hafter : Blanks after) : Skips (before ++ w ++ after) := by
  rcases h with ⟨n, hn, hskips⟩
  refine ⟨n, ?_, fun outer s rest hrest hs => ?_⟩
  · cases hw : skipBlanks w with
    | nil => simp [hw] at hn
    | cons c w' =>
      rw [hw] at hn
      rw [skipBlanks_padded hbefore hw]
      simp only [List.length_cons, List.length_append] at hn ⊢
      omega
  · rw [List.append_assoc, List.append_assoc, skipBlanks_blanks_append hbefore] at hs
    obtain ⟨rest', hrest', hsteps⟩ :=
      hskips outer s (after ++ rest) (stops_blanks_append hafter hrest) hs
    exact ⟨rest', hrest'.trans (skipBlanks_blanks_append hafter rest), hsteps⟩

theorem reads_skipValue_of_skips {w : List Char} (h : Skips w) : Reads skipValue w (.ok ()) := by
  intro s rest hrest hs
  rcases h with ⟨n, hn, hskips⟩
  obtain ⟨rest', hrest', hsteps⟩ := hskips [] s rest hrest hs
  -- The budget is the whole text, blanks in front included.
  have hlength : n ≤ s.length := by
    cases hw : skipBlanks w with
    | nil => simp [hw] at hn
    | cons c w' =>
      have hle := (skipBlanks_suffix s).length_le
      rw [hs, skipBlanks_append hw] at hle
      rw [hw] at hn
      simp only [List.length_cons, List.length_append] at hn hle
      omega
  exact ⟨rest', hsteps s hlength, hrest'⟩

/-! ## Words and strings -/

theorem skips_null : Skips ['n', 'u', 'l', 'l'] := .of_step rfl fun _ _ _ => rfl

theorem skips_true : Skips ['t', 'r', 'u', 'e'] := .of_step rfl fun _ _ _ => rfl

theorem skips_false : Skips ['f', 'a', 'l', 's', 'e'] := .of_step rfl fun _ _ _ => rfl

theorem skipTextTail_content {w : List Char} (h : TextContent w) (rest : List Char) :
    skipTextTail (w ++ '"' :: rest) = .done () rest := by
  induction h with
  | nil => simp [skipTextTail_cons]
  | plain char _ ih =>
    rw [List.cons_append, skipTextTail_cons, if_neg char.1, if_neg char.2.1,
      if_neg (Nat.not_lt.mpr char.2.2), ih]
  | escape char _ ih =>
    obtain ⟨hescape, hu⟩ := simpleEscape?_of_mem char
    simp [skipTextTail_cons, skipEscape, hu, hescape, ih]
  | unicode unit _ ih => simp [skipTextTail_cons, skipEscape, readCodeUnit_of_codeUnit unit, ih]

theorem skips_text {w : List Char} (h : TextContent w) : Skips ('"' :: (w ++ ['"'])) := by
  refine .of_step rfl fun outer rest _ => ?_
  have htail : skipTextTail (w ++ ['"'] ++ rest) = .done () rest := by
    simpa using skipTextTail_content h rest
  show (skipTextTail (w ++ ['"'] ++ rest)).bind _ = _
  rw [htail]
  rfl

/-! ## Numbers -/

/-- Digits are skipped up to what cannot belong to them. -/
theorem skipDigits_append {ds rest : List Char} (hds : ds ∈ Grammar.digits)
    (hrest : startsWithDigit rest = false) : skipDigits (ds ++ rest) = .done () rest := by
  rcases Grammar.mem_digits.mp hds with ⟨hne, hall⟩
  obtain ⟨c, cs, rfl⟩ := List.exists_cons_of_ne_nil hne
  rcases List.forall_mem_cons.mp hall with ⟨hc, hcs⟩
  rw [List.cons_append, skipDigits, if_pos hc, dropWhile_isDigit_append hcs hrest]

theorem skipRealEnd_stops {rest : List Char} (hrest : Stops rest) :
    skipRealEnd rest = .done () rest := by
  unfold skipRealEnd
  split
  · exact absurd rfl hrest.2.2.1
  · exact absurd rfl hrest.2.2.2
  · rfl

/-- What is neither a sign nor a point or the letter of an exponent is left to what comes next. -/
theorem skipExponent_digit {c : Char} (hc : c.isDigit = true) (s : List Char) :
    skipExponent (c :: s) = skipDigits (c :: s) := by
  unfold skipExponent
  split
  · rename_i heq
    cases heq
    cases hc
  · rename_i heq
    cases heq
    cases hc
  · rfl

theorem skipExponent_append {sign ds rest : List Char} (hsign : sign ∈ Grammar.sign)
    (hds : ds ∈ Grammar.digits) (hrest : Stops rest) :
    skipExponent (sign ++ (ds ++ rest)) = .done () rest := by
  have hdigits := skipDigits_append hds (startsWithDigit_of_stops hrest)
  rcases hsign with rfl | ⟨c, rfl | rfl, rfl⟩
  · rcases Grammar.mem_digits.mp hds with ⟨hne, hall⟩
    obtain ⟨c, cs, rfl⟩ := List.exists_cons_of_ne_nil hne
    rw [List.nil_append, List.cons_append, skipExponent_digit (hall c List.mem_cons_self)]
    exact hdigits
  · exact hdigits
  · exact hdigits

theorem skipRealEnd_append {w rest : List Char} (hw : w ∈ 1 + Grammar.exponent)
    (hrest : Stops rest) : skipRealEnd (w ++ rest) = .done () rest := by
  rcases hw with rfl | hw
  · exact skipRealEnd_stops hrest
  · obtain ⟨c, cs, rfl, hc, hcs⟩ := Grammar.mem_oneOf_mul.mp hw
    obtain ⟨sign, hsign, ds, hds, rfl⟩ := Language.mem_mul.mp hcs
    have hexponent := skipExponent_append hsign hds hrest
    rw [← List.append_assoc] at hexponent
    rcases hc with rfl | rfl <;> exact hexponent

theorem startsWithDigit_append {l : Language Char} (hl : Grammar.NoDigitFirst l)
    {w rest : List Char} (hw : w ∈ l) (hrest : Stops rest) :
    startsWithDigit (w ++ rest) = false := by
  cases w with
  | nil => exact startsWithDigit_of_stops hrest
  | cons c cs => exact hl c cs hw

theorem startsWithDigit_exponent {w rest : List Char} (hw : w ∈ 1 + Grammar.exponent)
    (hrest : Stops rest) : startsWithDigit (w ++ rest) = false :=
  startsWithDigit_append
    (Grammar.noDigitFirst_add Grammar.noDigitFirst_one Grammar.noDigitFirst_exponent) hw hrest

/-- Without a point, only an exponent may follow. -/
theorem skipNumberEnd_eq {s : List Char} (hs : s.head? ≠ some '.') :
    skipNumberEnd s = skipRealEnd s := by
  unfold skipNumberEnd
  split
  · exact absurd rfl hs
  · rfl

theorem skipNumberEnd_append {fraction exponent rest : List Char}
    (hfraction : fraction ∈ 1 + {['.']} * Grammar.digits)
    (hexponent : exponent ∈ 1 + Grammar.exponent) (hrest : Stops rest) :
    skipNumberEnd (fraction ++ (exponent ++ rest)) = .done () rest := by
  have hend := skipRealEnd_append hexponent hrest
  rcases hfraction with rfl | hfraction
  · have hpoint : (exponent ++ rest).head? ≠ some '.' := by
      rcases hexponent with rfl | hexponent
      · cases rest with
        | nil => simp
        | cons c rest => simpa using hrest.2.1
      · obtain ⟨c, cs, rfl, hc, _⟩ := Grammar.mem_oneOf_mul.mp hexponent
        rcases hc with rfl | rfl <;> simp
    rw [List.nil_append, skipNumberEnd_eq hpoint, hend]
  · obtain ⟨ds, rfl, hds⟩ := Grammar.mem_singleton_mul.mp hfraction
    rcases Grammar.mem_digits.mp hds with ⟨hne, hall⟩
    have hstop := startsWithDigit_exponent hexponent hrest
    have hdigit : startsWithDigit (ds ++ (exponent ++ rest)) = true := by
      obtain ⟨c, cs, rfl⟩ := List.exists_cons_of_ne_nil hne
      exact hall c List.mem_cons_self
    rw [List.cons_append, skipNumberEnd, if_pos hdigit, dropWhile_isDigit_append hall hstop, hend]

/-- What may stand behind the digits before the point. -/
abbrev numberEnd : Language Char := (1 + {['.']} * Grammar.digits) * (1 + Grammar.exponent)

theorem noDigitFirst_numberEnd : Grammar.NoDigitFirst numberEnd := by
  intro c cs h
  obtain ⟨fraction, hfraction, exponent, hexponent, heq⟩ := Language.mem_mul.mp h
  rcases hfraction with rfl | hfraction
  · have hfirst := Grammar.noDigitFirst_add Grammar.noDigitFirst_one Grammar.noDigitFirst_exponent
    exact hfirst c cs (heq ▸ hexponent)
  · obtain ⟨ds, rfl, _⟩ := Grammar.mem_singleton_mul.mp hfraction
    cases heq
    rfl

/-- Apart from zero, the digits before the point are digits of which the first is not a zero. -/
theorem mem_wholePart {w : List Char} :
    w ∈ wholePart ↔ w = ['0'] ∨ w ∈ Grammar.digits ∧ w.head? ≠ some '0' := by
  constructor
  · rintro (rfl | hw)
    · exact Or.inl rfl
    · obtain ⟨c, cs, rfl, hc, hcs⟩ := Grammar.mem_oneOf_mul.mp hw
      refine Or.inr ⟨Grammar.mem_oneOf_mul.mpr
        ⟨c, cs, rfl, ⟨Char.le_trans (by decide) hc.1, hc.2⟩, hcs⟩, ?_⟩
      rintro heq
      cases heq
      exact absurd hc.1 (by decide)
  · rintro (rfl | ⟨hdigits, hzero⟩)
    · exact Or.inl rfl
    · obtain ⟨c, cs, rfl, hc, hcs⟩ := Grammar.mem_oneOf_mul.mp hdigits
      have hne : c.toNat ≠ '0'.toNat := fun heq => hzero (congrArg some (Char.toNat_inj.mp heq))
      have hpos : '1' ≤ c := by
        have hle : '0'.toNat ≤ c.toNat := hc.1
        exact Nat.lt_of_le_of_ne hle hne.symm
      exact Or.inr (Grammar.mem_oneOf_mul.mpr ⟨c, cs, rfl, ⟨hpos, hc.2⟩, hcs⟩)

/-- A number without its sign is skipped from its first digit on. -/
theorem skipNumber_append {whole tail rest : List Char} (hwhole : whole ∈ wholePart)
    (htail : tail ∈ numberEnd) (hrest : Stops rest) :
    skipNumber (whole ++ (tail ++ rest)) = .done () rest := by
  have hend : skipNumberEnd (tail ++ rest) = .done () rest := by
    obtain ⟨fraction, hfraction, exponent, hexponent, rfl⟩ := Language.mem_mul.mp htail
    rw [List.append_assoc]
    exact skipNumberEnd_append hfraction hexponent hrest
  have hstop := startsWithDigit_append noDigitFirst_numberEnd htail hrest
  rcases mem_wholePart.mp hwhole with rfl | ⟨hdigits, hzero⟩
  · show (if startsWithDigit (tail ++ rest) then _ else _) = _
    rw [hstop]
    exact hend
  · have hskip := skipDigits_append hdigits hstop
    unfold skipNumber
    split
    · rename_i heq
      obtain ⟨c, cs, rfl⟩ := List.exists_cons_of_ne_nil (Grammar.mem_digits.mp hdigits).1
      cases heq
      exact absurd rfl hzero
    · rw [hskip]
      exact hend

theorem isDigit_of_mem_wholePart {w : List Char} (hw : w ∈ wholePart) :
    w ≠ [] ∧ ∀ c ∈ w, c.isDigit = true := by
  rcases mem_wholePart.mp hw with rfl | ⟨hdigits, _⟩
  · exact ⟨List.cons_ne_nil _ _, List.forall_mem_singleton.mpr rfl⟩
  · exact Grammar.mem_digits.mp hdigits

theorem exists_digit_of_mem_wholePart {w : List Char} (hw : w ∈ wholePart) :
    ∃ c cs, w = c :: cs ∧ c.isDigit = true := by
  obtain ⟨hne, hall⟩ := isDigit_of_mem_wholePart hw
  obtain ⟨c, cs, rfl⟩ := List.exists_cons_of_ne_nil hne
  exact ⟨c, cs, rfl, hall c List.mem_cons_self⟩

/-- A number may have a minus sign, and something behind the digits before the point. -/
theorem exists_parts_of_mem_number {w : List Char} (hw : w ∈ number) :
    ∃ positive : Bool, ∃ whole ∈ wholePart, ∃ tail ∈ numberEnd,
      w = if positive then whole ++ tail else '-' :: (whole ++ tail) := by
  obtain ⟨sign, hsign, digits, hdigits, rfl⟩ := Language.mem_mul.mp hw
  obtain ⟨whole, hwhole, tail, htail, rfl⟩ := Language.mem_mul.mp hdigits
  rcases hsign with rfl | rfl
  · exact ⟨true, whole, hwhole, tail, htail, rfl⟩
  · exact ⟨false, whole, hwhole, tail, htail, rfl⟩

theorem number_first {w : List Char} (hw : w ∈ number) :
    ∃ c w', skipBlanks w = c :: w' ∧ (c = '-' ∨ c.isDigit = true) := by
  obtain ⟨positive, whole, hwhole, tail, htail, rfl⟩ := exists_parts_of_mem_number hw
  cases positive with
  | true =>
    obtain ⟨c, cs, rfl, hc⟩ := exists_digit_of_mem_wholePart hwhole
    exact ⟨c, _, skipBlanks_cons (isBlank_of_isDigit hc), Or.inr hc⟩
  | false => exact ⟨'-', _, rfl, Or.inl rfl⟩

theorem skipStep_digit {c : Char} (hc : c.isDigit = true) (outer : List Bracket) (s : List Char) :
    skipStep outer (c :: s) = (skipNumber (c :: s)).bind fun _ => afterValue outer := by
  rw [skipStep, startValue, skipBlanks_cons (isBlank_of_isDigit hc)]
  dsimp only
  split
  -- A digit begins neither a word nor a string, and opens no bracket.
  iterate 7
    · rename_i heq
      cases heq
      cases hc
  · simp [startsWithDigit, hc]

theorem skips_number {w : List Char} (hw : w ∈ number) : Skips w := by
  obtain ⟨positive, whole, hwhole, tail, htail, rfl⟩ := exists_parts_of_mem_number hw
  have hskip : ∀ rest, Stops rest → skipNumber (whole ++ tail ++ rest) = .done () rest := by
    intro rest hrest
    rw [List.append_assoc]
    exact skipNumber_append hwhole htail hrest
  cases positive with
  | true =>
    obtain ⟨c, cs, rfl, hc⟩ := exists_digit_of_mem_wholePart hwhole
    refine .of_step (isBlank_of_isDigit hc) fun outer rest hrest => ?_
    rw [skipStep_digit hc]
    exact congrArg (Outcome.bind · fun _ => afterValue outer) (hskip rest hrest)
  | false =>
    refine .of_step rfl fun outer rest hrest => ?_
    exact congrArg (Outcome.bind · fun _ => afterValue outer) (hskip rest hrest)

/-! ## Lists and objects -/

/-- A part of a bracket as it is written, and the value in it: in an object the value stands behind
a key. -/
structure EntersTo (bracket : Bracket) (part w : List Char) : Prop where
  first : ∃ c part', skipBlanks part = c :: part' ∧ c ≠ bracket.closing
  enter : ∀ s rest, skipBlanks s = skipBlanks (part ++ rest) →
    ∃ s', bracket.enter s = .done () s' ∧ skipBlanks s' = skipBlanks (w ++ rest)
  length : (skipBlanks w).length ≤ part.length

/-- Goes on behind the opening bracket or behind a value. -/
def arrive (bracket : Bracket) (outer : List Bracket) (first : Bool) :
    Reader (List Bracket ⊕ Unit) :=
  if first then afterOpening bracket outer else afterValue (bracket :: outer)

section Parts

variable {bracket : Bracket} {first : Bool}

theorem arrive_end (outer : List Bracket) {s rest : List Char}
    (hs : skipBlanks s = skipBlanks (bracket.closing :: rest)) :
    arrive bracket outer first s = afterValue outer rest := by
  have hclosing : isBlank bracket.closing = false ∧ bracket.closing ≠ ',' := by
    cases bracket <;> decide
  rw [skipBlanks_cons hclosing.1] at hs
  cases first with
  | true => simp [arrive, afterOpening, hs]
  | false => simp [arrive, afterValue, hs, hclosing.2]

theorem arrive_more (outer : List Bracket) {part w s rest : List Char} (h : EntersTo bracket part w)
    (hs : skipBlanks s = skipBlanks ((if first then part else ',' :: part) ++ rest)) :
    ∃ s', arrive bracket outer first s = .done (.inl (bracket :: outer)) s' ∧
      skipBlanks s' = skipBlanks (w ++ rest) := by
  cases first with
  | true =>
    obtain ⟨c, part', hpart, hc⟩ := h.first
    have hfirst := skipBlanks_append hpart rest
    rw [if_pos rfl] at hs
    obtain ⟨s', henter, hs'⟩ := h.enter (skipBlanks s) rest (by rw [skipBlanks_skipBlanks, hs])
    refine ⟨s', ?_, hs'⟩
    rw [hs, hfirst] at henter
    simp [arrive, afterOpening, hs, hfirst, hc, henter]
  | false =>
    have hcomma : isBlank ',' = false := rfl
    rw [if_neg Bool.false_ne_true, List.cons_append, skipBlanks_cons hcomma] at hs
    obtain ⟨s', henter, hs'⟩ := h.enter (part ++ rest) rest rfl
    exact ⟨s', by simp [arrive, afterValue, hs, henter], hs'⟩

/-- The parts of a bracket are skipped one after the other. -/
theorem skips_parts {parts : List (List Char × List Char)}
    (henter : ∀ p ∈ parts, EntersTo bracket p.1 p.2) (hskips : ∀ p ∈ parts, Skips p.2)
    (first : Bool) :
    ∃ n, n ≤ (joined first (parts.map Prod.fst)).length ∧ ∀ outer s rest,
      skipBlanks s = skipBlanks (joined first (parts.map Prod.fst) ++ bracket.closing :: rest) →
      ∃ rest', skipBlanks rest' = skipBlanks rest ∧ ∀ budget, n ≤ budget.length →
        Reader.proceed skipStep budget (arrive bracket outer first s) =
          Reader.proceed skipStep (budget.drop n) (afterValue outer rest') := by
  induction parts generalizing first with
  | nil =>
    refine ⟨0, Nat.le_refl 0, fun outer s rest hs => ⟨rest, rfl, fun budget _ => ?_⟩⟩
    rw [arrive_end outer hs, List.drop_zero]
  | cons p parts ih =>
    rcases List.forall_mem_cons.mp henter with ⟨hp, henter⟩
    rcases List.forall_mem_cons.mp hskips with ⟨⟨k, hk, hvalue⟩, hskips⟩
    obtain ⟨n, hn, hparts⟩ := ih henter hskips false
    -- One repetition gets to the value, `k` more behind it and `n` through the other parts.
    refine ⟨k + n + 1, ?_, fun outer s rest hs => ?_⟩
    · have hlength := hp.length
      rw [List.map_cons, joined, List.length_append]
      cases first with
      | true =>
        rw [if_pos rfl]
        omega
      | false =>
        rw [if_neg Bool.false_ne_true, List.length_cons]
        omega
    · rw [List.map_cons, joined, List.append_assoc] at hs
      obtain ⟨s₁, hmore, hs₁⟩ := arrive_more outer hp hs
      have hclosing : bracket.closing = ']' ∨ bracket.closing = '}' := by
        cases bracket <;> decide
      obtain ⟨s₂, hs₂, hsteps⟩ := hvalue (bracket :: outer) s₁ _ (stops_joined hclosing _ rest) hs₁
      obtain ⟨rest', hrest', hlast⟩ := hparts outer s₂ rest hs₂
      refine ⟨rest', hrest', fun budget hbudget => ?_⟩
      cases budget with
      | nil => cases hbudget
      | cons c budget =>
        have hroom : k + n ≤ budget.length := Nat.le_of_succ_le_succ hbudget
        rw [hmore]
        show Reader.iterateWithin skipStep budget (bracket :: outer) s₁ = _
        rw [hsteps budget (by omega), List.drop_succ_cons, ← List.drop_drop]
        exact hlast (budget.drop k) (by rw [List.length_drop]; omega)

theorem skips_bracket (opening : Char) (hblank : isBlank opening = false)
    (hopen : ∀ outer s, skipStep outer (opening :: s) = afterOpening bracket outer s)
    {gap : List Char} (hgap : Blanks gap) {parts : List (List Char × List Char)}
    (henter : ∀ p ∈ parts, EntersTo bracket p.1 p.2) (hskips : ∀ p ∈ parts, Skips p.2) :
    Skips (opening :: (gap ++ (commaJoin (parts.map Prod.fst) ++ [bracket.closing]))) := by
  obtain ⟨n, hn, hparts⟩ := skips_parts henter hskips true
  rw [joined_true] at hn hparts
  refine ⟨n, ?_, fun outer s rest hrest hs => ?_⟩
  · rw [skipBlanks_cons hblank]
    simp only [List.length_cons, List.length_append]
    omega
  · rw [List.cons_append, skipBlanks_cons hblank, List.append_assoc, List.append_assoc,
      List.singleton_append] at hs
    obtain ⟨rest', hrest', hsteps⟩ := hparts outer _ rest (skipBlanks_blanks_append hgap _)
    refine ⟨rest', hrest', fun budget hbudget => ?_⟩
    rw [iterateWithin_eq_proceed, ← skipStep_skipBlanks, hs, hopen]
    exact hsteps budget hbudget

end Parts

theorem IsJson.first {w : List Char} (h : IsJson w) : ∃ c w', skipBlanks w = c :: w' ∧ c ≠ ']' := by
  induction h with
  | @padded before w after hbefore hafter h ih =>
    rcases ih with ⟨c, w', hw, hc⟩
    exact ⟨c, w' ++ after, skipBlanks_padded hbefore hw after, hc⟩
  | number h =>
    obtain ⟨c, w', hw, hc⟩ := number_first h
    refine ⟨c, w', hw, ?_⟩
    rintro rfl
    rcases hc with hc | hc <;> cases hc
  | null => exact ⟨'n', _, rfl, by decide⟩
  | true => exact ⟨'t', _, rfl, by decide⟩
  | false => exact ⟨'f', _, rfl, by decide⟩
  | text h => exact ⟨'"', _, rfl, by decide⟩
  | array hgap h ih => exact ⟨'[', _, rfl, by decide⟩
  | object hgap hkeys h ih => exact ⟨'{', _, rfl, by decide⟩

/-- The items of a list stand for themselves. -/
theorem entersTo_item {w : List Char} (h : IsJson w) : EntersTo .list w w where
  first := h.first
  enter := fun s _ hs => ⟨s, rfl, hs⟩
  length := (skipBlanks_suffix w).length_le

theorem entersTo_member {m : MemberText} (hspaced : m.Spaced) (hkey : TextContent m.key) :
    EntersTo .object m.chars m.value where
  first := ⟨'"', _, (skipBlanks_blanks_append hspaced.1 _).trans (skipBlanks_cons rfl), by decide⟩
  enter := by
    intro s rest hs
    rw [MemberText.chars, List.append_assoc, skipBlanks_blanks_append hspaced.1] at hs
    have hquote : skipBlanks s =
        '"' :: (m.key ++ '"' :: (m.after ++ ':' :: (m.value ++ rest))) := by
      rw [hs, List.cons_append, skipBlanks_cons rfl]
      simp
    have hcolon : readColon (m.after ++ ':' :: (m.value ++ rest)) = .done () (m.value ++ rest) := by
      have hblank : skipBlanks (m.after ++ ':' :: (m.value ++ rest)) =
          ':' :: (m.value ++ rest) := by
        rw [skipBlanks_blanks_append hspaced.2, skipBlanks_cons rfl]
      simp only [readColon, hblank]
    refine ⟨m.value ++ rest, ?_, rfl⟩
    simp only [Bracket.enter, hquote, skipTextTail_content hkey, Outcome.bind_done, hcolon]
  length := by
    have hle := (skipBlanks_suffix m.value).length_le
    simp only [MemberText.chars, List.length_append, List.length_cons]
    omega

theorem IsJson.skips {w : List Char} (h : IsJson w) : Skips w := by
  induction h with
  | padded hbefore hafter _ ih => exact ih.padded hbefore hafter
  | null => exact skips_null
  | true => exact skips_true
  | false => exact skips_false
  | number h => exact skips_number h
  | text h => exact skips_text h
  | @array gap items hgap h ih =>
    have henter : ∀ p ∈ items.map fun w => (w, w), EntersTo .list p.1 p.2 :=
      List.forall_mem_map.mpr fun w hw => entersTo_item (h w hw)
    have hskips := skips_bracket '[' rfl (fun _ _ => rfl) hgap henter (List.forall_mem_map.mpr ih)
    simpa [arrayChars, Bracket.closing, Function.comp_def] using hskips
  | @object gap members hgap hkeys h ih =>
    have henter : ∀ p ∈ members.map fun m => (m.chars, m.value), EntersTo .object p.1 p.2 :=
      List.forall_mem_map.mpr fun m hm => entersTo_member (hkeys m hm).1 (hkeys m hm).2
    have hskips := skips_bracket '{' rfl (fun _ _ => rfl) hgap henter (List.forall_mem_map.mpr ih)
    simpa [objectChars, Bracket.closing, Function.comp_def] using hskips

/-- Values of every kind are skipped, with what stands in them. -/
theorem reads_skipValue {w : List Char} (h : IsJson w) : Reads skipValue w (.ok ()) :=
  reads_skipValue_of_skips h.skips

end Json
end PascalTree
