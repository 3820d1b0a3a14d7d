import PascalTree.Json.Container

/-!
# Gives — what a reader can give

`Gives reader p` says that every value the reader gives has the property `p`, whatever text it was
given for. Texts that are refused do not matter here, and neither does the form of those that are
accepted: blanks, the order of members and unknown members disappear in the properties of parts.

* `Gives.bind`, `Gives.closedBy`, …: the properties of composed readers;
* `Gives.iterate`: what a repeated step keeps holds of its result;
* `gives_wrongType`: a value of the wrong type is never given.
-/

namespace PascalTree
namespace Json

variable {α β σ : Type} {p : α → Prop} {q : β → Prop}

/-- Every value that the reader gives has the property, whatever the text is. -/
def Gives (reader : Reader α) (p : α → Prop) : Prop :=
  ∀ s value rest, reader s = .done value rest → p value

namespace Gives

/-! ## Readers that give nothing -/

theorem failHere (fault : Fault) : Gives (Reader.failHere fault) p := by
  intro s value rest h
  cases h

theorem refuse (fault : Fault) : Gives (Reader.refuse fault) p := by
  intro s value rest h
  cases h

/-! ## Sequences of readers -/

theorem pure {value : α} (h : p value) : Gives (Pure.pure value) p := by
  intro s value' rest hdone
  cases hdone
  exact h

theorem mono {p' : α → Prop} {reader : Reader α} (h : Gives reader p)
    (himp : ∀ value, p value → p' value) : Gives reader p' :=
  fun s value rest hdone => himp value (h s value rest hdone)

theorem any (reader : Reader α) : Gives reader fun _ => True :=
  fun _ _ _ _ => trivial

theorem bind {reader : Reader α} {next : α → Reader β} (h : Gives reader p)
    (hnext : ∀ value, p value → Gives (next value) q) : Gives (reader >>= next) q := by
  intro s value rest hdone
  rcases Outcome.bind_eq_done hdone with ⟨a, s', hread, hrest⟩
  exact hnext a (h s a s' hread) s' value rest hrest

theorem settle {reader : Reader α} (h : Gives reader p) : Gives (Reader.settle reader) p := by
  intro s value rest hdone
  -- Settling moves faults only, so the value is the one that was given before.
  cases hread : reader s with
  | done value' rest' =>
    rw [Reader.settle, hread] at hdone
    cases hdone
    exact h s _ _ hread
  | pending fault rest' =>
    rw [Reader.settle, hread] at hdone
    cases hdone
  | failed fault mark =>
    rw [Reader.settle, hread] at hdone
    cases hdone

theorem startValue {reader : Reader α} (h : Gives reader p) : Gives (startValue reader) p := by
  intro s value rest hdone
  unfold Json.startValue at hdone
  split at hdone
  · cases hdone
  · exact h _ value rest hdone

theorem closedBy {close : Reader Unit} {content : Reader α} (h : Gives content p) :
    Gives (Reader.closedBy close content) p := by
  intro s value rest hdone
  unfold Reader.closedBy at hdone
  split at hdone
  · rename_i value' rest' hread
    rcases Outcome.bind_eq_done hdone with ⟨_, s', _, hclosed⟩
    cases hclosed
    exact h s _ _ hread
  · cases hdone
  · cases hdone

/-! ## Repetition -/

theorem iterateWithin {step : σ → Reader (σ ⊕ β)} {invariant : σ → Prop}
    (hstep : ∀ state, invariant state → Gives (step state) (Sum.elim invariant q))
    (budget : List Char) {state : σ} (h : invariant state) :
    Gives (Reader.iterateWithin step budget state) q := by
  intro s value rest hdone
  rw [Reader.iterateWithin.eq_def] at hdone
  split at hdone
  · rename_i result rest' hread
    cases hdone
    exact hstep state h s _ _ hread
  · rename_i state' rest' hread
    have hstate' : invariant state' := hstep state h s _ _ hread
    cases budget with
    | nil => cases hdone
    | cons c budget => exact iterateWithin hstep budget hstate' rest' value rest hdone
  · cases hdone
  · cases hdone

/-- What a step keeps until it gives a result holds of that result. -/
theorem iterate {step : σ → Reader (σ ⊕ β)} {invariant : σ → Prop}
    (hstep : ∀ state, invariant state → Gives (step state) (Sum.elim invariant q)) {state : σ}
    (h : invariant state) : Gives (Reader.iterate step state) q :=
  fun s value rest hdone => iterateWithin hstep s h s value rest hdone

end Gives

/-! ## Values of another type -/

/-- A value of the wrong type is looked at, but never given. -/
theorem gives_wrongType (expected : Expected) : Gives (wrongType expected) p := by
  have hrefused : ∀ {γ : Type} {outcome : Outcome γ} {fault : γ → Fault} {value : α}
      {rest : List Char},
      (outcome.bind fun found => Reader.refuse (fault found)) ≠ .done value rest := by
    intro γ outcome fault value rest hdone
    rcases Outcome.bind_eq_done hdone with ⟨a, s', _, hrefuse⟩
    cases hrefuse
  intro s value rest hdone
  unfold wrongType at hdone
  split at hdone
  · exact absurd hdone hrefused
  · exact absurd hdone hrefused
  · exact absurd hdone hrefused
  · exact absurd hdone hrefused
  · cases hdone
  · cases hdone
  · exact absurd hdone hrefused
  · split at hdone
    · exact absurd hdone hrefused
    · cases hdone

end Json
end PascalTree
