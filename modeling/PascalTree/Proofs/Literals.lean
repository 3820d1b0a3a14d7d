import PascalTree.Proofs.LiteralGrammar
import PascalTree.Proofs.Preorder

/-!
# Literals — literals, their texts and the literals of a tree

A literal is faithful to its text if its value is the one that the text resolves to. What then
holds of its value and its text follows from the grammar and from the ranges of numbers:

* `Grammar.Avoids`: languages in whose texts a character never occurs;
* `Literal.ofText_eq_ok`: what is made of a text is faithful to it;
* `Literal.Faithful.isFinite`, `Literal.Faithful.newline_notMem`: its value and its text;
* `Node.literals`: the literals of a tree in pre-order, with the equation of the recursion.
-/

namespace PascalTree

/-! ## Texts without line ends -/

namespace Grammar

open Computability

/-- The character occurs in no text of the language. -/
def Avoids (c : Char) (l : Language Char) : Prop := ∀ w ∈ l, c ∉ w

namespace Avoids

variable {c : Char} {l m : Language Char}

theorem one : Avoids c 1 := by
  intro w hw
  rw [Language.mem_one] at hw
  rw [hw]
  exact List.not_mem_nil

theorem oneOf {p : Char → Prop} (h : ¬ p c) : Avoids c (oneOf p) := by
  rintro w ⟨d, hd, rfl⟩ hc
  rw [List.mem_singleton] at hc
  exact h (hc ▸ hd)

theorem singleton {v : List Char} (h : c ∉ v) : Avoids c {v} := by
  rintro w rfl
  exact h

theorem add (hl : Avoids c l) (hm : Avoids c m) : Avoids c (l + m) := by
  rintro w (hw | hw)
  · exact hl w hw
  · exact hm w hw

theorem mul (hl : Avoids c l) (hm : Avoids c m) : Avoids c (l * m) := by
  intro w hw hc
  rcases Language.mem_mul.mp hw with ⟨a, ha, b, hb, rfl⟩
  rcases List.mem_append.mp hc with hc | hc
  · exact hl a ha hc
  · exact hm b hb hc

theorem kstar (hl : Avoids c l) : Avoids c l∗ := by
  intro w hw hc
  rcases Language.mem_kstar.mp hw with ⟨pieces, rfl, hpieces⟩
  rcases List.mem_flatten.mp hc with ⟨v, hv, hcv⟩
  exact hl v (hpieces v hv) hcv

end Avoids

theorem avoids_digits : Avoids '\n' digits :=
  .mul (.oneOf (by decide)) (.kstar (.oneOf (by decide)))

theorem avoids_sign : Avoids '\n' sign := .add .one (.oneOf (by decide))

theorem avoids_exponent : Avoids '\n' exponent :=
  .mul (.oneOf (by decide)) (.mul avoids_sign avoids_digits)

theorem avoids_anyCase {word : List Char} (h : ∀ d ∈ word, '\n' ≠ d ∧ '\n' ≠ d.toUpper) :
    Avoids '\n' (anyCase word) := by
  induction word with
  | nil => exact .one
  | cons d word ih =>
    have hd := h d List.mem_cons_self
    have htail := ih fun e he => h e (List.mem_cons_of_mem d he)
    rw [anyCase, List.map_cons, List.prod_cons]
    exact .mul (.oneOf (by simp [hd])) htail

theorem avoids_quoted {q : Char} (hq : q ≠ '\n') : Avoids '\n' (quoted q) := by
  have hdelimiter : Avoids '\n' {[q]} := .singleton (by simp [hq.symm])
  have hpiece : Avoids '\n' (piece q) :=
    .add (.oneOf (by simp)) (.singleton (by simp [hq.symm]))
  exact .mul hdelimiter (.mul (.kstar hpiece) hdelimiter)

/-- No literal extends over several lines. -/
theorem avoids_ofType (type : LiteralType) : Avoids '\n' (ofType type) := by
  cases type with
  | integer => exact .mul avoids_sign avoids_digits
  | real =>
    have hfraction : Avoids '\n' fraction := .mul avoids_digits (.add .one avoids_exponent)
    have hpoint : Avoids '\n' {['.']} := .singleton (by decide)
    exact .add (.mul avoids_sign (.mul avoids_digits (.mul hpoint hfraction)))
      (.mul avoids_sign (.mul avoids_digits avoids_exponent))
  | boolean => exact .add (avoids_anyCase (by simp)) (avoids_anyCase (by simp))
  | string => exact .add (avoids_quoted (by decide)) (avoids_quoted (by decide))

end Grammar

/-! ## Literals with the values of their texts -/

theorem Value.real?_eq_some {v : Value} {x : Numeric.Binary64} :
    v.real? = some x ↔ v = .real x := by
  cases v <;> simp [Value.real?]

namespace Literal

/-- The literal carries the value that its text resolves to. -/
def Faithful (l : Literal) : Prop := resolve l.text = .ok l.value

/-- What is made of a text keeps the text and carries its value. -/
theorem ofText_eq_ok {text : String} {info : NodeInfo} {l : Literal} :
    ofText text info = .ok l ↔ l.text = text ∧ l.info = info ∧ l.Faithful := by
  obtain ⟨text', value', info'⟩ := l
  unfold ofText Faithful
  cases hvalue : resolve text with
  | ok value =>
    simp only [Except.map, Except.ok.injEq, Literal.mk.injEq]
    constructor
    · rintro ⟨rfl, rfl, rfl⟩
      exact ⟨rfl, rfl, hvalue⟩
    · rintro ⟨rfl, rfl, hfaithful⟩
      rw [hvalue] at hfaithful
      exact ⟨rfl, Except.ok.inj hfaithful, rfl⟩
  | error error =>
    simp only [Except.map, reduceCtorEq, false_iff]
    rintro ⟨rfl, _, hfaithful⟩
    rw [hvalue] at hfaithful
    cases hfaithful

theorem ofText_self_iff {l : Literal} : ofText l.text l.info = .ok l ↔ l.Faithful := by
  rw [ofText_eq_ok]
  exact ⟨fun h => h.2.2, fun h => ⟨rfl, rfl, h⟩⟩

namespace Faithful

variable {l : Literal}

/-- A text that overflows is refused, so a real value is finite. -/
theorem isFinite (h : l.Faithful) {x : Numeric.Binary64} (hx : l.value = .real x) :
    x.isFinite = true := by
  have hresolve : resolve l.text = .ok (.real x) := by
    rw [← hx]
    exact h
  unfold resolve at hresolve
  cases hform : (Form.parse? l.text).bind Form.value? with
  | none => simp [hform] at hresolve
  | some value =>
    simp only [hform, Except.ok.injEq] at hresolve
    subst hresolve
    rcases Option.bind_eq_some_iff.mp hform with ⟨form, _, heval⟩
    cases form with
    | integer negative ds => simp [Form.value?] at heval
    | real negative whole fraction exponent =>
      simp only [Form.value?] at heval
      split at heval
      · rename_i hfinite
        cases heval
        exact hfinite
      · cases heval
    | boolean b => cases heval
    | string content => cases heval

theorem newline_notMem (h : l.Faithful) : '\n' ∉ l.text.toList := by
  have hclass : classify l.text = .ok l.value.type := Grammar.resolve_type h
  exact Grammar.avoids_ofType l.value.type _ (Grammar.classify_eq_ok.mp hclass)

end Faithful

end Literal

/-! ## The literals of a tree -/

namespace Node

/-- The literal that a node is, if it is one. -/
def literal? : Node → Option Literal
  | literal l => some l
  | _ => none

theorem literal?_eq_some {n : Node} {l : Literal} : n.literal? = some l ↔ n = .literal l := by
  cases n <;> simp [literal?]

/-- The literals of a tree in pre-order. -/
def literals (n : Node) : List Literal := n.preorder.filterMap literal?

theorem mem_literals {n : Node} {l : Literal} : l ∈ n.literals ↔ .literal l ∈ n.preorder := by
  simp [literals, literal?_eq_some]

/-- The literals of a tree are its root, if it is one, and those below its children in turn. -/
theorem literals_eq (n : Node) : n.literals = n.literal?.toList ++ n.children.flatMap literals := by
  have hroot : [n].filterMap literal? = n.literal?.toList := by
    cases h : n.literal? <;> simp [h]
  have hbelow : (n.children.flatMap preorder).filterMap literal? = n.children.flatMap literals := by
    rw [List.filterMap_flatMap]
    rfl
  rw [← hroot, ← hbelow, ← List.filterMap_append, literals, preorder_eq, List.singleton_append]

end Node

end PascalTree
