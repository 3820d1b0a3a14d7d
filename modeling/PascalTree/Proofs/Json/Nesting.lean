import PascalTree.Json.Document

/-!
# Nesting — the brackets of a text and the depth of a document

`nesting` counts brackets in a text as they come, outside of strings. `Document.depth` is the depth
of the document that the text was written from. The two agree on compact texts:

* `Document.chars`: the compact text of a document as a list of characters, and its equations;
* `Scan`: one pass over a text;
* `nesting_render`: the most brackets that are open at a time are the depth of the document.
-/

namespace PascalTree
namespace Json

/-! ## Compact texts -/

/-- Texts divided by commas. -/
def commaJoin : List (List Char) → List Char
  | [] => []
  | w :: ws => w ++ ws.flatMap (',' :: ·)

/-- The characters of a string in quotes. -/
def textChars (s : String) : List Char := '"' :: (s.toList.flatMap escapeChar ++ ['"'])

theorem writeText_eq (s : String) (rest : List Char) : writeText s rest = textChars s ++ rest := by
  simp [writeText, textChars]

namespace Document

/-- Induction over documents: what passes from the parts of a document to the document holds
everywhere. -/
theorem parts_induction {motive : Document → Prop} (flag : ∀ b, motive (.flag b))
    (number : ∀ n, motive (.number n)) (text : ∀ s, motive (.text s))
    (array : ∀ items, (∀ d ∈ items, motive d) → motive (.array items))
    (object : ∀ members, (∀ m ∈ members, motive m.2) → motive (.object members))
    (d : Document) : motive d := by
  cases d with
  | flag b => exact flag b
  | number n => exact number n
  | text s => exact text s
  | array items =>
    apply array
    intro d hd
    exact parts_induction flag number text array object d
  | object members =>
    apply object
    intro m hm
    exact parts_induction flag number text array object m.2
termination_by sizeOf d
decreasing_by
  · have := List.sizeOf_lt_of_mem hd
    simp only [Document.array.sizeOf_spec]
    omega
  · have hlt := List.sizeOf_lt_of_mem hm
    obtain ⟨key, value⟩ := m
    simp only [Document.object.sizeOf_spec, Prod.mk.sizeOf_spec] at hlt ⊢
    omega

/-- The compact text of a document. -/
def chars (d : Document) : List Char := d.write []

/-- The compact text of a member. -/
def memberChars (m : String × Document) : List Char := textChars m.1 ++ ':' :: m.2.chars

theorem writeMoreItems_eq {items : List Document}
    (h : ∀ d ∈ items, ∀ rest, d.write rest = d.chars ++ rest) (rest : List Char) :
    writeMoreItems items rest = (items.map chars).flatMap (',' :: ·) ++ rest := by
  induction items with
  | nil => rfl
  | cons d items ih =>
    have htail := ih fun e he => h e (List.mem_cons_of_mem d he)
    rw [writeMoreItems, htail, h d List.mem_cons_self]
    simp

theorem writeItems_eq {items : List Document}
    (h : ∀ d ∈ items, ∀ rest, d.write rest = d.chars ++ rest) (rest : List Char) :
    writeItems items rest = commaJoin (items.map chars) ++ rest := by
  cases items with
  | nil => rfl
  | cons d items =>
    have htail := writeMoreItems_eq (fun e he => h e (List.mem_cons_of_mem d he)) rest
    rw [writeItems, htail, h d List.mem_cons_self]
    simp [commaJoin]

theorem writeMember_eq {m : String × Document} (h : ∀ rest, m.2.write rest = m.2.chars ++ rest)
    (rest : List Char) : writeMember m rest = memberChars m ++ rest := by
  obtain ⟨key, value⟩ := m
  rw [writeMember, writeText_eq, h rest]
  simp [memberChars]

theorem writeMoreMembers_eq {members : List (String × Document)}
    (h : ∀ m ∈ members, ∀ rest, m.2.write rest = m.2.chars ++ rest) (rest : List Char) :
    writeMoreMembers members rest = (members.map memberChars).flatMap (',' :: ·) ++ rest := by
  induction members with
  | nil => rfl
  | cons m members ih =>
    have htail := ih fun e he => h e (List.mem_cons_of_mem m he)
    rw [writeMoreMembers, htail, writeMember_eq (h m List.mem_cons_self)]
    simp

theorem writeMembers_eq {members : List (String × Document)}
    (h : ∀ m ∈ members, ∀ rest, m.2.write rest = m.2.chars ++ rest) (rest : List Char) :
    writeMembers members rest = commaJoin (members.map memberChars) ++ rest := by
  cases members with
  | nil => rfl
  | cons m members =>
    have htail := writeMoreMembers_eq (fun e he => h e (List.mem_cons_of_mem m he)) rest
    rw [writeMembers, htail, writeMember_eq (h m List.mem_cons_self)]
    simp [commaJoin]

/-- A document is written before a rest by putting its compact text there. -/
theorem write_eq (d : Document) (rest : List Char) : d.write rest = d.chars ++ rest := by
  induction d using parts_induction generalizing rest with
  | flag b => simp [chars, write, writeWord]
  | number n => simp [chars, write]
  | text s => simp [chars, write, writeText_eq]
  | array items ih =>
    simp [chars, write, writeItems_eq ih]
  | object members ih =>
    simp [chars, write, writeMembers_eq ih]

theorem chars_flag (b : Bool) :
    (flag b).chars = if b then ['t', 'r', 'u', 'e'] else ['f', 'a', 'l', 's', 'e'] := by
  cases b <;> rfl

theorem chars_number (n : Nat) : (number n).chars = Nat.toDigits 10 n := by
  simp [chars, write]

theorem chars_text (s : String) : (text s).chars = textChars s := by
  simp [chars, write, writeText_eq]

theorem chars_array (items : List Document) :
    (array items).chars = '[' :: (commaJoin (items.map chars) ++ [']']) := by
  rw [chars, write, writeItems_eq fun d _ => write_eq d]

theorem chars_object (members : List (String × Document)) :
    (object members).chars = '{' :: (commaJoin (members.map memberChars) ++ ['}']) := by
  rw [chars, write, writeMembers_eq fun m _ => write_eq m.2]

/-! ## Depth -/

mutual

/-- How deep lists and objects are nested in a document. -/
def depth : Document → Nat
  | .flag _ => 0
  | .number _ => 0
  | .text _ => 0
  | .array items => depthItems items + 1
  | .object members => depthMembers members + 1
termination_by structural d => d

def depthItems : List Document → Nat
  | [] => 0
  | item :: items => max item.depth (depthItems items)
termination_by structural items => items

def depthMembers : List (String × Document) → Nat
  | [] => 0
  | member :: members => max (depthMember member) (depthMembers members)
termination_by structural members => members

def depthMember : String × Document → Nat
  | (_, value) => value.depth
termination_by structural member => member

end

theorem depth_array (items : List Document) :
    (array items).depth = (items.map depth).foldr max 0 + 1 := by
  have h : ∀ ds : List Document, depthItems ds = (ds.map depth).foldr max 0 := by
    intro ds
    induction ds with
    | nil => rfl
    | cons d ds ih => simp [depthItems, ih]
  rw [depth, h]

theorem depth_object (members : List (String × Document)) :
    (object members).depth = (members.map fun m => m.2.depth).foldr max 0 + 1 := by
  have h : ∀ ms : List (String × Document),
      depthMembers ms = (ms.map fun m => m.2.depth).foldr max 0 := by
    intro ms
    induction ms with
    | nil => rfl
    | cons m ms ih =>
      obtain ⟨key, value⟩ := m
      simp [depthMembers, depthMember, ih]
  rw [depth, h]

theorem foldr_max_le_iff {ns : List Nat} {k : Nat} : ns.foldr max 0 ≤ k ↔ ∀ n ∈ ns, n ≤ k := by
  induction ns with
  | nil => simp
  | cons n ns ih => rw [List.foldr_cons, Nat.max_le, ih, List.forall_mem_cons]

theorem le_foldr_max {ns : List Nat} {n : Nat} (hn : n ∈ ns) : n ≤ ns.foldr max 0 :=
  foldr_max_le_iff.mp (Nat.le_refl _) n hn

theorem depth_array_le_iff {items : List Document} {k : Nat} :
    (array items).depth ≤ k + 1 ↔ ∀ item ∈ items, item.depth ≤ k := by
  rw [depth_array, Nat.add_le_add_iff_right, foldr_max_le_iff, List.forall_mem_map]

theorem depth_object_le_iff {members : List (String × Document)} {k : Nat} :
    (object members).depth ≤ k + 1 ↔ ∀ m ∈ members, m.2.depth ≤ k := by
  rw [depth_object, Nat.add_le_add_iff_right, foldr_max_le_iff, List.forall_mem_map]

end Document

/-! ## One pass over a text -/

/-- Where a pass over a text stands. -/
inductive ScanMode where
  | outside
  | inString
  /-- Behind a backslash in a string. -/
  | escaped

/-- A pass over a text: how many brackets are open, and the most that were open at a time. -/
structure Scan where
  level : Nat
  deepest : Nat
  mode : ScanMode

namespace Scan

/-- The pass goes on by one character. Brackets count outside of strings only. -/
def next (scan : Scan) (c : Char) : Scan :=
  match scan.mode with
  | .outside =>
    if c = '{' ∨ c = '[' then
      { scan with level := scan.level + 1, deepest := max scan.deepest (scan.level + 1) }
    else if c = '}' ∨ c = ']' then { scan with level := scan.level - 1 }
    else if c = '"' then { scan with mode := .inString }
    else scan
  | .inString =>
    if c = '"' then { scan with mode := .outside }
    else if c = '\\' then { scan with mode := .escaped }
    else scan
  | .escaped => { scan with mode := .inString }

/-- The pass goes on to the end of a text. -/
def run (scan : Scan) (text : List Char) : Scan := text.foldl next scan

@[simp]
theorem run_nil (scan : Scan) : scan.run [] = scan := rfl

@[simp]
theorem run_cons (scan : Scan) (c : Char) (text : List Char) :
    scan.run (c :: text) = (scan.next c).run text := rfl

theorem run_append (scan : Scan) (text text' : List Char) :
    scan.run (text ++ text') = (scan.run text).run text' := List.foldl_append

/-- A text that changes nothing, character by character, changes nothing as a whole. -/
theorem run_eq_self {scan : Scan} {text : List Char} (h : ∀ c ∈ text, scan.next c = scan) :
    scan.run text = scan := by
  induction text with
  | nil => rfl
  | cons c text ih =>
    rw [run_cons, h c List.mem_cons_self]
    exact ih fun d hd => h d (List.mem_cons_of_mem c hd)

end Scan

/-- The most brackets that are open at a time in a text. -/
def nesting (text : String) : Nat := (Scan.run ⟨0, 0, .outside⟩ text.toList).deepest

/-! ## Texts of known depth -/

/-- A pass over the text ends outside of strings with as many brackets open as before, and meets
brackets nested `k` deep on its way. -/
def Nests (k : Nat) (text : List Char) : Prop :=
  ∀ level deepest, level ≤ deepest →
    Scan.run ⟨level, deepest, .outside⟩ text = ⟨level, max deepest (level + k), .outside⟩

namespace Nests

theorem of_unchanged {text : List Char}
    (h : ∀ level deepest,
      Scan.run ⟨level, deepest, .outside⟩ text = ⟨level, deepest, .outside⟩) : Nests 0 text := by
  intro level deepest hle
  rw [h, Nat.add_zero, Nat.max_eq_left hle]

theorem nil : Nests 0 [] := of_unchanged fun _ _ => rfl

theorem append {k k' : Nat} {text text' : List Char} (h : Nests k text) (h' : Nests k' text') :
    Nests (max k k') (text ++ text') := by
  intro level deepest hle
  have hle' : level ≤ max deepest (level + k) := Nat.le_trans hle (Nat.le_max_left _ _)
  rw [Scan.run_append, h level deepest hle, h' level _ hle', Nat.max_assoc, Nat.add_max_add_left]

/-- A comma or a colon changes nothing. -/
theorem cons {k : Nat} {c : Char} {text : List Char} (hc : c = ',' ∨ c = ':')
    (h : Nests k text) : Nests k (c :: text) := by
  intro level deepest hle
  have hnext : Scan.next ⟨level, deepest, .outside⟩ c = ⟨level, deepest, .outside⟩ := by
    rcases hc with rfl | rfl <;> rfl
  rw [Scan.run_cons, hnext]
  exact h level deepest hle

/-- A pair of brackets is one level more. -/
theorem bracket {k : Nat} {opening closing : Char} {text : List Char}
    (hopen : opening = '{' ∨ opening = '[') (hclose : closing = '}' ∨ closing = ']')
    (h : Nests k text) : Nests (k + 1) (opening :: (text ++ [closing])) := by
  intro level deepest hle
  -- Inside one more bracket is open, and the closing one takes it back.
  have hfirst : Scan.next ⟨level, deepest, .outside⟩ opening =
      ⟨level + 1, max deepest (level + 1), .outside⟩ := by
    rcases hopen with rfl | rfl <;> rfl
  have hlast : ∀ m, Scan.next ⟨level + 1, m, .outside⟩ closing = ⟨level, m, .outside⟩ := by
    intro m
    rcases hclose with rfl | rfl <;> rfl
  have hdeepest : max (max deepest (level + 1)) (level + 1 + k) =
      max deepest (level + (k + 1)) := by
    omega
  rw [Scan.run_cons, hfirst, Scan.run_append, h _ _ (Nat.le_max_right _ _), Scan.run_cons, hlast,
    hdeepest, Scan.run_nil]

end Nests

namespace Scan

variable (level deepest : Nat)

/-- An escape ends inside the string again, and a character that is not escaped does not end it. -/
theorem run_escapeChar (c : Char) :
    run ⟨level, deepest, .inString⟩ (escapeChar c) = ⟨level, deepest, .inString⟩ := by
  -- The digits behind `\u` neither end the string nor start another escape.
  have hhex : ∀ k, k < 16 → Nat.digitChar k ≠ '"' ∧ Nat.digitChar k ≠ '\\' := by decide
  have hfirst := hhex (c.toNat / 16 % 16) (Nat.mod_lt _ (by decide))
  have hsecond := hhex (c.toNat % 16) (Nat.mod_lt _ (by decide))
  unfold escapeChar
  repeat' split
  all_goals simp_all [next, hexDigit]

theorem run_escaped (cs : List Char) :
    run ⟨level, deepest, .inString⟩ (cs.flatMap escapeChar) = ⟨level, deepest, .inString⟩ := by
  induction cs with
  | nil => rfl
  | cons c cs ih => rw [List.flatMap_cons, run_append, run_escapeChar, ih]

end Scan

theorem nests_textChars (s : String) : Nests 0 (textChars s) := by
  apply Nests.of_unchanged
  intro level deepest
  rw [textChars, Scan.run_cons]
  simp [Scan.next, Scan.run_append, Scan.run_escaped]

theorem nests_digits (n : Nat) : Nests 0 (Nat.toDigits 10 n) := by
  apply Nests.of_unchanged
  intro level deepest
  apply Scan.run_eq_self
  intro c hc
  have hdigit : c.isDigit = true := Nat.isDigit_of_mem_toDigits (by decide) (by decide) hc
  have hne : ∀ d : Char, d.isDigit = false → c ≠ d := by
    rintro d hd rfl
    rw [hd] at hdigit
    cases hdigit
  simp [Scan.next, hne '{' rfl, hne '[' rfl, hne '}' rfl, hne ']' rfl, hne '"' rfl]

/-- Texts divided by commas nest as deep as the deepest of them. -/
theorem nests_commaJoin {α : Type} {k : α → Nat} {text : α → List Char} {parts : List α}
    (h : ∀ a ∈ parts, Nests (k a) (text a)) :
    Nests ((parts.map k).foldr max 0) (commaJoin (parts.map text)) := by
  have hmore : ∀ {as : List α}, (∀ a ∈ as, Nests (k a) (text a)) →
      Nests ((as.map k).foldr max 0) ((as.map text).flatMap (',' :: ·)) := by
    intro as has
    induction as with
    | nil => exact Nests.nil
    | cons a as ih =>
      have htail := ih fun b hb => has b (List.mem_cons_of_mem a hb)
      exact (Nests.cons (Or.inl rfl) (has a List.mem_cons_self)).append htail
  cases parts with
  | nil => exact Nests.nil
  | cons a parts =>
    exact (h a List.mem_cons_self).append (hmore fun b hb => h b (List.mem_cons_of_mem a hb))

/-- The brackets of a compact text nest as deep as the document it was written from. -/
theorem Document.nests_chars (d : Document) : Nests d.depth d.chars := by
  induction d using parts_induction with
  | flag b =>
    rw [chars_flag]
    apply Nests.of_unchanged
    cases b <;> exact fun _ _ => rfl
  | number n =>
    rw [chars_number]
    exact nests_digits n
  | text s =>
    rw [chars_text]
    exact nests_textChars s
  | array items ih =>
    rw [chars_array, depth_array]
    exact Nests.bracket (Or.inr rfl) (Or.inr rfl) (nests_commaJoin ih)
  | object members ih =>
    rw [chars_object, depth_object]
    refine Nests.bracket (Or.inl rfl) (Or.inl rfl) (nests_commaJoin ?_)
    intro m hm
    -- Whatever brackets a key holds are part of a string.
    have hmember := (nests_textChars m.1).append (Nests.cons (Or.inr rfl) (ih m hm))
    rwa [Nat.zero_max] at hmember

theorem Nests.nesting_eq {k : Nat} {text : String} (h : Nests k text.toList) :
    nesting text = k := by
  rw [nesting, h 0 0 (Nat.le_refl 0)]
  simp

theorem nesting_render (d : Document) : nesting d.render = d.depth := by
  apply Nests.nesting_eq
  rw [Document.render, String.toList_ofList]
  exact d.nests_chars

/-- Brackets inside of strings do not count. -/
example : nesting "[\"[[[\",[]]" = 2 := by decide

end Json
end PascalTree
