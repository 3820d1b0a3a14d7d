import PascalTree.Proofs.KindCounts
import PascalTree.Proofs.Numerals
import PascalTree.Proofs.OutlineDecoding
import PascalTree.Proofs.OutlineLines
import PascalTree.Proofs.QuotedTexts
import PascalTree.Proofs.Stored.Accepted

/-!
# ReportAgreement — what the reports on one program say about each other

Three reports walk the tree of a program on their own: the outline, the numbers of its nodes by
kind, and the names of its identifiers. They are compared here through their texts, by what a
reader of these texts can count:

* `Report.row?`: the name and the number on a line of a report of numbers;
* `Report.occurring`: the kinds that have a line in that report;
* `Report.map_row?_lines_stats`: the report of numbers, read back line by line;
* `Report.total_occurring`: the numbers by kind add up to the number of nodes;
* `Report.reports_agree`: the reports on a loaded program agree.

The lines of a text are what stands between its line ends, so a line end inside a name would be
counted too. Inside the other labels there is none: those of literals belong to the grammar.
-/

namespace PascalTree

open Numeric (total)

/-- The names of kinds can be read back from their lines. -/
theorem Kind.name_isPlain (k : Kind) :
    ':' ∉ k.name.toList ∧ '\n' ∉ k.name.toList ∧ k.name.toList.head? ≠ some ' ' := by
  cases k <;> decide

namespace Node

/-- The name of an identifier. -/
def identName? : Node → Option String
  | .ident n => some n.name
  | _ => none

theorem identName?_eq_some {n : Node} {name : String} :
    n.identName? = some name ↔ ∃ i, n = .ident i ∧ i.name = name := by
  cases n <;> simp [identName?]

theorem isSome_identName? (n : Node) : n.identName?.isSome = decide (n.kind = .ident) := by
  cases n <;> rfl

end Node

namespace Report

/-! ## Lines with a number -/

/-- A name and its number on one line. -/
def row (indent name : String) (n : Nat) : String := indent ++ name ++ ": " ++ toString n

/-- The name and the number on a line `name: number`, which may be indented. -/
def row? (line : String) : Option (String × Nat) :=
  let entry := line.toList.dropWhile (· = ' ')
  match entry.dropWhile (· ≠ ':') with
  | ':' :: ' ' :: ds =>
    if !ds.isEmpty && ds.all Char.isDigit then
      some (String.ofList (entry.takeWhile (· ≠ ':')), Numeric.digitsValue ds)
    else none
  | _ => none

section Row

variable {indent name : String}

theorem toList_row (n : Nat) :
    (row indent name n).toList =
      indent.toList ++ (name.toList ++ ':' :: ' ' :: Nat.toDigits 10 n) := by
  simp [row]

theorem row?_row (hindent : indent.toList.all (· = ' ') = true) (hcolon : ':' ∉ name.toList)
    (hblank : name.toList.head? ≠ some ' ') (n : Nat) :
    row? (row indent name n) = some (name, n) := by
  -- Only the indentation is dropped, since the name does not start with a blank.
  have hentry : (name.toList ++ ':' :: ' ' :: Nat.toDigits 10 n).dropWhile (· = ' ') =
      name.toList ++ ':' :: ' ' :: Nat.toDigits 10 n := by
    cases h : name.toList with
    | nil => rfl
    | cons c cs =>
      have hc : c ≠ ' ' := by simpa [h] using hblank
      exact List.dropWhile_cons_of_neg (by simpa using hc)
  have hname : ∀ c ∈ name.toList, decide (c ≠ ':') = true := by
    intro c hc
    exact decide_eq_true (ne_of_mem_of_not_mem hc hcolon)
  have hdigits : (Nat.toDigits 10 n).all Char.isDigit = true :=
    List.all_eq_true.mpr fun c hc => Nat.isDigit_of_mem_toDigits (by decide) (by decide) hc
  have hvalue : Numeric.digitsValue (Nat.toDigits 10 n) = n := by
    rw [Grammar.digitsValue_eq_natural, Grammar.natural_toDigits]
  -- The first colon ends the name: the indentation and the name have none.
  simp only [row?, toList_row]
  rw [List.dropWhile_append_of_pos (List.all_eq_true.mp hindent), hentry,
    List.dropWhile_append_of_pos hname, List.takeWhile_append_of_pos hname]
  simp [hdigits, hvalue, Nat.toDigits_ne_nil]

theorem newline_notMem_row (hindent : '\n' ∉ indent.toList) (hname : '\n' ∉ name.toList)
    (n : Nat) : '\n' ∉ (row indent name n).toList := by
  have hdigits : '\n' ∉ Nat.toDigits 10 n := by
    intro h
    exact absurd (Nat.isDigit_of_mem_toDigits (by decide) (by decide) h) (by decide)
  simp [toList_row, hindent, hname, hdigits]

end Row

/-! ## The report of numbers -/

/-- The kinds of which a program has a node, in the order of reports. -/
def occurring (p : Program) : List Kind := Kind.all.filter fun k => 0 < countKind p k

theorem stats_eq (p : Program) :
    stats p = Text.joinLines (row "" "nodes" (Node.program p).count ::
      (occurring p).map fun k => row "  " k.name (countKind p k)) := by
  have hrows : (Kind.all.filterMap fun k =>
      if 0 < countKind p k then some (row "  " k.name (countKind p k)) else none) =
      (occurring p).map fun k => row "  " k.name (countKind p k) := by
    rw [occurring, ← List.filterMap_eq_map', List.filterMap_filter]
    simp
  rw [stats_eq_countKind, ← hrows]
  rfl

theorem map_row?_lines_stats (p : Program) :
    (Text.lines (stats p)).map row? =
      some ("nodes", (Node.program p).count) ::
        (occurring p).map fun k => some (k.name, countKind p k) := by
  have hlines : ∀ line ∈ row "" "nodes" (Node.program p).count ::
      (occurring p).map (fun k => row "  " k.name (countKind p k)), '\n' ∉ line.toList := by
    refine List.forall_mem_cons.mpr ⟨?_, List.forall_mem_map.mpr ?_⟩
    · exact newline_notMem_row (by decide) (by decide) _
    · intro k _
      exact newline_notMem_row (by decide) k.name_isPlain.2.1 _
  rw [stats_eq, Text.lines_joinLines (List.cons_ne_nil _ _) hlines, List.map_cons, List.map_map]
  congr 1
  · exact row?_row rfl (by decide) (by decide) _
  · refine List.map_congr_left ?_
    intro k _
    exact row?_row rfl k.name_isPlain.1 k.name_isPlain.2.2 _

/-- Kinds that do not occur add nothing to the number of nodes. -/
theorem total_occurring (p : Program) :
    total ((occurring p).map (countKind p)) = (Node.program p).count := by
  calc
    total ((occurring p).map (countKind p))
        = total (Kind.all.map (countKind p)) := Numeric.total_map_filter_pos _ _
    _ = (Node.program p).count := total_countKind p

/-- A program has a name. -/
theorem countKind_ident_pos (p : Program) : 0 < countKind p .ident := by
  have hname : .ident p.name ∈ (Node.program p).preorder :=
    Node.mem_preorder_of_mem_children List.mem_cons_self (Node.mem_preorder_self _)
  refine List.length_pos_of_mem (List.mem_filter.mpr ⟨hname, ?_⟩)
  rfl

theorem filter_occurring_identifier (p : Program) :
    (occurring p).filter (fun k => k.name = "identifier") = [.ident] := by
  have hname : ∀ k : Kind, decide (k.name = "identifier") = decide (k = .ident) := by
    intro k
    cases k <;> decide
  have hall : Kind.all.filter (fun k => k = .ident) = [.ident] := by decide
  -- Among all kinds one has this name, and it occurs.
  simp only [hname]
  rw [occurring, List.filter_comm, hall]
  simp [countKind_ident_pos]

/-! ## The other reports -/

/-- A line end in a name would break its line in two; a literal of the grammar has none. -/
theorem length_lines_render {p : Program} (hfaithful : ∀ l ∈ (Node.program p).literals, l.Faithful)
    (hnames : (Node.program p).OneLineNames) :
    (Text.lines (render p)).length = (Node.program p).count := by
  have hlines := Node.newline_notMem_render fun m hm =>
    Node.newline_notMem_label hfaithful hnames hm
  rw [render, Node.dump, Text.lines_joinLines (Node.render_ne_nil _) hlines, Node.length_render]

/-- The walk that counts and the walk that collects names stop at the same nodes. -/
theorem length_names (p : Program) :
    ((Node.program p).preorder.filterMap Node.identName?).length = countKind p .ident := by
  rw [List.length_filterMap_eq_countP, List.countP_eq_length_filter, countKind]
  simp only [Node.isSome_identName?]

theorem idents_eq (p : Program) :
    idents p = Text.joinLines ((Node.program p).preorder.filterMap Node.identName?) := rfl

theorem length_lines_idents {p : Program} (hnames : (Node.program p).OneLineNames) :
    (Text.lines (idents p)).length = countKind p .ident := by
  -- Without a name the text would be empty, and an empty text still has one line.
  have hne : (Node.program p).preorder.filterMap Node.identName? ≠ [] := by
    rw [← List.length_pos_iff, length_names]
    exact countKind_ident_pos p
  have hlines : ∀ line ∈ (Node.program p).preorder.filterMap Node.identName?,
      '\n' ∉ line.toList := by
    intro line hline
    obtain ⟨n, hn, hname⟩ := List.mem_filterMap.mp hline
    obtain ⟨i, rfl, rfl⟩ := Node.identName?_eq_some.mp hname
    exact hnames.1 i hn
  rw [idents_eq, Text.lines_joinLines hne hlines, length_names]

/-! ## Reports on a loaded program -/

theorem parseProgram_storeTree {p : Program} (hp : Stored.Resolved (.program p))
    (hdepth : p.toDocument.depth ≤ Stored.maxLevels) :
    parseProgram (Stored.storeTree (.node .program) p) = .ok p := by
  have hload : (Stored.loadTree (.node .program) (Stored.storeTree (.node .program) p)).mapError
      Stored.LoadError.fault = Stored.within Stored.maxLevels p.toDocument.depth p :=
    Stored.load_render (Stored.stores_tree (.node .program) p hp)
  rw [Stored.within, if_pos hdepth] at hload
  rw [parseProgram, Stored.eq_ok_of_mapError hload]
  rfl

theorem faithful_of_parseProgram {source : String} {p : Program}
    (h : parseProgram source = .ok p) : ∀ l ∈ (Node.program p).literals, l.Faithful := by
  have hresolved : Stored.Resolved (.program p) :=
    (Stored.fits_of_load (Stored.eq_ok_of_mapError h)).1
  exact Stored.resolved_iff.mp hresolved

/-- The reports on a program whose names have no line ends agree. The report of numbers can be read
line by line: on the first line is the number of lines of the outline, on the others are numbers
that add up to it, and one of these, that of the identifiers, is the number of lines of their
report. -/
theorem reports_agree {source : String} {p : Program} (hload : parseProgram source = .ok p)
    (hnames : (Node.program p).OneLineNames) :
    ∃ rows : List (String × Nat),
      (Text.lines (stats p)).map row? =
          some ("nodes", (Text.lines (render p)).length) :: rows.map some ∧
        (Text.lines (render p)).length = total (rows.map Prod.snd) ∧
        rows.filter (fun r => r.1 = "identifier") =
          [("identifier", (Text.lines (idents p)).length)] := by
  have hrender := length_lines_render (faithful_of_parseProgram hload) hnames
  refine ⟨(occurring p).map fun k => (k.name, countKind p k), ?_, ?_, ?_⟩
  · rw [map_row?_lines_stats, hrender, List.map_map]
    rfl
  · rw [hrender, List.map_map, ← total_occurring]
    rfl
  · rw [length_lines_idents hnames, List.filter_map]
    exact congrArg (List.map fun k => (k.name, countKind p k)) (filter_occurring_identifier p)

/-- A literal whose text looks like a line of the report of numbers. -/
def labelledLiteral : Literal := ⟨"'nodes: 9'", .string "nodes: 9", {}⟩

/-- A program that assigns this literal to a variable whose name looks like such a line too. -/
def labelled : Program where
  name := { name := "Demo" }
  vars := { entries := [] }
  body := { stmts := [.assign { target := .ident { name := "x: 1" },
                                value := .literal labelledLiteral }] }

/-- The text that this program is stored as. -/
def labelledText : String :=
  "\x7b\"name\":\x7b\"name\":\"Demo\"\x7d,\"vars\":\x7b\"entries\":[]\x7d," ++
    "\"body\":\x7b\"stmts\":[\x7b\"Assign\":\x7b\"target\":\x7b\"Ident\":" ++
    "\x7b\"name\":\"x: 1\"\x7d\x7d,\"value\":\x7b\"Literal\":" ++
    "\x7b\"text\":\"'nodes: 9'\"\x7d\x7d\x7d\x7d]\x7d\x7d"

theorem preorder_labelled :
    (Node.program labelled).preorder =
      [.program labelled, .ident { name := "Demo" }, .varSection { entries := [] },
        .stmtList labelled.body,
        .assign { target := .ident { name := "x: 1" }, value := .literal labelledLiteral },
        .ident { name := "x: 1" }, .literal labelledLiteral] := by
  simp [Node.preorder_eq, labelled, Node.children, Stmt.toNode, AssignTarget.toNode, Expr.toNode]

theorem parseProgram_labelledText : parseProgram labelledText = .ok labelled := by
  have hresolved : Stored.Resolved (.program labelled) := by
    intro l hl
    have hl' : l = labelledLiteral := by simpa [preorder_labelled] using hl
    rw [hl']
    exact Literal.ofText_self_iff.mpr
      (Grammar.resolve_eq_ok_string.mpr ⟨'\'', Or.inl rfl, by decide, by decide⟩)
  have htext : labelledText = Stored.storeTree (.node .program) labelled := by cbv
  have hdepth : labelled.toDocument.depth ≤ Stored.maxLevels := by decide
  rw [htext]
  exact parseProgram_storeTree hresolved hdepth

theorem oneLineNames_labelled : (Node.program labelled).OneLineNames := by
  rw [Node.OneLineNames, preorder_labelled]
  simp

/-- Labels that look like lines with numbers do not mislead the reader of the reports. -/
theorem reports_agree_labelled :
    parseProgram labelledText = .ok labelled ∧ (Node.program labelled).OneLineNames ∧
      ∃ rows : List (String × Nat),
        (Text.lines (stats labelled)).map row? =
            some ("nodes", (Text.lines (render labelled)).length) :: rows.map some ∧
          (Text.lines (render labelled)).length = total (rows.map Prod.snd) ∧
          rows.filter (fun r => r.1 = "identifier") =
            [("identifier", (Text.lines (idents labelled)).length)] :=
  ⟨parseProgram_labelledText, oneLineNames_labelled,
    reports_agree parseProgram_labelledText oneLineNames_labelled⟩

end Report
end PascalTree
