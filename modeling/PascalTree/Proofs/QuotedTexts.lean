import Mathlib.Data.Set.Function
import Mathlib.Data.String.Basic
import PascalTree.Proofs.LiteralGrammar

/-!
# QuotedTexts — strings and the texts that enclose them

A string is written between two delimiters, and a delimiter inside is written twice. The scanner
reads such a text from left to right and stops at a delimiter that stands alone. The same value
comes from cutting the text by bytes and replacing all pairs of delimiters inside at once:

* `Text.unquote?`: that second way, in which every cut has to fall between two characters;
* `Grammar.enclosed`: a string between delimiters;
* `Grammar.content?_eq_some`: the scanner accepts what is enclosed, and nothing else;
* `Grammar.unquote?_enclosed`: all cuts of an enclosed text are good, and give the string back;
* `Grammar.strings_are_enclosed_values`: texts of strings are delimiters with values.
-/

namespace PascalTree

/-! ## Cutting texts by bytes -/

namespace Text

/-- The part of a text between two byte offsets, if they are in order and both on the border of a
character. -/
def slice? (text : String) (start stop : Nat) : Option String :=
  if start ≤ stop ∧ String.Pos.Raw.isValid text ⟨start⟩ ∧ String.Pos.Raw.isValid text ⟨stop⟩ then
    some (String.Pos.Raw.extract text ⟨start⟩ ⟨stop⟩)
  else none

/-- A text with all occurrences of a pattern replaced, found from the left without overlaps. -/
def replaceAll (pattern replacement : List Char) : List Char → List Char
  | [] => []
  | c :: cs =>
    if pattern.isPrefixOf (c :: cs) then
      replacement ++ replaceAll pattern replacement (cs.drop (pattern.length - 1))
    else c :: replaceAll pattern replacement cs
termination_by cs => cs.length
decreasing_by
  · exact Nat.lt_succ_of_le (List.drop_sublist _ _).length_le
  · exact Nat.lt_succ_self _

/-- The text between the delimiters of a quoted text, with each doubled delimiter made single: the
first byte is the delimiter, and the last one is cut off too. -/
def unquote? (text : String) : Option String := do
  let quote ← slice? text 0 1
  let inner ← slice? text 1 (text.utf8ByteSize - 1)
  return String.ofList (replaceAll (quote.toList ++ quote.toList) quote.toList inner.toList)

theorem slice?_append (before middle after : String) :
    slice? (before ++ middle ++ after) before.utf8ByteSize
      (before.utf8ByteSize + middle.utf8ByteSize) = some middle := by
  have hstart : String.Pos.Raw.IsValid (before ++ middle ++ after) ⟨before.utf8ByteSize⟩ := by
    have h : String.Pos.Raw.IsValid before ⟨before.utf8ByteSize⟩ := String.Pos.Raw.isValid_rawEndPos
    exact (h.append_right middle).append_right after
  have hstop : String.Pos.Raw.IsValid (before ++ middle ++ after)
      ⟨before.utf8ByteSize + middle.utf8ByteSize⟩ := by
    have h : String.Pos.Raw.IsValid (before ++ middle) ⟨(before ++ middle).utf8ByteSize⟩ :=
      String.Pos.Raw.isValid_rawEndPos
    rw [String.utf8ByteSize_append] at h
    exact h.append_right after
  have hextract := String.extract_of_valid before.toList middle.toList after.toList
  simp only [String.ofList_append, String.ofList_toList, String.utf8Len_toList] at hextract
  rw [slice?, if_pos, hextract]
  exact ⟨Nat.le_add_right _ _, String.Pos.Raw.isValid_eq_true_iff.mpr hstart,
    String.Pos.Raw.isValid_eq_true_iff.mpr hstop⟩

end Text

/-! ## Doubled delimiters -/

namespace Grammar

open Form

/-- A text in which each delimiter is written twice. -/
def doubled (q : Char) (cs : List Char) : List Char :=
  cs.flatMap fun c => if c = q then [q, q] else [c]

/-- A text between delimiters, with those in it written twice. -/
def enclosed (q : Char) (s : String) : String :=
  String.singleton q ++ String.ofList (doubled q s.toList) ++ String.singleton q

theorem doubled_cons_self (q : Char) (cs : List Char) :
    doubled q (q :: cs) = q :: q :: doubled q cs := by
  simp [doubled]

theorem doubled_cons_of_ne {q c : Char} (hc : c ≠ q) (cs : List Char) :
    doubled q (c :: cs) = c :: doubled q cs := by
  simp [doubled, hc]

/-- Doubled delimiters stand in pairs from the left, whatever the runs of delimiters are. -/
theorem replaceAll_doubled (q : Char) (cs : List Char) :
    Text.replaceAll [q, q] [q] (doubled q cs) = cs := by
  induction cs with
  | nil => rw [doubled, List.flatMap_nil, Text.replaceAll]
  | cons c cs ih =>
    by_cases hc : c = q
    · subst hc
      rw [doubled_cons_self, Text.replaceAll]
      simp [ih]
    · have hpattern : [q, q].isPrefixOf (c :: doubled q cs) = false := by
        simp [List.isPrefixOf, Ne.symm hc]
      rw [doubled_cons_of_ne hc, Text.replaceAll, hpattern, ih]
      rfl

/-- The scanner finds a content exactly where it stands with its delimiters doubled, on one line. -/
theorem content?_eq_some {q : Char} (hq : q ≠ '\n') {cs content : List Char} :
    content? q cs = some content ↔ cs = doubled q content ++ [q] ∧ '\n' ∉ content := by
  constructor
  · intro h
    fun_induction content? q cs generalizing content with
    | case1 => cases h
    | case2 =>
      cases h
      exact ⟨rfl, List.not_mem_nil⟩
    | case3 rest ih =>
      obtain ⟨content, hcontent, rfl⟩ := Option.map_eq_some_iff.mp h
      obtain ⟨rfl, hline⟩ := ih hcontent
      rw [doubled_cons_self]
      exact ⟨rfl, by simp [hq.symm, hline]⟩
    | case4 => cases h
    | case5 => cases h
    | case6 c cs hc hn ih =>
      obtain ⟨content, hcontent, rfl⟩ := Option.map_eq_some_iff.mp h
      obtain ⟨rfl, hline⟩ := ih hcontent
      rw [doubled_cons_of_ne hc]
      exact ⟨rfl, by simp [Ne.symm hn, hline]⟩
  · rintro ⟨rfl, hline⟩
    induction content with
    | nil => simp [doubled, content?]
    | cons c content ih =>
      rw [List.mem_cons, not_or] at hline
      have htail := ih hline.2
      by_cases hc : c = q
      · subst hc
        rw [doubled_cons_self]
        simp [content?, htail]
      · rw [doubled_cons_of_ne hc]
        unfold content?
        simp [hc, Ne.symm hline.1, htail]

theorem toList_enclosed (q : Char) (s : String) :
    (enclosed q s).toList = q :: (doubled q s.toList ++ [q]) := by
  simp [enclosed]

/-- A delimiter of one byte is cut off on both sides, and those inside are made single. -/
theorem unquote?_enclosed {q : Char} (hq : q.utf8Size = 1) (s : String) :
    Text.unquote? (enclosed q s) = some s := by
  have hsize : (String.singleton q).utf8ByteSize = 1 := by
    rw [String.utf8ByteSize_singleton, hq]
  have hquote : Text.slice? (enclosed q s) 0 1 = some (String.singleton q) := by
    have h := Text.slice?_append "" (String.singleton q)
      (String.ofList (doubled q s.toList) ++ String.singleton q)
    rwa [hsize, String.empty_append, ← String.append_assoc] at h
  have hinner : Text.slice? (enclosed q s) 1 ((enclosed q s).utf8ByteSize - 1) =
      some (String.ofList (doubled q s.toList)) := by
    have hstop : (enclosed q s).utf8ByteSize - 1 =
        1 + (String.ofList (doubled q s.toList)).utf8ByteSize := by
      rw [enclosed, String.utf8ByteSize_append, String.utf8ByteSize_append, hsize,
        Nat.add_sub_cancel]
    have h := Text.slice?_append (String.singleton q) (String.ofList (doubled q s.toList))
      (String.singleton q)
    rw [hstop]
    rwa [hsize] at h
  simp [Text.unquote?, hquote, hinner, replaceAll_doubled]

theorem resolve_eq_ok_string {text v : String} :
    resolve text = .ok (.string v) ↔
      ∃ q, StartsAs .string q ∧ text = enclosed q v ∧ '\n' ∉ v.toList := by
  have hline {q : Char} (hq : StartsAs .string q) : q ≠ '\n' := by
    rcases hq with rfl | rfl <;> decide
  constructor
  · intro h
    -- The type of the value gives the first character, and with it the delimiter.
    have hmem : text.toList ∈ ofType .string := classify_eq_ok.mp (resolve_type h)
    obtain ⟨q, cs, htext, hq⟩ := startsAs_of_mem hmem
    have hparse := parse?_of_quote htext hq
    cases hcontent : content? q cs with
    | none =>
      rw [resolve, hparse, hcontent] at h
      cases h
    | some content =>
      rw [hcontent, Option.map_some] at hparse
      rw [resolve_eq_ok_iff hparse] at h
      cases h
      obtain ⟨rfl, hv⟩ := (content?_eq_some (hline hq)).mp hcontent
      refine ⟨q, hq, String.toList_inj.mp ?_, by rwa [String.toList_ofList]⟩
      rw [htext, toList_enclosed, String.toList_ofList]
  · rintro ⟨q, hq, rfl, hv⟩
    have hcontent := (content?_eq_some (hline hq)).mpr ⟨rfl, hv⟩
    have hparse := parse?_of_quote (toList_enclosed q v) hq
    rw [hcontent, Option.map_some] at hparse
    rw [resolve_eq_ok_iff hparse, value?, String.ofList_toList]

theorem classify_eq_string_iff {text : String} :
    classify text = .ok .string ↔ ∃ v, resolve text = .ok (.string v) := by
  constructor
  · intro h
    obtain ⟨value, hvalue⟩ := resolve_isOk (Or.inr (classify_eq_ok.mp h))
    have htype := resolve_type hvalue
    rw [h] at htype
    cases value with
    | string v => exact ⟨v, hvalue⟩
    | _ => cases htype
  · rintro ⟨v, hv⟩
    exact resolve_type hv

/-- Enclosing is a bijection from the delimiters and the texts without line ends to the texts that
are classified as strings. An enclosed text resolves to what it encloses, and whatever resolves to
a string encloses it with its own first character; cutting it by bytes gives the same value. -/
theorem strings_are_enclosed_values :
    Set.BijOn (fun p : Char × String => enclosed p.1 p.2)
        {p | (p.1 = '\'' ∨ p.1 = '"') ∧ '\n' ∉ p.2.toList} {text | classify text = .ok .string} ∧
      (∀ (q : Char) (s : String), q = '\'' ∨ q = '"' → '\n' ∉ s.toList →
        resolve (enclosed q s) = .ok (.string s)) ∧
      ∀ text v : String, resolve text = .ok (.string v) →
        ∃ q, (q = '\'' ∨ q = '"') ∧ text.toList.head? = some q ∧ text = enclosed q v ∧
          '\n' ∉ v.toList ∧ Text.unquote? text = some v := by
  have hresolve (q : Char) (s : String) (hq : q = '\'' ∨ q = '"') (hs : '\n' ∉ s.toList) :
      resolve (enclosed q s) = .ok (.string s) :=
    resolve_eq_ok_string.mpr ⟨q, hq, rfl, hs⟩
  refine ⟨⟨?_, ?_, ?_⟩, hresolve, ?_⟩
  · rintro ⟨q, s⟩ ⟨hq, hs⟩
    exact classify_eq_string_iff.mpr ⟨s, hresolve q s hq hs⟩
  · -- The first character is the delimiter, and the value is what the text resolves to.
    rintro ⟨q, s⟩ ⟨hq, hs⟩ ⟨q', s'⟩ ⟨hq', hs'⟩ heq
    change enclosed q s = enclosed q' s' at heq
    have hhead := congrArg (fun text => text.toList.head?) heq
    have hvalue := hresolve q s hq hs
    rw [heq, hresolve q' s' hq' hs'] at hvalue
    simp only [toList_enclosed, List.head?_cons, Option.some.injEq] at hhead
    cases hvalue
    rw [hhead]
  · intro text htext
    obtain ⟨v, hv⟩ := classify_eq_string_iff.mp htext
    obtain ⟨q, hq, rfl, hline⟩ := resolve_eq_ok_string.mp hv
    exact ⟨(q, v), ⟨hq, hline⟩, rfl⟩
  · intro text v h
    obtain ⟨q, hq, rfl, hline⟩ := resolve_eq_ok_string.mp h
    have hsize : q.utf8Size = 1 := by
      rcases hq with rfl | rfl <;> rfl
    refine ⟨q, hq, ?_, rfl, hline, unquote?_enclosed hsize v⟩
    rw [toList_enclosed, List.head?_cons]

/-- Runs of delimiters that touch the outer ones, the other delimiter and long characters. -/
theorem strings_are_enclosed_values_runs :
    '\n' ∉ "''é\"'".toList ∧
      enclosed '\'' "''é\"'" = "'''''é\"'''" ∧
      resolve "'''''é\"'''" = .ok (.string "''é\"'") ∧
      Text.unquote? "'''''é\"'''" = some "''é\"'" := by
  have htext : enclosed '\'' "''é\"'" = "'''''é\"'''" := by decide
  have hline : '\n' ∉ "''é\"'".toList := by decide
  have hvalue := strings_are_enclosed_values.2.1 '\'' "''é\"'" (Or.inl rfl) hline
  obtain ⟨q, _, _, _, _, hunquote⟩ := strings_are_enclosed_values.2.2 _ _ hvalue
  rw [htext] at hvalue hunquote
  exact ⟨hline, htext, hvalue, hunquote⟩

end Grammar

end PascalTree
