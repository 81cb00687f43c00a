import RecordDb.Proofs.Dict.Ascending
import RecordDb.Proofs.Text.Cuts
import RecordDb.Store.Info

/-!
# What is read out of info texts

A line whose name holds no tab comes back as it was; whatever the text, nothing comes out of it that
holds the separators at which it was cut.
-/
namespace RecordDb

namespace Info
open Text

/-- A text at which no info text is cut. -/
def Unbroken (text : String) : Prop := '\t' ∉ text.toList ∧ '\n' ∉ text.toList

instance (text : String) : Decidable (Unbroken text) := inferInstanceAs (Decidable (_ ∧ _))

theorem unbroken_append {start rest : String} :
    Unbroken (start ++ rest) ↔ Unbroken start ∧ Unbroken rest := by
  rw [Unbroken, Unbroken, Unbroken, String.toList_append, List.mem_append, List.mem_append, not_or,
    not_or]
  exact and_and_and_comm

/-- A name and its value as a line. -/
def line (e : String × String) : String := e.1 ++ "\t" ++ e.2

theorem toList_line (e : String × String) :
    (line e).toList = e.1.toList ++ '\t' :: e.2.toList :=
  toList_joined "\t" '\t' rfl e.1 e.2

theorem newline_not_mem_line {e : String × String} (hname : '\n' ∉ e.1.toList)
    (hvalue : '\n' ∉ e.2.toList) : '\n' ∉ (line e).toList := by
  rw [toList_line, List.mem_append, List.mem_cons, not_or, not_or]
  exact ⟨hname, by decide, hvalue⟩

/-- What lines of names and values are read as. -/
theorem parse_of_lines {text : String} {entries : List (String × String)}
    (hlines : lines text.toList = entries.map fun e => (line e).toList)
    (hnames : ∀ e ∈ entries, '\t' ∉ e.1.toList) : parse text = Dict.ofList entries := by
  have hfull : ∀ part ∈ entries.map fun e => (line e).toList, (!part.isEmpty) = true := by
    intro part hpart
    obtain ⟨e, -, rfl⟩ := List.mem_map.mp hpart
    rw [toList_line, Bool.not_eq_true', List.isEmpty_eq_false_iff]
    exact List.append_ne_nil_of_right_ne_nil _ (List.cons_ne_nil _ _)
  rw [parse, hlines, List.filter_eq_self.mpr hfull, List.map_map]
  congr 1
  conv_rhs => rw [← List.map_id entries]
  apply List.map_congr_left
  intro e he
  simp only [Function.comp_apply, toList_line, splitFirst?_append (hnames e he),
    String.ofList_toList]
  rfl

/-- A text of one line. -/
theorem parse_line {name value : String} (htab : '\t' ∉ name.toList) (hname : '\n' ∉ name.toList)
    (hvalue : '\n' ∉ value.toList) : parse (name ++ "\t" ++ value) = [(name, value)] := by
  have hline : '\n' ∉ (line (name, value)).toList := newline_not_mem_line hname hvalue
  have hread : parse (line (name, value)) = Dict.ofList [(name, value)] :=
    parse_of_lines (lines_of_not_mem hline) (List.forall_mem_singleton.mpr htab)
  exact hread

theorem of_get?_parse {text name value : String} (h : Dict.get? (parse text) name = some value) :
    '\t' ∉ name.toList ∧ '\n' ∉ name.toList ∧ '\n' ∉ value.toList := by
  rcases Dict.mem_insertAll (Dict.mem_of_get?_eq_some h) with h | h
  · cases h
  obtain ⟨line, hline, heq⟩ := List.mem_map.mp h
  have hnot : '\n' ∉ line := not_mem_of_mem_lines (List.mem_of_mem_filter hline)
  cases hs : splitFirst? '\t' line with
  | none =>
    simp only [hs] at heq
    cases heq
    rw [String.toList_ofList]
    exact ⟨splitFirst?_eq_none_iff.mp hs, hnot, List.not_mem_nil⟩
  | some cut =>
    obtain ⟨before, after⟩ := cut
    simp only [hs] at heq
    cases heq
    rw [String.toList_ofList, String.toList_ofList]
    obtain ⟨rfl, htab⟩ := eq_append_of_splitFirst? hs
    rw [List.mem_append, List.mem_cons, not_or, not_or] at hnot
    exact ⟨htab, hnot.1, hnot.2.2⟩

theorem pairs_append (sep : Char) (before after : List Char) :
    pairs sep (before ++ sep :: after) = pairs sep before ++ pairs sep after := by
  rw [pairs, splitAll_append, List.filterMap_append]
  rfl

/-- A single pair. -/
theorem pairs_pair {sep : Char} {name value : List Char} (hsep : sep ∉ name ++ '=' :: value)
    (hname : '=' ∉ name) :
    pairs sep (name ++ '=' :: value) =
      [(String.ofList (trim name), String.ofList (trim value))] := by
  rw [pairs, splitAll_of_not_mem hsep, List.filterMap_cons, splitFirst?_append hname]
  rfl

theorem exists_of_mem_pairs {sep : Char} {cs : List Char} {name value : String}
    (h : (name, value) ∈ pairs sep cs) :
    ∃ before after, before ++ '=' :: after ∈ splitAll sep cs ∧ '=' ∉ before ∧
      name.toList = trim before ∧ value.toList = trim after := by
  obtain ⟨part, hpart, heq⟩ := List.mem_filterMap.mp h
  obtain ⟨⟨before, after⟩, hcut, heq⟩ := Option.map_eq_some_iff.mp heq
  cases heq
  obtain ⟨rfl, hname⟩ := eq_append_of_splitFirst? hcut
  exact ⟨before, after, hpart, hname, String.toList_ofList, String.toList_ofList⟩

/-- A value is trimmed, does not hold the separator of the pairs and was in the text. -/
theorem of_mem_pairs {sep : Char} {cs : List Char} {name value : String}
    (h : (name, value) ∈ pairs sep cs) :
    trim value.toList = value.toList ∧ sep ∉ value.toList ∧ value.toList.Sublist cs := by
  obtain ⟨before, after, hpart, -, -, hvalue⟩ := exists_of_mem_pairs h
  have hsub : (trim after).Sublist (before ++ '=' :: after) :=
    (trim_sublist after).trans
      ((List.sublist_cons_self _ _).trans (List.sublist_append_right _ _))
  rw [hvalue]
  exact ⟨trim_trim after, fun hs => not_mem_of_mem_splitAll hpart (hsub.subset hs),
    hsub.trans (sublist_of_mem_splitAll hpart)⟩

/-- A name is trimmed and holds neither the separator of the pairs nor that of a pair. -/
theorem name_of_mem_pairs {sep : Char} {cs : List Char} {name value : String}
    (h : (name, value) ∈ pairs sep cs) :
    trim name.toList = name.toList ∧ sep ∉ name.toList ∧ '=' ∉ name.toList := by
  obtain ⟨before, after, hpart, hequals, hname, -⟩ := exists_of_mem_pairs h
  have hsub : (trim before).Sublist before := trim_sublist before
  rw [hname]
  exact ⟨trim_trim before, fun hs => not_mem_of_mem_splitAll hpart
    (List.mem_append_left _ (hsub.subset hs)), fun hs => hequals (hsub.subset hs)⟩

end Info

namespace Store

theorem after?_append (start rest : List Char) : after? start (start ++ rest) = some rest := by
  induction start with
  | nil => rfl
  | cons c start ih => rw [List.cons_append, after?, if_pos rfl, ih]

/-- What is found under the name of a request in the answer to it. -/
def reported (s : Store) (request : String) : Option String :=
  Dict.get? (Info.parse (s.info (some request))) request

theorem reported_eq {s : Store} {request : String} (h : Info.Unbroken request)
    (hvalue : '\n' ∉ (s.infoValue request).toList) :
    s.reported request = some (s.infoValue request) := by
  rw [reported, info, Info.parse_line h.1 h.2 hvalue, Dict.get?, if_pos rfl]

/-- A request that is broken up is not found again, and what is found is of one line. -/
theorem of_reported {s : Store} {request value : String} (h : s.reported request = some value) :
    Info.Unbroken request ∧ '\n' ∉ value.toList := by
  obtain ⟨htab, hline, hvalue⟩ := Info.of_get?_parse h
  exact ⟨⟨htab, hline⟩, hvalue⟩

end Store

end RecordDb
