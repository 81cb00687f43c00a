import RecordDb.Proofs.Node.InfoText

/-!
# Dictionaries that are written as info text

A name and its value make a line or a pair, and a dictionary is read back from its lines or from its
pairs, in whatever order they stand, as long as nothing in them is cut, trimmed or taken for the end
of a line.
-/
namespace RecordDb.Info

open Text

variable {d : Dict String String} {entries : List (String × String)}

section Lines

/-- Entries as lines, with no newline after the last. -/
def lineText (entries : List (String × String)) : String := "\n".intercalate (entries.map line)

/-- An entry whose line is not cut elsewhere than between name and value. -/
structure LegibleLine (e : String × String) : Prop where
  name : Unbroken e.1
  value : '\n' ∉ e.2.toList

/-- What is left of an entry where its line ends in a newline. -/
def withoutReturn (e : String × String) : String × String :=
  (e.1, String.ofList (dropReturn e.2.toList))

theorem dropReturn_line (e : String × String) :
    dropReturn (line e).toList = (line (withoutReturn e)).toList := by
  have hvalue : dropReturn ('\t' :: e.2.toList) = '\t' :: dropReturn e.2.toList := by
    rw [dropReturn]
    exact fun h _ => absurd h (by decide)
  rw [toList_line, dropReturn_append _ (List.cons_ne_nil _ _), hvalue, toList_line, withoutReturn,
    String.toList_ofList]

theorem withoutReturn_eq_self_iff {e : String × String} :
    withoutReturn e = e ↔ e.2.toList.getLast? ≠ some '\r' := by
  rw [← dropReturn_eq_self_iff, withoutReturn, Prod.ext_iff, ← String.toList_inj,
    ← String.toList_inj, String.toList_ofList]
  exact and_iff_right rfl

/-- What is left of entries in their lines, of which all but the last end in a newline. -/
def readLines (entries : List (String × String)) : List (String × String) :=
  entries.dropLast.map withoutReturn ++ entries.getLast?.toList

theorem dropLast_append_last {α : Type} (xs : List α) :
    xs.dropLast ++ xs.getLast?.toList = xs := by
  rcases List.eq_nil_or_concat xs with rfl | ⟨before, x, rfl⟩
  · rfl
  · rw [List.concat_eq_append, List.dropLast_concat, List.getLast?_concat]
    rfl

theorem keys_readLines (entries : List (String × String)) :
    Dict.keys (readLines entries) = Dict.keys entries := by
  conv_rhs => rw [← dropLast_append_last entries]
  rw [Dict.keys, readLines, List.map_append, List.map_map, Dict.keys, List.map_append]
  rfl

theorem lines_lineText (hne : entries ≠ []) (h : ∀ e ∈ entries, LegibleLine e) :
    lines (lineText entries).toList = (readLines entries).map fun e => (line e).toList := by
  have hwhole : ∀ text ∈ entries.map line, '\n' ∉ text.toList :=
    List.forall_mem_map.mpr fun e he => newline_not_mem_line (h e he).name.2 (h e he).value
  have hnonempty : entries.map line ≠ [] := fun h => hne (List.map_eq_nil_iff.mp h)
  rw [lineText, lines_intercalate hnonempty hwhole, readLines, List.map_append, ← List.map_dropLast,
    List.getLast?_map, Option.toList_map, List.map_map, List.map_map, List.map_map]
  simp only [Function.comp_def, dropReturn_line]

theorem parse_lineText (h : ∀ e ∈ entries, LegibleLine e) :
    parse (lineText entries) = Dict.ofList (readLines entries) := by
  by_cases hne : entries = []
  · rw [hne]
    rfl
  · apply parse_of_lines (lines_lineText hne h)
    intro e he
    have hkey : e.1 ∈ Dict.keys entries := keys_readLines entries ▸ List.mem_map_of_mem he
    obtain ⟨e', he', hname⟩ := List.mem_map.mp hkey
    exact hname ▸ (h e' he').name.1

/-- A dictionary is read back from its lines exactly if no name holds a tab or a newline, no value a
newline, and no value ends in a carriage return that goes with the newline after it. -/
theorem parse_lineText_eq_iff (hd : Dict.Ascending d) (hperm : entries.Perm d) :
    parse (lineText entries) = d ↔ (∀ e ∈ d, LegibleLine e) ∧
      ∀ e ∈ entries.dropLast, e.2.toList.getLast? ≠ some '\r' := by
  constructor
  · intro hread
    have hlegible : ∀ e ∈ d, LegibleLine e := by
      intro e he
      have hget : Dict.get? (parse (lineText entries)) e.1 = some e.2 :=
        hread ▸ Dict.get?_of_mem hd he
      obtain ⟨htab, hname, hvalue⟩ := of_get?_parse hget
      exact ⟨⟨htab, hname⟩, hvalue⟩
    refine ⟨hlegible, fun e he => ?_⟩
    rw [parse_lineText fun e he => hlegible e (hperm.subset he)] at hread
    -- No name occurs twice, so what is left of an entry stands in the dictionary under its name.
    have hnodup : (Dict.keys (readLines entries)).Nodup :=
      keys_readLines entries ▸ (hperm.map Prod.fst).nodup_iff.mpr (Dict.nodup_keys hd)
    have hkept : withoutReturn e ∈ d :=
      hread ▸ (Dict.ofList_perm hnodup).mem_iff.mpr
        (List.mem_append_left _ (List.mem_map_of_mem he))
    have hmem : e ∈ d := hperm.subset ((List.dropLast_sublist _).subset he)
    have hvalue := (Dict.get?_of_mem hd hkept).symm.trans (Dict.get?_of_mem hd hmem)
    exact withoutReturn_eq_self_iff.mp (Prod.ext rfl (Option.some.inj hvalue))
  · rintro ⟨hlegible, hreturn⟩
    have hkept : entries.dropLast.map withoutReturn = entries.dropLast.map id :=
      List.map_congr_left fun e he => withoutReturn_eq_self_iff.mpr (hreturn e he)
    rw [parse_lineText fun e he => hlegible e (hperm.subset he), readLines, hkept, List.map_id,
      dropLast_append_last]
    exact Dict.ofList_of_perm hd hperm

end Lines

section Pairs

/-- A name and its value as a pair. -/
def pair (e : String × String) : String := e.1 ++ "=" ++ e.2

/-- Entries as pairs between semicolons. -/
def pairText (entries : List (String × String)) : String := ";".intercalate (entries.map pair)

/-- An entry that comes back out of its pair as it was. -/
structure LegiblePair (e : String × String) : Prop where
  separators : ';' ∉ e.1.toList ∧ '=' ∉ e.1.toList ∧ ';' ∉ e.2.toList
  trimmed : trim e.1.toList = e.1.toList ∧ trim e.2.toList = e.2.toList

theorem toList_pair (e : String × String) :
    (pair e).toList = e.1.toList ++ '=' :: e.2.toList :=
  toList_joined "=" '=' rfl e.1 e.2

theorem pairs_of_legible {e : String × String} (h : LegiblePair e) :
    pairs ';' (pair e).toList = [e] := by
  obtain ⟨hname, hequals, hvalue⟩ := h.separators
  have hwhole : ';' ∉ e.1.toList ++ '=' :: e.2.toList := by
    rw [List.mem_append, List.mem_cons, not_or, not_or]
    exact ⟨hname, by decide, hvalue⟩
  rw [toList_pair, pairs_pair hwhole hequals, h.trimmed.1, h.trimmed.2, String.ofList_toList,
    String.ofList_toList]

theorem pairs_pairText (h : ∀ e ∈ entries, LegiblePair e) :
    pairs ';' (pairText entries).toList = entries := by
  have happend (before after : String) : pairs ';' (before ++ ";" ++ after).toList =
      pairs ';' before.toList ++ pairs ';' after.toList := by
    rw [toList_joined ";" ';' rfl, pairs_append]
  have hparts := flatMap_of_append (f := fun text : String => pairs ';' text.toList) rfl happend
    (entries.map pair)
  calc pairs ';' (pairText entries).toList
    _ = entries.flatMap fun e => pairs ';' (pair e).toList := by
      rw [pairText, hparts, List.flatMap_map]
    _ = entries.flatMap fun e => [e] :=
      List.flatMap_congr fun e he => pairs_of_legible (h e he)
    _ = entries := List.flatMap_singleton' entries

/-- A dictionary is read back from its pairs exactly if no name or value is cut or trimmed. -/
theorem parsePairs_pairText_eq_iff (hd : Dict.Ascending d) (hperm : entries.Perm d) :
    parsePairs (pairText entries) = d ↔ ∀ e ∈ d, LegiblePair e := by
  constructor
  · intro hread e he
    rw [← hread] at he
    have hmem : e ∈ pairs ';' (pairText entries).toList :=
      (Dict.mem_insertAll he).resolve_left List.not_mem_nil
    obtain ⟨hname, hsemicolon, hequals⟩ := name_of_mem_pairs hmem
    obtain ⟨hvalue, hsemicolon', -⟩ := of_mem_pairs hmem
    exact ⟨⟨hsemicolon, hequals, hsemicolon'⟩, hname, hvalue⟩
  · intro hlegible
    rw [parsePairs, pairs_pairText fun e he => hlegible e (hperm.subset he)]
    exact Dict.ofList_of_perm hd hperm

end Pairs

/-- A dictionary is read back from its lines and from its pairs, in any order. For lines it takes no
more than that no name holds a tab, nothing a newline, and no value that is not the last ends in a
carriage return; for pairs, that all is trimmed, nothing holds a semicolon and no name an equals
sign. -/
theorem written_dictionaries_are_read_back_iff (hd : Dict.Ascending d) (hperm : entries.Perm d) :
    (parse (lineText entries) = d ↔ (∀ e ∈ d, LegibleLine e) ∧
      ∀ e ∈ entries.dropLast, e.2.toList.getLast? ≠ some '\r') ∧
    (parsePairs (pairText entries) = d ↔ ∀ e ∈ d, LegiblePair e) :=
  ⟨parse_lineText_eq_iff hd hperm, parsePairs_pairText_eq_iff hd hperm⟩

/-- Names and values may be empty and values hold other separators, but a carriage return before a
newline is lost. -/
theorem written_dictionaries_are_read_back_iff_returns :
    parse "load pct\t\n\ta\tb=\rc" = [("", "a\tb=\rc"), ("load pct", "")] ∧
    parsePairs "load pct=;=a\tb=\rc" = [("", "a\tb=\rc"), ("load pct", "")] ∧
    parse "build\t3\r\nnode\tBB9" ≠ [("build", "3\r"), ("node", "BB9")] := by
  have hmixed : Dict.Ascending [("", "a\tb=\rc"), ("load pct", "")] := by decide
  have hreturn : Dict.Ascending [("build", "3\r"), ("node", "BB9")] := by decide
  obtain ⟨hlines, hpairs⟩ := written_dictionaries_are_read_back_iff hmixed (.swap _ _ [])
  obtain ⟨hlost, -⟩ := written_dictionaries_are_read_back_iff hreturn (.refl _)
  refine ⟨hlines.mpr ⟨?_, ?_⟩, hpairs.mpr ?_, fun hread => ?_⟩
  · rw [List.forall_mem_cons, List.forall_mem_singleton]
    exact ⟨⟨by decide, by decide⟩, ⟨by decide, by decide⟩⟩
  · rw [List.dropLast_cons_cons, List.dropLast_singleton, List.forall_mem_singleton]
    decide
  · rw [List.forall_mem_cons, List.forall_mem_singleton]
    exact ⟨⟨by decide, by decide⟩, ⟨by decide, by decide⟩⟩
  · exact (hlost.mp hread).2 _ List.mem_cons_self (by decide)

end RecordDb.Info
