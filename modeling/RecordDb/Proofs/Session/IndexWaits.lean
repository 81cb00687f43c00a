import RecordDb.Proofs.Session.Guard
import RecordDb.Proofs.Session.Polls

/-!
# Waits for an index

The nodes read the command that asks for an index as a path, cut at its first slash, and their
answer is found again under the command, unless a tab or an end of line in it breaks the answer up.
-/
namespace RecordDb

open Text

theorem Index.toList_path (ns index : String) :
    (ns ++ "/" ++ index).toList = ns.toList ++ '/' :: index.toList :=
  toList_joined "/" '/' rfl ns index

theorem Index.buildComplete_report (keys : Nat) :
    buildComplete ("keys=" ++ toString keys ++ ";load_pct=100;state=RW") = true := by
  have htext : ("keys=" ++ toString keys ++ ";load_pct=100;state=RW").toList =
      ("keys=" ++ toString keys).toList ++ ';' :: "load_pct=100;state=RW".toList := by
    rw [String.toList_append]
    rfl
  have hloaded : ("load_pct", "100") ∈ Info.pairs ';' "load_pct=100;state=RW".toList := by decide
  rw [buildComplete, htext, Info.pairs_append, List.any_append, Bool.or_eq_true, List.any_eq_true,
    List.any_eq_true]
  exact .inr ⟨_, hloaded, rfl⟩

namespace Store

theorem newline_not_mem_toString (n : Nat) : '\n' ∉ (toString n).toList := by
  rw [Nat.toString_eq_repr, Nat.toList_repr]
  exact not_mem_toDigits rfl n

/-- The report on the index that a path names. -/
theorem indexStatus_path (s : Store) {ns : String} (h : '/' ∉ ns.toList) (index : String) :
    '\n' ∉ (s.indexStatus (ns ++ "/" ++ index).toList).toList ∧
      (Index.buildComplete (s.indexStatus (ns ++ "/" ++ index).toList) = true ↔
        Dict.contains s.indexes ⟨ns, index⟩ = true) := by
  rw [indexStatus, Index.toList_path, splitFirst?_append h]
  simp only [Option.bind_some, String.ofList_toList, Dict.contains]
  cases Dict.get? s.indexes ⟨ns, index⟩ with
  | none =>
    dsimp only
    exact ⟨by decide, iff_of_false (by decide) Bool.false_ne_true⟩
  | some found =>
    dsimp only
    refine ⟨?_, iff_of_true (Index.buildComplete_report _) rfl⟩
    rw [String.toList_append, String.toList_append, List.mem_append, List.mem_append, not_or,
      not_or]
    exact ⟨⟨by decide, newline_not_mem_toString _⟩, by decide⟩

theorem infoValue_statusCommand (s : Store) (ns index : String) :
    s.infoValue (Index.statusCommand ns index) =
      s.indexStatus (ns ++ "/" ++ index).toList := by
  have hcommand : (Index.statusCommand ns index).toList =
      "sindex/".toList ++ (ns ++ "/" ++ index).toList := by
    rw [Index.statusCommand, String.append_assoc, String.append_assoc, String.toList_append,
      String.append_assoc]
  rw [infoValue, hcommand, after?_append]

end Store

theorem Index.exists_path (ns index : String) :
    ∃ ns' index', ns' ++ "/" ++ index' = ns ++ "/" ++ index ∧ '/' ∉ ns'.toList := by
  cases hcut : splitFirst? '/' (ns ++ "/" ++ index).toList with
  | none =>
    refine absurd ?_ (splitFirst?_eq_none_iff.mp hcut)
    rw [toList_path]
    exact List.mem_append_right _ List.mem_cons_self
  | some cut =>
    obtain ⟨before, after⟩ := cut
    obtain ⟨hpath, hbefore⟩ := eq_append_of_splitFirst? hcut
    refine ⟨String.ofList before, String.ofList after, String.toList_injective ?_, ?_⟩
    · rw [hpath, toList_path, String.toList_ofList, String.toList_ofList]
    · rwa [String.toList_ofList]

theorem Index.unbroken_statusCommand {ns index : String} :
    Info.Unbroken (statusCommand ns index) ↔ Info.Unbroken ns ∧ Info.Unbroken index := by
  have hstart : Info.Unbroken "sindex/" := by decide
  have hslash : Info.Unbroken "/" := by decide
  rw [statusCommand, Info.unbroken_append, Info.unbroken_append, Info.unbroken_append]
  exact ⟨fun h => ⟨h.1.1.2, h.2⟩, fun h => ⟨⟨⟨hstart, h.1⟩, hslash⟩, h.2⟩⟩

/-- What is read out of the answer on the index that a path names. -/
theorem Store.reported_statusCommand (s : Store) {ns index ns' index' : String}
    (hpath : ns' ++ "/" ++ index' = ns ++ "/" ++ index) (hns : '/' ∉ ns'.toList) :
    (s.reported (Index.statusCommand ns index)).any Index.buildComplete = true ↔
      (Info.Unbroken ns ∧ Info.Unbroken index) ∧
        Dict.contains s.indexes ⟨ns', index'⟩ = true := by
  obtain ⟨hline, hcomplete⟩ := s.indexStatus_path hns index'
  rw [hpath, ← infoValue_statusCommand] at hline hcomplete
  rw [← Index.unbroken_statusCommand]
  by_cases h : Info.Unbroken (Index.statusCommand ns index)
  · rw [reported_eq h hline, Option.any_some, hcomplete]
    exact (and_iff_right h).symm
  · have hnone : s.reported (Index.statusCommand ns index) = none :=
      Option.eq_none_iff_forall_ne_some.mpr fun value hv => h (of_reported hv).1
    rw [hnone]
    exact iff_of_false Bool.false_ne_true fun h' => h h'.1

namespace Session

/-- A poll for an index reports that it is there exactly if no tab and no end of line is in its
names and there is one under the path that they make, which is the index itself if there is no
slash in its namespace. Every later poll reports the same. -/
theorem index_wait_recognises_its_index {s : Session} {c : Nat} (h : s.Serves c)
    (ns index : String) :
    ∃ complete,
      (s.poll c (Index.statusCommand ns index) Index.buildComplete).2 = .ok complete ∧
        (complete = true ↔ (Info.Unbroken ns ∧ Info.Unbroken index) ∧
          ∃ ns' index', ns' ++ "/" ++ index' = ns ++ "/" ++ index ∧ '/' ∉ ns'.toList ∧
            Dict.contains s.transport.store.indexes ⟨ns', index'⟩ = true) ∧
        ('/' ∉ ns.toList → (complete = true ↔ (Info.Unbroken ns ∧ Info.Unbroken index) ∧
          Dict.contains s.transport.store.indexes ⟨ns, index⟩ = true)) ∧
        ∀ polls, (s.pollUntil c (Index.statusCommand ns index) Index.buildComplete
          (polls + 1)).2 = if complete then some (.ok ()) else none := by
  refine ⟨_, congrArg Prod.snd (h.poll_eq _ _), ?_, fun hns => ?_, fun polls => ?_⟩
  · constructor
    · intro hcomplete
      obtain ⟨ns', index', hpath, hns⟩ := Index.exists_path ns index
      obtain ⟨hplain, hthere⟩ := (s.transport.store.reported_statusCommand hpath hns).mp hcomplete
      exact ⟨hplain, ns', index', hpath, hns, hthere⟩
    · rintro ⟨hplain, ns', index', hpath, hns, hthere⟩
      exact (s.transport.store.reported_statusCommand hpath hns).mpr ⟨hplain, hthere⟩
  · exact s.transport.store.reported_statusCommand rfl hns
  · exact h.pollUntil_snd _ _ polls

/-- A store with an index that has a slash in its name. -/
def indexedMarks : Session :=
  halfConnected.after [.command 0 (.indexCreate ⟨"test", none, "x", "by/x", .whole⟩ .numeric none)]

theorem serves_indexedMarks : indexedMarks.Serves 0 where
  connected := rfl
  prepared := rfl
  nodes := List.cons_ne_nil _ _

theorem index_wait_recognises_its_index_slash :
    (indexedMarks.poll 0 (Index.statusCommand "test" "by/x") Index.buildComplete).2 = .ok true ∧
    (indexedMarks.poll 0 (Index.statusCommand "test/by" "x") Index.buildComplete).2 = .ok true ∧
    (indexedMarks.poll 0 (Index.statusCommand "test" "by") Index.buildComplete).2 = .ok false := by
  obtain ⟨first, hfirst, -, hthere, -⟩ :=
    index_wait_recognises_its_index serves_indexedMarks "test" "by/x"
  obtain ⟨second, hsecond, hshifted, -, -⟩ :=
    index_wait_recognises_its_index serves_indexedMarks "test/by" "x"
  obtain ⟨third, hthird, -, hmissing, -⟩ :=
    index_wait_recognises_its_index serves_indexedMarks "test" "by"
  have htrue : first = true := (hthere (by decide)).mpr ⟨by decide, by decide⟩
  have htrue' : second = true := hshifted.mpr ⟨by decide, "test", "by/x", by decide⟩
  have hfalse : third = false := Bool.eq_false_iff.mpr fun h =>
    absurd ((hmissing (by decide)).mp h).2 (by decide)
  rw [hfirst, hsecond, hthird, htrue, htrue', hfalse]
  exact ⟨rfl, rfl, rfl⟩

end Session

end RecordDb
