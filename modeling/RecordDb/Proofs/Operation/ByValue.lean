import RecordDb.Proofs.Operation.Picks
import RecordDb.Proofs.Value.Equality

/-!
# Selections by value

They go by the order of values, so that they find the entries that are equal to a wanted value and
those that the order confuses with one.
-/
namespace RecordDb.Selection

variable {op : MapOperation} {wanted : List Value}

/-- The values that a selection by value asks for. -/
def wantedValues? (op : MapOperation) : Option (List Value) :=
  match op.kind, op.value with
  | .getByValue, some w => some [w]
  | .removeByValue, some w => some [w]
  | .removeByValueList, some (.list ws) => some ws
  | _, _ => none

theorem select_of_wantedValues (h : wantedValues? op = some wanted) (entries : Dict String Value) :
    select entries op
      = .ok (matching entries fun _ v => wanted.any fun w => v.compare w == .eq) := by
  obtain ⟨kind, bin, key, value, start, stop, index, rank, count, returnType, policy⟩ := op
  cases kind with
  | getByValue | removeByValue =>
    cases value with
    | none => cases h
    | some w =>
      cases h
      simp only [List.any_cons, List.any_nil, Bool.or_false]
      rfl
  | removeByValueList =>
    cases value with
    | none => cases h
    | some w =>
      cases w with
      | list ws =>
        cases h
        rfl
      | _ => cases h
  | _ => cases h

/-- A selection by value picks the entries that are equal to a wanted value or confused with one.
It goes by equality alone exactly on the maps where each entry that is confused with a wanted value
is also equal to one. -/
theorem value_selection_is_by_equality_iff (h : wantedValues? op = some wanted)
    (entries : Dict String Value) :
    Picks entries op (fun e => wanted.any fun w => e.2.equals w || e.2.confused w) ∧
    (Picks entries op (fun e => wanted.any e.2.equals) ↔
      ∀ e ∈ entries, ∀ w ∈ wanted, e.2.confused w → ∃ u ∈ wanted, e.2.equals u) := by
  have htie (v w : Value) : (v.compare w == .eq) = (v.equals w || v.confused w) := by
    rw [Bool.eq_iff_iff, beq_iff_eq, Bool.or_eq_true]
    exact Value.compare_eq_iff v w
  have hpicks : Picks entries op fun e => wanted.any fun w => e.2.equals w || e.2.confused w := by
    have hties := picks_of_matching (select_of_wantedValues h entries)
    simp only [htie] at hties
    exact hties
  refine ⟨hpicks, ?_⟩
  rw [hpicks.iff_agree]
  apply forall₂_congr
  intro e _
  rw [Bool.eq_iff_iff, List.any_eq_true, List.any_eq_true]
  constructor
  · intro hagree w hw hconfused
    exact hagree.mp ⟨w, hw, by simp [hconfused]⟩
  · intro hequal
    constructor
    · rintro ⟨w, hw, htied⟩
      rcases Bool.or_eq_true_iff.mp htied with hsame | hconfused
      · exact ⟨w, hw, hsame⟩
      · exact hequal w hw hconfused
    · rintro ⟨w, hw, hsame⟩
      exact ⟨w, hw, by simp [hsame]⟩

theorem value_selection_is_by_equality_iff_marks :
    let entries : Dict String Value :=
      [("a", .int 1), ("b", .float ⟨0x3ff0000000000000⟩), ("c", .list [.nil, .string "x"]),
        ("d", .map [("x", .int 1)])]
    let wanted := [Value.int 1, .list [.nil, .string "x"]]
    let op := { MapOperation.new .removeByValueList "m" with value := some (.list wanted) }
    wantedValues? op = some wanted ∧ Picks entries op fun e => wanted.any e.2.equals := by
  intro entries wanted op
  have hwanted : wantedValues? op = some wanted := rfl
  obtain ⟨-, hiff⟩ := value_selection_is_by_equality_iff hwanted entries
  exact ⟨hwanted, hiff.mpr (by decide +kernel)⟩

/-- Maps of one size are confused, whatever is in them. -/
example :
    let a := Value.map [("x", .int 1)]
    let b := Value.map [("y", .int 2)]
    a.compare b = .eq ∧ a.equals b = false ∧ a.confused b := by decide

end RecordDb.Selection
