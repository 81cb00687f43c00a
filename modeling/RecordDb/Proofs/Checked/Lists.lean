import RecordDb.Proofs.Checked.Places
import RecordDb.Proofs.Outcomes
import RecordDb.Proofs.Place.Spans

/-!
# Checked operations on a list

Operations on a list, with every place that they use looked at.
-/
namespace RecordDb.Checked

open Evaluated Selection

variable {xs : List Value} {op : ListOperation}

/-- The list that an operation leaves, and its result. -/
def list (xs : List Value) (op : ListOperation) : Attempt (List Value × Option Value) :=
  let grown (xs : List Value) : List Value × Option Value := (xs, some (intOf xs.length))
  let index := settled (required "index" op.index)
  let value := settled (required "value" op.value)
  let run : Attempt Place.Span := do span xs.length (← index) op.count
  match op.kind with
  | .append => do return grown (xs ++ [← value])
  | .appendItems => do return grown (xs ++ (← settled (items (← value))))
  | .insert => do
    let (i, xs) ← padded xs (← index)
    return grown (← insertAt xs i (← value))
  | .insertItems => do
    let (i, xs) ← padded xs (← index)
    let new ← settled (items (← value))
    return grown (← splice xs ⟨i, i⟩ new)
  | .pop => do
    let i ← element xs (← index)
    let (v, rest) ← removeAt xs i
    return (rest, some v)
  | .popRange => do
    let (taken, rest) ← drain xs (← run)
    return (rest, some (.list taken))
  | .remove => do
    let i ← element xs (← index)
    let (_, rest) ← removeAt xs i
    return (rest, some (intOf 1))
  | .removeRange => do
    let (taken, rest) ← drain xs (← run)
    return (rest, some (intOf taken.length))
  | .clear => return ([], none)
  | .set => do
    let (i, xs) ← padded xs (← index)
    let v ← value
    if i = xs.length then return (xs ++ [v], none)
    else return (← replaceAt xs i v, none)
  | .trim => do
    let s ← run
    let removed ← difference xs.length s.size
    let (taken, _) ← drain xs s
    return (taken, some (intOf removed))
  | .get => do
    let i ← element xs (← index)
    return (xs, some (← lookup xs i))
  | .getRange => do
    return (xs, some (.list (← slice xs (← run))))
  | .size => return (xs, some (intOf xs.length))

section Places

variable {α : Type} {index count : Option Int64}

theorem exists_of_element_eq_ok {index : Int64} {i : Nat}
    (h : Evaluation.element xs index = .ok i) : ∃ v, xs[i]? = some v := by
  rw [Evaluation.element] at h
  split at h
  · rename_i hi
    cases h
    exact ⟨_, List.getElem?_eq_getElem (Place.lt_of_element?_eq_some hi)⟩
  · cases h

/-- Where an insertion finds its place, the list reaches up to it and has grown by the padding at
most. -/
theorem bounds_of_padded_eq_ok {index : Int64} {place : Nat × List Value}
    (h : Evaluation.padded xs index = .ok place) :
    place.1 ≤ place.2.length ∧ place.2.length ≤ xs.length + 2 ^ 16 := by
  rw [Evaluation.padded] at h
  split at h
  · rename_i i hi
    cases h
    have hmax := (Place.insertion?_eq_some_iff.mp hi).1
    rw [Place.maxPadding] at hmax
    dsimp only
    rw [List.length_append, List.length_replicate]
    omega
  · cases h

variable (h : xs.length < 2 ^ 63)
include h

/-- What settles at the place of every element settles at the one that an index denotes. -/
theorem element_bind {f : Nat → Attempt α} {g : Nat → Evaluated α}
    (hf : ∀ i v, xs[i]? = some v → f i = settled (g i)) :
    (do f (← element xs (← settled (required "index" index))))
      = settled (do g (← Evaluation.element xs (← required "index" index))) := by
  apply settled_bind
  intro index _
  rw [element_eq h]
  apply settled_bind
  intro i hi
  obtain ⟨v, hv⟩ := exists_of_element_eq_ok hi
  exact hf i v hv

/-- What settles at every place up to the end settles at the place of an insertion. -/
theorem padded_bind {f : Nat × List Value → Attempt α} {g : Nat × List Value → Evaluated α}
    (hf : ∀ place, place.1 ≤ place.2.length → f place = settled (g place)) :
    (do f (← padded xs (← settled (required "index" index))))
      = settled (do g (← Evaluation.padded xs (← required "index" index))) := by
  apply settled_bind
  intro index _
  rw [padded_eq h]
  apply settled_bind
  intro place hplace
  exact hf place (bounds_of_padded_eq_ok hplace).1

/-- What settles for every run of the list settles for the one that an index and a count denote. -/
theorem span_bind {f : Place.Span → Attempt α} {g : Place.Span → Evaluated α}
    (hf : ∀ s, Within s xs.length → f s = settled (g s)) :
    (do span xs.length (← settled (required "index" index)) count) >>= f
      = settled ((do return Place.span xs.length (← required "index" index) count) >>= g) := by
  rw [bind_assoc, bind_assoc]
  apply settled_bind
  intro index _
  rw [span_eq h, pure_bind, pure_bind]
  exact hf _ (within_span xs.length index count)

end Places

/-- A list in memory has a length of 63 bits. Whatever an operation is then asked to do with it, it
uses no place and takes no length that is not there. -/
theorem list_eq (h : xs.length < 2 ^ 63) : list xs op = settled (Evaluation.list xs op) := by
  obtain ⟨kind, bin, index, count, value⟩ := op
  rw [list, Evaluation.list]
  cases kind with
  | append => exact settled_bind fun v _ => rfl
  | appendItems =>
    apply settled_bind
    intro v _
    exact settled_bind fun new _ => rfl
  | insert =>
    apply padded_bind h
    intro place hle
    apply settled_bind
    intro v _
    rw [insertAt, require_of hle]
    rfl
  | insertItems =>
    apply padded_bind h
    intro place hle
    apply settled_bind
    intro v _
    apply settled_bind
    intro new _
    rw [splice, require_of ⟨Nat.le_refl _, hle⟩]
    rfl
  | set =>
    apply padded_bind h
    intro place hle
    apply settled_bind
    intro v _
    by_cases hend : place.1 = place.2.length
    · rw [if_pos hend, hend, List.take_length, List.drop_eq_nil_of_le (Nat.le_succ _)]
      rfl
    · have hlt : place.1 < place.2.length := by omega
      rw [if_neg hend, replaceAt, require_of hlt, List.set_eq_take_cons_drop v hlt]
      rfl
  | pop =>
    apply element_bind h
    intro i v hv
    rw [removeAt_of_getElem? hv, hv]
    rfl
  | remove =>
    apply element_bind h
    intro i v hv
    rw [removeAt_of_getElem? hv]
    rfl
  | get =>
    apply element_bind h
    intro i v hv
    rw [lookup_of_getElem? hv, hv]
    rfl
  | popRange | removeRange =>
    apply span_bind h
    intro s hs
    rw [drain, require_of hs]
    rfl
  | trim =>
    apply span_bind h
    intro s hs
    have hle : s.size ≤ xs.length := Nat.le_trans (Nat.sub_le _ _) hs.2
    rw [difference, require_of hle, drain, require_of hs, Place.length_slice hs.2]
    rfl
  | getRange =>
    apply span_bind h
    intro s hs
    rw [slice, require_of hs]
    rfl
  | clear | size => rfl

/-- An insertion adds its element to the padding, and a replacement no more than that. -/
theorem length_le_of_list_eq_ok {done : List Value × Option Value}
    (hkind : op.kind = .insert ∨ op.kind = .set) (h : Evaluation.list xs op = .ok done) :
    done.1.length ≤ xs.length + (2 ^ 16 + 1) := by
  obtain ⟨kind, bin, index, count, value⟩ := op
  rw [Evaluation.list] at h
  rcases hkind with rfl | rfl
  all_goals
    obtain ⟨index, -, h⟩ := exists_of_bind_eq_ok h
    obtain ⟨place, hplace, h⟩ := exists_of_bind_eq_ok h
    obtain ⟨v, -, h⟩ := exists_of_bind_eq_ok h
    obtain ⟨hle, hmax⟩ := bounds_of_padded_eq_ok hplace
    cases h
    dsimp only
  · rw [List.length_insertIdx, if_pos hle]
    omega
  · rw [List.length_append, List.length_cons, List.length_take, List.length_drop]
    omega

end RecordDb.Checked
