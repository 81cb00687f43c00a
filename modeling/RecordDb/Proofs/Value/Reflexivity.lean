import RecordDb.Value

/-!
# Which values are the same as themselves

Floats compare as numbers, so a value is, unless there is a NaN in it.
-/
namespace RecordDb

theorem Binary64.same_self (x : Binary64) : x.same x = !x.isNaN := by
  rw [same, compare?, orderKey?]
  cases x.isNaN <;> simp

namespace Value

mutual

/-- Whether there is a NaN in a value, at any depth. -/
def hasNaN : Value → Bool
  | float x => x.isNaN
  | list items => hasNaNItems items
  | map entries => hasNaNEntries entries
  | _ => false

def hasNaNItems : List Value → Bool
  | [] => false
  | v :: rest => hasNaN v || hasNaNItems rest

def hasNaNEntries : List (String × Value) → Bool
  | [] => false
  | (_, v) :: rest => hasNaN v || hasNaNEntries rest

end

mutual

theorem same_self (v : Value) : v.same v = !v.hasNaN := by
  cases v with
  | float x => exact x.same_self
  | list items => exact sameItems_self items
  | map entries => exact sameEntries_self entries
  | nil => rfl
  | bool | int | string | blob | geo => simp [same, hasNaN]

theorem sameItems_self (items : List Value) : sameItems items items = !hasNaNItems items := by
  cases items with
  | nil => rfl
  | cons v rest => rw [sameItems, hasNaNItems, same_self v, sameItems_self rest, Bool.not_or]

theorem sameEntries_self (entries : List (String × Value)) :
    sameEntries entries entries = !hasNaNEntries entries := by
  match entries with
  | [] => rfl
  | (k, v) :: rest =>
    rw [sameEntries, hasNaNEntries, same_self v, sameEntries_self rest, Bool.not_or,
      beq_self_eq_true, Bool.true_and]

end

end Value

end RecordDb
