import RecordDb.Dict

/-!
# Keys of a dictionary

The keys of a dictionary, and what insertion and erasure make of them.
-/
namespace RecordDb.Dict

variable {κ α : Type} [DecidableEq κ]

theorem mem_keys_iff (d : Dict κ α) (key : κ) : key ∈ keys d ↔ contains d key = true := by
  induction d with
  | nil => exact iff_of_false List.not_mem_nil Bool.false_ne_true
  | cons e rest ih =>
    rw [keys, List.map_cons, List.mem_cons, contains, get?]
    by_cases h : e.1 = key
    · rw [if_pos h]
      exact iff_of_true (.inl h.symm) rfl
    · rw [if_neg h]
      exact (or_iff_right (Ne.symm h)).trans ih

theorem contains_insert_iff [KeyOrder κ] (d : Dict κ α) (key other : κ) (value : α) :
    contains (insert d key value) other = true ↔ contains d other = true ∨ key = other := by
  by_cases h : key = other
  · rw [contains, ← h, get?_insert_self]
    exact iff_of_true rfl (.inr rfl)
  · rw [contains, get?_insert_of_ne _ _ (Ne.symm h)]
    exact (or_iff_left h).symm

theorem contains_erase_iff (d : Dict κ α) (key other : κ) :
    contains (erase d key) other = true ↔ contains d other = true ∧ key ≠ other := by
  by_cases h : key = other
  · rw [contains, ← h, get?_erase_self]
    exact iff_of_false Bool.false_ne_true fun h' => h'.2 rfl
  · rw [contains, get?_erase_of_ne _ (Ne.symm h)]
    exact (and_iff_left h).symm

end RecordDb.Dict
