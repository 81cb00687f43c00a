import Mathlib.Data.List.Nodup
import Mathlib.Data.List.Perm.Basic
import RecordDb.Proofs.Dict.Ascending
import RecordDb.Proofs.Operation.Picks
import RecordDb.Proofs.Outcomes
import RecordDb.Sorting.Permutation

/-!
# What a selection addresses

The indexes that it gives are indexes of entries, and none of them occurs twice, so that they can be
read as a list of entries. A removal leaves the others.
-/
namespace RecordDb.Selection

variable {entries : Dict String Value} {op : MapOperation} {selected : List Nat}

section Indexes

/-- The place of a key in key order. -/
def indexOf (entries : Dict String Value) (key : String) : Nat := (Dict.keys entries).idxOf key

theorem indexOf_getElem (h : Dict.Ascending entries) {i : Nat} (hi : i < entries.length) :
    indexOf entries entries[i].1 = i := by
  have hkey : i < (Dict.keys entries).length := by rwa [Dict.keys, List.length_map]
  have hget : (Dict.keys entries)[i] = entries[i].1 := List.getElem_map Prod.fst
  rw [indexOf, ← hget, (Dict.nodup_keys h).idxOf_getElem i hkey]

theorem getElem?_indexOf (h : Dict.Ascending entries) {e : String × Value} (he : e ∈ entries) :
    entries[indexOf entries e.1]? = some e := by
  obtain ⟨i, hi, rfl⟩ := List.mem_iff_getElem.mp he
  rw [indexOf_getElem h hi, List.getElem?_eq_getElem hi]

end Indexes

/-- Indexes of entries, none of them twice. -/
structure Addresses (entries : Dict String Value) (selected : List Nat) : Prop where
  nodup : selected.Nodup
  lt : ∀ i ∈ selected, i < entries.length

/-- The entries at some indexes. -/
def addressed (entries : Dict String Value) (selected : List Nat) : Dict String Value :=
  selected.filterMap (entries[·]?)

section Entries

theorem addressed_cons {i : Nat} (hi : i < entries.length) (selected : List Nat) :
    addressed entries (i :: selected) = entries[i] :: addressed entries selected :=
  List.filterMap_cons_some (List.getElem?_eq_getElem hi)

theorem mem_of_mem_addressed {e : String × Value} (h : e ∈ addressed entries selected) :
    e ∈ entries := by
  obtain ⟨i, -, hi⟩ := List.mem_filterMap.mp h
  exact List.mem_of_getElem? hi

theorem length_addressed (h : ∀ i ∈ selected, i < entries.length) :
    (addressed entries selected).length = selected.length := by
  induction selected with
  | nil => rfl
  | cons i rest ih =>
    rw [List.forall_mem_cons] at h
    rw [addressed_cons h.1, List.length_cons, List.length_cons, ih h.2]

theorem addressed_range (entries : Dict String Value) :
    addressed entries (List.range entries.length) = entries := by
  have hall : matching entries (fun _ _ => true) = List.range entries.length := by
    rw [matching, List.filter_true, List.zipIdx_map_snd, ← List.range_eq_range']
  rw [addressed, ← hall, filterMap_matching, List.filter_true]

theorem getElem?_addressed (h : ∀ i ∈ selected, i < entries.length) (n : Nat) :
    (addressed entries selected)[n]? = selected[n]?.bind (entries[·]?) := by
  induction selected generalizing n with
  | nil => rfl
  | cons i rest ih =>
    rw [List.forall_mem_cons] at h
    rw [addressed_cons h.1]
    cases n with
    | zero => exact (List.getElem?_eq_getElem h.1).symm
    | succ n => exact ih h.2 n

theorem addressed_toList (place : Option Nat) :
    addressed entries place.toList = (place.bind (entries[·]?)).toList := by
  cases place with
  | none => rfl
  | some i =>
    cases h : entries[i]? with
    | none => simp [addressed, h]
    | some e => simp [addressed, h]

/-- Pairs of entries and their indexes tell the same whichever part of them is taken. -/
theorem addressed_map_snd {pairs : List ((String × Value) × Nat)}
    (h : ∀ e ∈ pairs, e ∈ entries.zipIdx) :
    addressed entries (pairs.map Prod.snd) = pairs.map Prod.fst := by
  rw [addressed, List.filterMap_map, ← List.filterMap_eq_map]
  apply List.filterMap_congr
  intro e he
  exact List.mem_zipIdx_iff_getElem?.mp (h e he)

variable (hasc : Dict.Ascending entries)
include hasc

/-- The addressed entries tell the indexes by their keys. -/
theorem map_indexOf_addressed (h : ∀ i ∈ selected, i < entries.length) :
    ((addressed entries selected).map fun e => indexOf entries e.1) = selected := by
  induction selected with
  | nil => rfl
  | cons i rest ih =>
    rw [List.forall_mem_cons] at h
    rw [addressed_cons h.1, List.map_cons, indexOf_getElem hasc h.1, ih h.2]

theorem nodup_addressed (h : Addresses entries selected) : (addressed entries selected).Nodup := by
  apply List.Nodup.of_map fun e => indexOf entries e.1
  rw [map_indexOf_addressed hasc h.lt]
  exact h.nodup

theorem mem_keys_addressed (h : Addresses entries selected) {e : String × Value}
    (he : e ∈ entries) :
    e.1 ∈ Dict.keys (addressed entries selected) ↔ indexOf entries e.1 ∈ selected := by
  constructor
  · intro hkey
    obtain ⟨e', he', hsame⟩ := List.mem_map.mp hkey
    rw [← map_indexOf_addressed hasc h.lt, ← hsame]
    exact List.mem_map_of_mem he'
  · intro hi
    apply List.mem_map_of_mem
    exact List.mem_filterMap.mpr ⟨_, hi, getElem?_indexOf hasc he⟩

/-- What is removed are the entries under the keys of the addressed ones. -/
theorem removed_eq (h : Addresses entries selected) : removed entries selected
    = entries.filter fun e => e.1 ∉ Dict.keys (addressed entries selected) := by
  rw [removed, ← map_fst_filter_zipIdx]
  congr 1
  apply List.filter_congr
  intro e he
  have hi : entries[e.2]? = some e.1 := List.mem_zipIdx_iff_getElem?.mp he
  obtain ⟨hlt, hget⟩ := List.getElem?_eq_some_iff.mp hi
  have hindex : indexOf entries e.1.1 = e.2 := by rw [← hget, indexOf_getElem hasc hlt]
  rw [Bool.eq_iff_iff]
  simp [mem_keys_addressed hasc h (List.mem_of_getElem? hi), hindex]

/-- Entries are either addressed or left. -/
theorem length_add_length_removed (h : Addresses entries selected) :
    selected.length + (removed entries selected).length = entries.length := by
  have hentries : entries.Nodup := List.Nodup.of_map Prod.fst (Dict.nodup_keys hasc)
  have hperm : (entries.filter fun e => e.1 ∈ Dict.keys (addressed entries selected)).Perm
      (addressed entries selected) := by
    apply (List.perm_ext_iff_of_nodup (hentries.filter _) (nodup_addressed hasc h)).mpr
    intro e
    rw [List.mem_filter, decide_eq_true_eq]
    constructor
    · rintro ⟨he, hkey⟩
      rw [mem_keys_addressed hasc h he] at hkey
      exact List.mem_filterMap.mpr ⟨_, hkey, getElem?_indexOf hasc he⟩
    · intro he
      exact ⟨mem_of_mem_addressed he, List.mem_map_of_mem he⟩
  have hparts := List.length_eq_length_filter_add (l := entries)
    fun e => decide (e.1 ∈ Dict.keys (addressed entries selected))
  rw [removed_eq hasc h, ← length_addressed h.lt, ← hperm.length_eq]
  simpa only [decide_not] using hparts.symm

end Entries

section Selections

theorem rankOrder_perm (entries : Dict String Value) :
    (rankOrder entries).Perm (List.range entries.length) := by
  rw [rankOrder, List.range_eq_range', ← List.zipIdx_map_snd 0 entries]
  apply List.Perm.map
  split
  · exact Sorting.insertAll_perm _ [] entries.zipIdx
  · exact Sorting.sort_perm _ entries.zipIdx

theorem mem_rankOrder {i : Nat} : i ∈ rankOrder entries ↔ i < entries.length :=
  (rankOrder_perm entries).mem_iff.trans List.mem_range

theorem length_rankOrder (entries : Dict String Value) :
    (rankOrder entries).length = entries.length := by
  rw [(rankOrder_perm entries).length_eq, List.length_range]

theorem addresses_rankOrder (entries : Dict String Value) :
    Addresses entries (rankOrder entries) where
  nodup := (rankOrder_perm entries).nodup_iff.mpr List.nodup_range
  lt _ hi := mem_rankOrder.mp hi

theorem addresses_range (entries : Dict String Value) :
    Addresses entries (List.range entries.length) where
  nodup := List.nodup_range
  lt _ hi := List.mem_range.mp hi

theorem Addresses.sublist {selected' : List Nat} (h : Addresses entries selected)
    (hs : selected'.Sublist selected) : Addresses entries selected' where
  nodup := h.nodup.sublist hs
  lt i hi := h.lt i (hs.subset hi)

theorem slice_sublist {α : Type} (s : Place.Span) (xs : List α) : (s.slice xs).Sublist xs :=
  (List.drop_sublist _ _).trans (List.take_sublist _ _)

theorem addresses_matching (test : String → Value → Bool) :
    Addresses entries (matching entries test) := by
  apply (addresses_range entries).sublist
  rw [matching, List.range_eq_range', ← List.zipIdx_map_snd 0 entries]
  exact List.Sublist.map Prod.snd List.filter_sublist

theorem addresses_toList {place : Option Nat} (h : ∀ i, place = some i → i < entries.length) :
    Addresses entries place.toList := by
  cases place with
  | none => exact ⟨List.nodup_nil, nofun⟩
  | some i => exact ⟨List.nodup_singleton i, fun j hj => h j (by simp_all)⟩

/-- Whatever an operation selects are indexes of entries, each of them once. -/
theorem addresses_of_select (h : select entries op = .ok selected) :
    Addresses entries selected := by
  obtain ⟨kind, bin, key, value, start, stop, index, rank, count, returnType, policy⟩ := op
  cases kind with
  | setPolicy | put | putItems | increment | decrement | clear | size => cases h
  | getByKey | removeByKey =>
    obtain ⟨_, -, h⟩ := exists_of_bind_eq_ok h
    obtain ⟨_, -, h⟩ := exists_of_bind_eq_ok h
    cases h
    apply addresses_toList
    intro i hi
    exact (List.findIdx?_eq_some_iff_getElem.mp hi).1
  | removeByKeyList =>
    obtain ⟨_, -, h⟩ := exists_of_bind_eq_ok h
    obtain ⟨_, -, h⟩ := exists_of_bind_eq_ok h
    obtain ⟨_, -, h⟩ := exists_of_bind_eq_ok h
    cases h
    exact addresses_matching _
  | getByKeyRange | removeByKeyRange | getByValueRange | removeByValueRange =>
    obtain ⟨_, -, h⟩ := exists_of_bind_eq_ok h
    obtain ⟨_, -, h⟩ := exists_of_bind_eq_ok h
    cases h
    exact addresses_matching _
  | getByValue | removeByValue =>
    obtain ⟨_, -, h⟩ := exists_of_bind_eq_ok h
    cases h
    exact addresses_matching _
  | removeByValueList =>
    obtain ⟨_, -, h⟩ := exists_of_bind_eq_ok h
    obtain ⟨_, -, h⟩ := exists_of_bind_eq_ok h
    cases h
    exact addresses_matching _
  | getByIndex | removeByIndex =>
    obtain ⟨_, -, h⟩ := exists_of_bind_eq_ok h
    cases h
    apply addresses_toList
    intro i hi
    exact Place.lt_of_element?_eq_some hi
  | getByIndexRange | removeByIndexRange =>
    obtain ⟨_, -, h⟩ := exists_of_bind_eq_ok h
    cases h
    exact (addresses_range entries).sublist (slice_sublist _ _)
  | getByRank | removeByRank =>
    obtain ⟨_, -, h⟩ := exists_of_bind_eq_ok h
    cases h
    apply addresses_toList
    intro i hi
    obtain ⟨r, -, hr⟩ := Option.bind_eq_some_iff.mp hi
    exact (addresses_rankOrder entries).lt i (List.mem_of_getElem? hr)
  | getByRankRange | removeByRankRange =>
    obtain ⟨_, -, h⟩ := exists_of_bind_eq_ok h
    cases h
    exact (addresses_rankOrder entries).sublist (slice_sublist _ _)

/-- Operations on a single entry address no more than one. -/
theorem length_le_one_of_isSingle (h : select entries op = .ok selected)
    (hsingle : isSingle op.kind) : selected.length ≤ 1 := by
  have htoList (place : Option Nat) : place.toList.length ≤ 1 := by cases place <;> simp
  obtain ⟨kind, bin, key, value, start, stop, index, rank, count, returnType, policy⟩ := op
  cases kind with
  | getByKey | removeByKey =>
    obtain ⟨_, -, h⟩ := exists_of_bind_eq_ok h
    obtain ⟨_, -, h⟩ := exists_of_bind_eq_ok h
    cases h
    exact htoList _
  | getByIndex | removeByIndex | getByRank | removeByRank =>
    obtain ⟨_, -, h⟩ := exists_of_bind_eq_ok h
    cases h
    exact htoList _
  | _ => cases hsingle

end Selections

/-- What an operation leaves of a map in which it has found some entries. -/
def remaining (entries : Dict String Value) (op : MapOperation) (found : Dict String Value) :
    Dict String Value :=
  if op.kind.isWrite then entries.filter fun e => e.1 ∉ Dict.keys found else entries

/-- A selecting operation reports on the entries that it addresses, and if it is a removal it leaves
the others. -/
theorem map_of_addressed (hasc : Dict.Ascending entries) (h : select entries op = .ok selected)
    {returnType : ReturnType} (hreturn : op.returnType = some returnType) :
    Evaluation.map entries op = .ok (remaining entries op (addressed entries selected),
      report entries selected returnType (isSingle op.kind)) := by
  rw [map_of_select h, remaining, ← removed_eq hasc (addresses_of_select h), hreturn]
  split
  · rfl
  · rfl

end RecordDb.Selection
