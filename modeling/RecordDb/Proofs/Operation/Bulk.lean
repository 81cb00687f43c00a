import Mathlib.Algebra.Group.Int.Defs
import Mathlib.Algebra.Group.Nat.Defs
import RecordDb.Operation.Builders
import RecordDb.Proofs.Operation.Removals
import RecordDb.Proofs.Operation.Sequences
import RecordDb.Proofs.Place.Spans

/-!
# Operations on many items at once

Each of them does what a sequence of operations on one item does.
-/
namespace RecordDb.Evaluation

open Evaluated Selection

/-- The result of a write that tells how many elements it leaves. -/
def sizeOf? {α : Type} : Option (List α → Value) := some fun xs => intOf xs.length

section Insertions

variable {front back xs : List Value} {index : Int64}

/-- The list with an element inserted. -/
def inserted (index : Int64) (v : Value) (xs : List Value) : Evaluated (List Value) :=
  (padded xs index).map fun place => place.2.insertIdx place.1 v

/-- The list with elements inserted, one behind the other. -/
def insertedAll (index : Int64) (items xs : List Value) : Evaluated (List Value) :=
  (padded xs index).map fun place => place.2.take place.1 ++ items ++ place.2.drop place.1

/-- The index of the `k`-th of several insertions. One that counts from the end stays the same, as
the elements behind it do. -/
def successive (index : Int64) (k : Nat) : Int64 :=
  if index.toInt < 0 then index else index + Int64.ofNat k

theorem successive_zero (index : Int64) : successive index 0 = index := by
  rw [successive]
  split
  · rfl
  · exact Int64.add_zero index

theorem toInt_add_ofNat {k : Nat} (h : 0 ≤ index.toInt) (hk : index.toInt + k < 2 ^ 63) :
    (index + Int64.ofNat k).toInt = index.toInt + k := by
  rw [Int64.toInt_add, Int64.toInt_ofNat_of_lt (by omega)]
  apply Int.bmod_eq_of_le <;> omega

/-- Where the next insertion belongs once `k` of them have been done. The first has filled the list
up to its place. -/
theorem insertion?_successive {length i k : Nat} (h : Place.insertion? length index = some i)
    (hk : length + 65536 + k < 2 ^ 63) :
    Place.insertion? (max length i + k) (successive index k) = some (i + k) := by
  rw [Place.insertion?_eq_some_iff, Place.maxPadding] at *
  rw [successive]
  split
  · omega
  · rw [toInt_add_ofNat] <;> omega

theorem inserted_of_insertion? (h : Place.insertion? xs.length index = some front.length)
    (hparts : xs ++ List.replicate (front.length - xs.length) .nil = front ++ back) (v : Value) :
    inserted index v xs = .ok (front ++ v :: back) := by
  simp only [inserted, padded, h, hparts, Except.map]
  rw [List.insertIdx]
  exact congrArg Except.ok (List.modifyTailIdx_add (List.cons v) 0 front back)

theorem inserted_append (h : Place.insertion? (front.length + back.length) index
    = some front.length) (v : Value) : inserted index v (front ++ back) = .ok (front ++ v :: back) := by
  rw [← List.length_append] at h
  apply inserted_of_insertion? h
  rw [List.length_append, Nat.sub_eq_zero_of_le (Nat.le_add_right _ _), List.replicate_zero,
    List.append_nil]

/-- Insertions one behind the other, by induction on the items, each of which moves to the front
part. -/
theorem foldlM_inserted (items front back : List Value) (place : Nat → Int64) (start : Nat)
    (h : ∀ k < items.length, Place.insertion? (front.length + back.length + k) (place (start + k))
      = some (front.length + k)) :
    (items.zipIdx start).foldlM (fun xs b => inserted (place b.2) b.1 xs) (front ++ back)
      = .ok (front ++ items ++ back) := by
  induction items generalizing front start with
  | nil => rw [List.append_nil]; rfl
  | cons v items ih =>
    have hfirst : inserted (place start) v (front ++ back) = .ok (front ++ v :: back) :=
      inserted_append (h 0 (Nat.zero_lt_succ _)) v
    have hrest := ih (front ++ [v]) (start + 1) fun k hk => by
      have hplace := h (k + 1) (Nat.succ_lt_succ hk)
      rw [List.length_append, List.length_singleton]
      have hlength : front.length + 1 + back.length + k = front.length + back.length + (k + 1) := by
        omega
      have hnext (n : Nat) : n + 1 + k = n + (k + 1) := by omega
      rw [hlength, hnext start, hnext front.length]
      exact hplace
    rw [List.append_assoc, List.singleton_append] at hrest
    rw [List.zipIdx_cons, List.foldlM_cons, hfirst]
    refine hrest.trans ?_
    rw [List.append_assoc front [v], List.singleton_append]

/-- A list that is filled up to a place has a part in front of it and one behind. -/
theorem exists_parts (xs : List Value) (i : Nat) :
    ∃ front back, front.length = i ∧ front.length + back.length = max xs.length i ∧
      xs ++ List.replicate (i - xs.length) .nil = front ++ back := by
  let filled := xs ++ List.replicate (i - xs.length) .nil
  have hlength : filled.length = max xs.length i := by
    rw [List.length_append, List.length_replicate]
    omega
  refine ⟨filled.take i, filled.drop i, ?_, ?_, (List.take_append_drop i filled).symm⟩
  · rw [List.length_take]
    omega
  · rw [← List.length_append, List.take_append_drop, hlength]

/-- Insertions at successive indexes put the items where an insertion of all of them does. -/
theorem foldlM_successive {items : List Value} (hne : items ≠ [])
    (hsize : xs.length + 65536 + items.length < 2 ^ 63) :
    items.zipIdx.foldlM (fun xs b => inserted (successive index b.2) b.1 xs) xs
      = insertedAll index items xs := by
  obtain ⟨v, rest, rfl⟩ := List.exists_cons_of_ne_nil hne
  rw [List.zipIdx_cons, List.foldlM_cons, successive_zero]
  cases h : Place.insertion? xs.length index with
  | none =>
    simp only [inserted, insertedAll, padded, h]
    rfl
  | some i =>
    obtain ⟨front, back, rfl, hlength, hparts⟩ := exists_parts xs i
    have hplace (k : Nat) (hk : k < (v :: rest).length) :
        Place.insertion? (front.length + back.length + k) (successive index k)
          = some (front.length + k) := by
      rw [hlength]
      exact insertion?_successive h (by omega)
    -- The first insertion is as well one into the list that has been filled up.
    have hfirst : inserted index v xs = inserted index v (front ++ back) := by
      have hzero := hplace 0 (Nat.zero_lt_succ _)
      rw [Nat.add_zero, Nat.add_zero, successive_zero] at hzero
      rw [inserted_of_insertion? h hparts, inserted_append hzero]
    have hall := foldlM_inserted (v :: rest) front back (successive index) 0 fun k hk => by
      rw [Nat.zero_add]
      exact hplace k hk
    rw [List.zipIdx_cons, List.foldlM_cons, successive_zero, ← hfirst] at hall
    rw [hall, insertedAll, padded, h]
    dsimp only
    rw [hparts, Except.map, List.take_left, List.drop_left]

theorem list_insert (bin : String) (index : Int64) (v : Value) (xs : List Value) :
    list xs { ListOperation.new .insert bin with index := some index, value := some v }
      = finishing sizeOf? (inserted index v) xs := by
  simp only [list, required, finishing, inserted, ListOperation.new, bind, Except.bind]
  cases padded xs index <;> rfl

theorem list_insertItems (bin : String) (index : Int64) (items xs : List Value) :
    list xs { ListOperation.new .insertItems bin with
        index := some index, value := some (.list items) }
      = finishing sizeOf? (insertedAll index items) xs := by
  simp only [list, required, finishing, insertedAll, ListOperation.new, bind, Except.bind]
  cases padded xs index <;> rfl

end Insertions

section Appends

/-- The list with an element at its end. -/
def appended (v : Value) (xs : List Value) : Evaluated (List Value) := .ok (xs ++ [v])

theorem foldlM_appended (items xs : List Value) :
    items.foldlM (fun xs v => appended v xs) xs = .ok (xs ++ items) := by
  induction items generalizing xs with
  | nil => rw [List.append_nil]; rfl
  | cons v items ih =>
    rw [List.foldlM_cons]
    exact (ih (xs ++ [v])).trans (by rw [List.append_assoc, List.singleton_append])

theorem list_append (bin : String) (v : Value) (xs : List Value) :
    list xs { ListOperation.new .append bin with value := some v }
      = finishing sizeOf? (appended v) xs := rfl

theorem list_appendItems (bin : String) (items xs : List Value) :
    list xs { ListOperation.new .appendItems bin with value := some (.list items) }
      = finishing sizeOf? (fun xs => .ok (xs ++ items)) xs := rfl

end Appends

section Puts

/-- The map with an entry put under a policy. -/
def put (policy : Option MapPolicy) (e : String × Value) (entries : Dict String Value) :
    Evaluated (Dict String Value) :=
  putEntry entries e.1 e.2 { MapOperation.new .put "" with policy }

theorem map_put (bin : String) (e : String × Value) (policy : Option MapPolicy)
    (entries : Dict String Value) :
    map entries { MapOperation.new .put bin with
        key := some (.string e.1), value := some e.2, policy }
      = finishing sizeOf? (put policy e) entries := by
  have hput : putEntry entries e.1 e.2 { MapOperation.new .put bin with
      key := some (.string e.1), value := some e.2, policy } = put policy e entries := rfl
  simp only [map, MapOperation.new] at *
  simp only [required, mapKey, finishing, bind, Except.bind, hput]
  cases put policy e entries <;> rfl

theorem map_putItems (bin : String) (new : Dict String Value) (policy : Option MapPolicy)
    (entries : Dict String Value) :
    map entries { MapOperation.new .putItems bin with value := some (.map new), policy }
      = finishing sizeOf? (fun entries => new.foldlM (fun entries e => put policy e entries) entries)
        entries := by
  have hput (entries : Dict String Value) (e : String × Value) : putEntry entries e.1 e.2
      { MapOperation.new .putItems bin with value := some (.map new), policy }
        = put policy e entries := rfl
  simp only [map, MapOperation.new] at *
  simp only [required, finishing, bind, Except.bind, hput]
  cases new.foldlM (fun entries e => put policy e entries) entries <;> rfl

end Puts

section Removals

variable {entries : Dict String Value} {op : MapOperation} {returnType : Option ReturnType}

/-- The map without the entry under a key. -/
def withoutKey (key : Value) (entries : Dict String Value) : Evaluated (Dict String Value) :=
  (mapKey key).map fun key => removed entries (entries.findIdx? fun e => e.1 = key).toList

/-- The map without the entries under any of some keys. -/
def withoutKeys (keys : List Value) (entries : Dict String Value) :
    Evaluated (Dict String Value) :=
  (keys.mapM mapKey).map fun wanted => entries.filter fun e => !wanted.contains e.1

/-- The map without the entries that have one of some values. -/
def withoutValues (values : List Value) (entries : Dict String Value) :
    Evaluated (Dict String Value) :=
  .ok (entries.filter fun e => !values.any fun v => e.2.compare v == .eq)

/-- The map without the entries that have a value. -/
def withoutValue (v : Value) (entries : Dict String Value) : Evaluated (Dict String Value) :=
  .ok (entries.filter fun e => !(e.2.compare v == .eq))

theorem findIdx?_eq_some_iff (hasc : Dict.Ascending entries) {e : String × Value}
    (he : e ∈ entries) {key : String} :
    (entries.findIdx? fun e => e.1 = key) = some (indexOf entries e.1) ↔ e.1 = key := by
  constructor
  · intro hfound
    obtain ⟨hi, hkey, -⟩ := List.findIdx?_eq_some_iff_getElem.mp hfound
    have hget := getElem?_indexOf hasc he
    rw [List.getElem?_eq_getElem hi, Option.some.injEq] at hget
    rw [← hget]
    exact of_decide_eq_true hkey
  · rintro rfl
    cases hfound : entries.findIdx? fun e' => e'.1 = e.1 with
    | none =>
      have hne := List.findIdx?_eq_none_iff.mp hfound e he
      rw [decide_eq_false_iff_not] at hne
      exact absurd rfl hne
    | some i =>
      obtain ⟨hi, hkey, -⟩ := List.findIdx?_eq_some_iff_getElem.mp hfound
      rw [← of_decide_eq_true hkey, indexOf_getElem hasc hi]

theorem removed_findIdx? (hasc : Dict.Ascending entries) (key : String) :
    removed entries (entries.findIdx? fun e => e.1 = key).toList
      = entries.filter fun e => e.1 ≠ key := by
  have haddresses : Addresses entries (entries.findIdx? fun e => e.1 = key).toList :=
    addresses_toList fun i hi => (List.findIdx?_eq_some_iff_getElem.mp hi).1
  rw [removed_eq hasc haddresses]
  apply List.filter_congr
  intro e he
  rw [decide_eq_decide]
  apply not_congr
  rw [mem_keys_addressed hasc haddresses he, Option.mem_toList]
  exact findIdx?_eq_some_iff hasc he

/-- Removals by one key after the other, by induction on the keys. The entries that are left are
still in key order, so that the next removal finds the only one under its key. -/
theorem foldlM_withoutKey (hasc : Dict.Ascending entries) (keys : List Value) :
    keys.foldlM (fun entries key => withoutKey key entries) entries = withoutKeys keys entries := by
  induction keys generalizing entries with
  | nil => exact congrArg Except.ok (List.filter_true entries).symm
  | cons key keys ih =>
    rw [List.foldlM_cons, withoutKeys, List.mapM_cons, withoutKey]
    cases mapKey key with
    | error e => rfl
    | ok k =>
      have hleft : Dict.Ascending (entries.filter fun e => e.1 ≠ k) := hasc.filter _
      have hnext := ih hleft
      rw [← removed_findIdx? hasc] at hnext
      refine hnext.trans ?_
      rw [removed_findIdx? hasc, withoutKeys]
      cases keys.mapM mapKey with
      | error e => rfl
      | ok wanted =>
        refine congrArg Except.ok ?_
        change List.filter _ (List.filter _ entries) = List.filter _ entries
        rw [List.filter_filter]
        apply List.filter_congr
        intro e _
        rw [List.contains_cons, Bool.not_or, Bool.and_comm, decide_not, beq_eq_decide]

theorem foldlM_withoutValue (values : List Value) (entries : Dict String Value) :
    values.foldlM (fun entries v => withoutValue v entries) entries
      = withoutValues values entries := by
  induction values generalizing entries with
  | nil => exact congrArg Except.ok (List.filter_true entries).symm
  | cons v values ih =>
    rw [List.foldlM_cons]
    refine (ih _).trans (congrArg Except.ok ?_)
    rw [List.filter_filter]
    apply List.filter_congr
    intro e _
    rw [List.any_cons, Bool.not_or, Bool.and_comm]

theorem map_of_keys (hkind : op.kind = .removeByKey ∨ op.kind = .removeByKeyList)
    (hreturn : op.returnType.getD .none = .none) (entries : Dict String Value) :
    map entries op = (select entries op).map fun selected => (removed entries selected, none) := by
  cases hselect : select entries op with
  | error e =>
    rw [map]
    rcases hkind with hkind | hkind <;> rw [hkind, hselect] <;> rfl
  | ok selected =>
    have hwrite : op.kind.isWrite := by rcases hkind with hkind | hkind <;> rw [hkind] <;> rfl
    rw [map_of_select hselect, if_pos hwrite, hreturn]
    rfl

theorem map_of_matching (test : String → Value → Bool) (hwrite : op.kind.isWrite)
    (hreturn : op.returnType.getD .none = .none)
    (h : select entries op = .ok (matching entries test)) :
    map entries op = .ok (entries.filter fun e => !test e.1 e.2, none) := by
  rw [map_of_select h, if_pos hwrite, hreturn, removed_matching, report]

section WithoutReturnType

variable (hreturn : returnType.getD .none = .none)
include hreturn

theorem map_removeByKey (bin : String) (key : Value) (entries : Dict String Value) :
    map entries { MapOperation.new .removeByKey bin with key := some key, returnType }
      = finishing none (withoutKey key) entries := by
  rw [map_of_keys (.inl rfl) hreturn]
  simp only [select, MapOperation.new, required, finishing, withoutKey, bind, Except.bind]
  cases mapKey key <;> rfl

theorem map_removeByKeyList (bin : String) (keys : List Value) (entries : Dict String Value) :
    map entries { MapOperation.new .removeByKeyList bin with key := some (.list keys), returnType }
      = finishing none (withoutKeys keys) entries := by
  rw [map_of_keys (.inr rfl) hreturn]
  simp only [select, MapOperation.new, required, items, finishing, withoutKeys, bind, Except.bind]
  cases keys.mapM mapKey with
  | error e => rfl
  | ok wanted => exact congrArg (fun left => Except.ok (left, none)) (removed_matching _)

theorem map_removeByValue (bin : String) (v : Value) (entries : Dict String Value) :
    map entries { MapOperation.new .removeByValue bin with value := some v, returnType }
      = finishing none (withoutValue v) entries :=
  map_of_matching (fun _ v' => v'.compare v == .eq) rfl hreturn rfl

theorem map_removeByValueList (bin : String) (values : List Value) (entries : Dict String Value) :
    map entries { MapOperation.new .removeByValueList bin with
        value := some (.list values), returnType }
      = finishing none (withoutValues values) entries :=
  map_of_matching (fun _ v => values.any fun w => v.compare w == .eq) rfl hreturn rfl

end WithoutReturnType

end Removals

section Bulk

variable {bins : Bins} {bin : String} {items : List Value} {returnType : Option ReturnType}

/-- The list that a bin holds, empty without one. -/
def listIn (bins : Bins) (bin : String) : List Value :=
  ((Dict.get? bins bin).bind Value.asList?).getD []

theorem listIn_of_contents_eq_ok {xs : List Value}
    (h : contents bins bin [] Value.asList? = .ok xs) : listIn bins bin = xs := by
  rw [listIn]
  obtain ⟨hget, rfl⟩ | ⟨v, hget, hinside⟩ := eq_of_contents_eq_ok h
  · rw [hget]
    rfl
  · rw [hget, Option.bind_some, hinside, Option.getD_some]

theorem run_listAppendItems (hne : items ≠ []) :
    run bins [.listAppendItems bin items] = run bins (items.map (.listAppend bin)) := by
  let bulk := { ListOperation.new .appendItems bin with value := some (.list items) }
  let single (v : Value) := { ListOperation.new .append bin with value := some v }
  apply run_lists bin bulk single appended hne ⟨rfl, rfl⟩ (fun _ => ⟨rfl, rfl⟩)
  · intro v xs
    exact list_append bin v xs
  · intro xs _
    rw [list_appendItems, finishing, finishing, foldlM_appended]

theorem run_listInsertItems (hne : items ≠ []) (index : Int64)
    (hsize : (listIn bins bin).length + 65536 + items.length < 2 ^ 63) :
    run bins [.listInsertItems bin index items]
      = run bins (items.mapIdx fun k v => .listInsert bin (successive index k) v) := by
  let bulk := { ListOperation.new .insertItems bin with
    index := some index, value := some (.list items) }
  let single (b : Value × Nat) := { ListOperation.new .insert bin with
    index := some (successive index b.2), value := some b.1 }
  rw [List.mapIdx_eq_zipIdx_map]
  apply run_lists bin bulk single (fun b => inserted (successive index b.2) b.1)
    (by simpa using hne) ⟨rfl, rfl⟩ (fun _ => ⟨rfl, rfl⟩)
  · intro b xs
    exact list_insert bin (successive index b.2) b.1 xs
  · intro xs hstart
    rw [listIn_of_contents_eq_ok hstart] at hsize
    rw [list_insertItems, finishing, finishing, foldlM_successive hne hsize]

theorem run_mapPutItems {entries : Dict String Value} (hne : entries ≠ [])
    (policy : Option MapPolicy) :
    run bins [.mapPutItems bin entries policy]
      = run bins (entries.map fun e => .mapPut bin (.string e.1) e.2 policy) := by
  let bulk := { MapOperation.new .putItems bin with value := some (.map entries), policy }
  let single (e : String × Value) := { MapOperation.new .put bin with
    key := some (.string e.1), value := some e.2, policy }
  apply run_maps bin bulk single (put policy) hne ⟨rfl, rfl⟩ (fun _ => ⟨rfl, rfl⟩)
  · intro e old
    exact map_put bin e policy old
  · intro old _
    exact map_putItems bin entries policy old

theorem run_mapRemoveByKeyList (hne : items ≠ [])
    (hasc : ∀ entries, Dict.get? bins bin = some (.map entries) → Dict.Ascending entries)
    (hreturn : returnType.getD .none = .none) :
    run bins [.mapRemoveByKeyList bin items returnType]
      = run bins (items.map fun key => .mapRemoveByKey bin key returnType) := by
  let bulk := { MapOperation.new .removeByKeyList bin with
    key := some (.list items), returnType }
  let single (key : Value) := { MapOperation.new .removeByKey bin with key := some key, returnType }
  apply run_maps bin bulk single withoutKey hne ⟨rfl, rfl⟩ (fun _ => ⟨rfl, rfl⟩)
  · intro key entries
    exact map_removeByKey hreturn bin key entries
  · intro entries hstart
    have hentries : Dict.Ascending entries := by
      obtain ⟨-, rfl⟩ | ⟨v, hget, hinside⟩ := eq_of_contents_eq_ok hstart
      · exact Dict.ascending_nil
      · cases v <;> cases hinside
        exact hasc entries hget
    rw [map_removeByKeyList hreturn, finishing, finishing, foldlM_withoutKey hentries]

theorem run_mapRemoveByValueList (hne : items ≠ [])
    (hreturn : returnType.getD .none = .none) :
    run bins [.mapRemoveByValueList bin items returnType]
      = run bins (items.map fun v => .mapRemoveByValue bin v returnType) := by
  let bulk := { MapOperation.new .removeByValueList bin with
    value := some (.list items), returnType }
  let single (v : Value) := { MapOperation.new .removeByValue bin with value := some v, returnType }
  apply run_maps bin bulk single withoutValue hne ⟨rfl, rfl⟩ (fun _ => ⟨rfl, rfl⟩)
  · intro v entries
    exact map_removeByValue hreturn bin v entries
  · intro entries _
    rw [map_removeByValueList hreturn, finishing, finishing, foldlM_withoutValue]

/-- An operation on many items leaves the bins, gives the results and fails with the error that the
operations on one item after the other do. The maps of a record are in key order, and no list in
memory has so many elements that its indexes could run out. -/
theorem bulk_operations_are_sequences (hne : items ≠ [])
    (hasc : ∀ entries, Dict.get? bins bin = some (.map entries) → Dict.Ascending entries)
    (hsize : (listIn bins bin).length + 65536 + items.length < 2 ^ 63) :
    run bins [.listAppendItems bin items] = run bins (items.map (.listAppend bin)) ∧
    (∀ index, run bins [.listInsertItems bin index items]
      = run bins (items.mapIdx fun k v => .listInsert bin (successive index k) v)) ∧
    (∀ entries policy, entries ≠ [] → run bins [.mapPutItems bin entries policy]
      = run bins (entries.map fun e => .mapPut bin (.string e.1) e.2 policy)) ∧
    (∀ returnType, returnType.getD .none = .none →
      run bins [.mapRemoveByKeyList bin items returnType]
        = run bins (items.map fun key => .mapRemoveByKey bin key returnType) ∧
      run bins [.mapRemoveByValueList bin items returnType]
        = run bins (items.map fun v => .mapRemoveByValue bin v returnType)) := by
  refine ⟨run_listAppendItems hne, ?_, ?_, ?_⟩
  · intro index
    exact run_listInsertItems hne index hsize
  · intro entries policy hentries
    exact run_mapPutItems hentries policy
  · intro returnType hreturn
    exact ⟨run_mapRemoveByKeyList hne hasc hreturn, run_mapRemoveByValueList hne hreturn⟩

/-- Insertions past the end, the first of which fills the list up, and in front of the last element,
which moves on. Of the removals, the second fails. -/
theorem bulk_operations_are_sequences_places :
    let list : Value := .list [.int 1, .int 2]
    let map : Value := .map [("1", .int 5), ("2", .int 6), ("a", .int 7)]
    run [("b", list)] [.listInsert "b" 4 (.int 2), .listInsert "b" 5 .nil]
      = .ok ⟨[("b", .list [.int 1, .int 2, .nil, .nil, .int 2, .nil])], [("b", .int 6)], none⟩ ∧
    run [("b", list)] [.listInsert "b" (-1) (.int 2), .listInsert "b" (-1) .nil]
      = .ok ⟨[("b", .list [.int 1, .int 2, .nil, .int 2])], [("b", .int 4)], none⟩ ∧
    run [("b", map)] [.mapRemoveByKey "b" (.int 2) none, .mapRemoveByKey "b" .nil none]
      = .error (.new .requestInvalid "unsupported map key type nil") ∧
    run [("b", map)] [.mapRemoveByValue "b" (.int 7) none, .mapRemoveByValue "b" (.int 5) none]
      = .ok ⟨[("b", .map [("2", .int 6)])], [], none⟩ := by
  intro list map
  have hlist (index : Int64) : run [("b", list)] [.listInsertItems "b" index [.int 2, .nil]]
      = run [("b", list)] [.listInsert "b" (successive index 0) (.int 2),
        .listInsert "b" (successive index 1) .nil] := by
    refine (bulk_operations_are_sequences (List.cons_ne_nil _ _) ?_ (by decide)).2.1 index
    intro entries hentries
    dsimp only [list] at hentries
    cases hentries
  have hasc : ∀ entries, Dict.get? [("b", map)] "b" = some (.map entries) →
      Dict.Ascending entries := by
    intro entries hentries
    dsimp only [map] at hentries
    cases hentries
    decide +kernel
  have hsize : (listIn [("b", map)] "b").length + 65536 + 2 < 2 ^ 63 := by decide
  have hkeys := (bulk_operations_are_sequences (List.cons_ne_nil (.int 2) [.nil]) hasc hsize).2.2.2
  have hvalues :=
    (bulk_operations_are_sequences (List.cons_ne_nil (.int 7) [.int 5]) hasc hsize).2.2.2
  refine ⟨?_, ?_, ?_, ?_⟩
  · exact (hlist 4).symm.trans rfl
  · exact (hlist (-1)).symm.trans rfl
  · exact (hkeys none rfl).1.symm.trans rfl
  · exact (hvalues none rfl).2.symm.trans rfl

end Bulk

end RecordDb.Evaluation
