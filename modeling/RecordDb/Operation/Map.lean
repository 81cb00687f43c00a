import RecordDb.Value.Codec

/-!
# Operations on a map bin

Entries are addressed by key, by value, by index (the place in key order) or by rank (the place in
value order); negative places count from the end and a nil bound leaves a range open on its side.
-/
namespace RecordDb

open Codec Wire.Fields

inductive MapKind where
  | setPolicy
  | put
  | putItems
  | increment
  | decrement
  | clear
  | removeByKey
  | removeByKeyList
  | removeByKeyRange
  | removeByValue
  | removeByValueList
  | removeByValueRange
  | removeByIndex
  | removeByIndexRange
  | removeByRank
  | removeByRankRange
  | size
  | getByKey
  | getByKeyRange
  | getByValue
  | getByValueRange
  | getByIndex
  | getByIndexRange
  | getByRank
  | getByRankRange
  deriving DecidableEq

instance : Enumeration MapKind where
  all := [.setPolicy, .put, .putItems, .increment, .decrement, .clear, .removeByKey,
    .removeByKeyList, .removeByKeyRange, .removeByValue, .removeByValueList, .removeByValueRange,
    .removeByIndex, .removeByIndexRange, .removeByRank, .removeByRankRange, .size, .getByKey,
    .getByKeyRange, .getByValue, .getByValueRange, .getByIndex, .getByIndexRange, .getByRank,
    .getByRankRange]
  name
    | .setPolicy => "SET_POLICY"
    | .put => "PUT"
    | .putItems => "PUT_ITEMS"
    | .increment => "INCREMENT"
    | .decrement => "DECREMENT"
    | .clear => "CLEAR"
    | .removeByKey => "REMOVE_BY_KEY"
    | .removeByKeyList => "REMOVE_BY_KEY_LIST"
    | .removeByKeyRange => "REMOVE_BY_KEY_RANGE"
    | .removeByValue => "REMOVE_BY_VALUE"
    | .removeByValueList => "REMOVE_BY_VALUE_LIST"
    | .removeByValueRange => "REMOVE_BY_VALUE_RANGE"
    | .removeByIndex => "REMOVE_BY_INDEX"
    | .removeByIndexRange => "REMOVE_BY_INDEX_RANGE"
    | .removeByRank => "REMOVE_BY_RANK"
    | .removeByRankRange => "REMOVE_BY_RANK_RANGE"
    | .size => "SIZE"
    | .getByKey => "GET_BY_KEY"
    | .getByKeyRange => "GET_BY_KEY_RANGE"
    | .getByValue => "GET_BY_VALUE"
    | .getByValueRange => "GET_BY_VALUE_RANGE"
    | .getByIndex => "GET_BY_INDEX"
    | .getByIndexRange => "GET_BY_INDEX_RANGE"
    | .getByRank => "GET_BY_RANK"
    | .getByRankRange => "GET_BY_RANK_RANGE"

def MapKind.isWrite : MapKind → Bool
  | .size | .getByKey | .getByKeyRange | .getByValue | .getByValueRange | .getByIndex
  | .getByIndexRange | .getByRank | .getByRankRange => false
  | _ => true

/-- What is reported about the selected entries. -/
inductive ReturnType where
  | none
  | index
  | reverseIndex
  | rank
  | reverseRank
  | count
  | key
  | value
  | keyValue
  deriving DecidableEq

instance : Enumeration ReturnType where
  all := [.none, .index, .reverseIndex, .rank, .reverseRank, .count, .key, .value, .keyValue]
  name
    | .none => "NONE"
    | .index => "INDEX"
    | .reverseIndex => "REVERSE_INDEX"
    | .rank => "RANK"
    | .reverseRank => "REVERSE_RANK"
    | .count => "COUNT"
    | .key => "KEY"
    | .value => "VALUE"
    | .keyValue => "KEY_VALUE"

inductive MapOrder where
  | unordered
  | keyOrdered
  | keyValueOrdered
  deriving DecidableEq

instance : Enumeration MapOrder where
  all := [.unordered, .keyOrdered, .keyValueOrdered]
  name
    | .unordered => "UNORDERED"
    | .keyOrdered => "KEY_ORDERED"
    | .keyValueOrdered => "KEY_VALUE_ORDERED"

/-- Which of absent and present entries a write may touch. -/
inductive WriteMode where
  | update
  | updateOnly
  | createOnly
  deriving DecidableEq

instance : Enumeration WriteMode where
  all := [.update, .updateOnly, .createOnly]
  name
    | .update => "UPDATE"
    | .updateOnly => "UPDATE_ONLY"
    | .createOnly => "CREATE_ONLY"

structure MapPolicy where
  order : Option MapOrder
  writeMode : Option WriteMode
  deriving DecidableEq

instance : Codec MapPolicy where
  toDoc p := .obj <| ofOption "order" p.order ++ ofOption "write_mode" p.writeMode
  ofDoc? r d := do
    let f ← d.fields? r ["order", "write_mode"]
    return ⟨← f.optional? "order", ← f.optional? "write_mode"⟩

/-- The key of a removal by key list is a list; so is the value of one by value list,
and a put of several items takes a map. -/
structure MapOperation where
  kind : MapKind
  bin : String
  key : Option Value
  value : Option Value
  start : Option Value
  stop : Option Value
  index : Option Int64
  rank : Option Int64
  count : Option Int64
  returnType : Option ReturnType
  policy : Option MapPolicy

namespace MapOperation

def new (kind : MapKind) (bin : String) : MapOperation :=
  ⟨kind, bin, none, none, none, none, none, none, none, none, none⟩

def same (a b : MapOperation) : Bool :=
  a.kind == b.kind && a.bin == b.bin && sameField a.key b.key && sameField a.value b.value
    && sameField a.start b.start && sameField a.stop b.stop && a.index == b.index
    && a.rank == b.rank && a.count == b.count && a.returnType == b.returnType
    && a.policy == b.policy

def toFields (op : MapOperation) : List (String × Wire.Doc) :=
  [("op", toDoc op.kind), ("bin", toDoc op.bin)] ++ ofOption "key" op.key
    ++ ofOption "value" op.value ++ ofOption "begin" op.start ++ ofOption "end" op.stop
    ++ ofOption "index" op.index ++ ofOption "rank" op.rank ++ ofOption "count" op.count
    ++ ofOption "return_type" op.returnType ++ ofOption "policy" op.policy

def ofFields? (f : Wire.Fields) : Option MapOperation :=
  return ⟨← f.required? "op", ← f.required? "bin", ← f.optional? "key", ← f.optional? "value",
    ← f.optional? "begin", ← f.optional? "end", ← f.optional? "index", ← f.optional? "rank",
    ← f.optional? "count", ← f.optional? "return_type", ← f.optional? "policy"⟩

def fieldNames : List String :=
  ["op", "bin", "key", "value", "begin", "end", "index", "rank", "count", "return_type", "policy"]

end MapOperation

end RecordDb
