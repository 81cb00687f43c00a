import RecordDb.Operation

/-!
# Builders of operations

One builder for every operation. A builder sets the fields that its kind uses and leaves the others
absent; places and counts are passed on unchecked.
-/
namespace RecordDb.Operation

def ofScalar (kind : ScalarKind) (bin : String) (value : Value) : Operation :=
  .scalar { ScalarOperation.new kind bin with value := some value }

def read (bin : String) : Operation := .scalar (.new .read bin)

def write (bin : String) (value : Value) : Operation := ofScalar .write bin value

def incr (bin : String) (value : Value) : Operation := ofScalar .incr bin value

/-- Another name for `incr`. -/
def add (bin : String) (value : Value) : Operation := incr bin value

def append (bin : String) (value : Value) : Operation := ofScalar .append bin value

def prepend (bin : String) (value : Value) : Operation := ofScalar .prepend bin value

/-- Sets the time to live of the record; the bin plays no part. -/
def touch (bin : String) (ttl : UInt32) : Operation :=
  .scalar { ScalarOperation.new .touch bin with ttl := some ttl }

def listAppend (bin : String) (value : Value) : Operation :=
  .list { ListOperation.new .append bin with value := some value }

def listAppendItems (bin : String) (items : List Value) : Operation :=
  .list { ListOperation.new .appendItems bin with value := some (.list items) }

def listInsert (bin : String) (index : Int64) (value : Value) : Operation :=
  .list { ListOperation.new .insert bin with index := some index, value := some value }

def listInsertItems (bin : String) (index : Int64) (items : List Value) : Operation :=
  .list { ListOperation.new .insertItems bin with index := some index, value := some (.list items) }

def listAt (kind : ListKind) (bin : String) (index : Int64) : Operation :=
  .list { ListOperation.new kind bin with index := some index }

def listSpan (kind : ListKind) (bin : String) (index : Int64) (count : Option Int64) : Operation :=
  .list { ListOperation.new kind bin with index := some index, count }

def listPop (bin : String) (index : Int64) : Operation := listAt .pop bin index

def listPopRange (bin : String) (index : Int64) (count : Option Int64) : Operation :=
  listSpan .popRange bin index count

def listRemove (bin : String) (index : Int64) : Operation := listAt .remove bin index

def listRemoveRange (bin : String) (index : Int64) (count : Option Int64) : Operation :=
  listSpan .removeRange bin index count

def listClear (bin : String) : Operation := .list (.new .clear bin)

def listSet (bin : String) (index : Int64) (value : Value) : Operation :=
  .list { ListOperation.new .set bin with index := some index, value := some value }

def listTrim (bin : String) (index count : Int64) : Operation :=
  listSpan .trim bin index (some count)

def listGet (bin : String) (index : Int64) : Operation := listAt .get bin index

def listGetRange (bin : String) (index : Int64) (count : Option Int64) : Operation :=
  listSpan .getRange bin index count

def listSize (bin : String) : Operation := .list (.new .size bin)

def mapSetPolicy (bin : String) (policy : MapPolicy) : Operation :=
  .map { MapOperation.new .setPolicy bin with policy := some policy }

def mapEntry (kind : MapKind) (bin : String) (key value : Value) (policy : Option MapPolicy) :
    Operation :=
  .map { MapOperation.new kind bin with key := some key, value := some value, policy }

def mapPut (bin : String) (key value : Value) (policy : Option MapPolicy) : Operation :=
  mapEntry .put bin key value policy

def mapPutItems (bin : String) (items : Dict String Value) (policy : Option MapPolicy) :
    Operation :=
  .map { MapOperation.new .putItems bin with value := some (.map items), policy }

def mapIncrement (bin : String) (key delta : Value) (policy : Option MapPolicy) : Operation :=
  mapEntry .increment bin key delta policy

def mapDecrement (bin : String) (key delta : Value) (policy : Option MapPolicy) : Operation :=
  mapEntry .decrement bin key delta policy

def mapClear (bin : String) : Operation := .map (.new .clear bin)

def mapSize (bin : String) : Operation := .map (.new .size bin)

def mapByKey (kind : MapKind) (bin : String) (key : Value) (returnType : Option ReturnType) :
    Operation :=
  .map { MapOperation.new kind bin with key := some key, returnType }

def mapByValue (kind : MapKind) (bin : String) (value : Value) (returnType : Option ReturnType) :
    Operation :=
  .map { MapOperation.new kind bin with value := some value, returnType }

def mapByRange (kind : MapKind) (bin : String) (start stop : Value)
    (returnType : Option ReturnType) : Operation :=
  .map { MapOperation.new kind bin with start := some start, stop := some stop, returnType }

def mapByIndex (kind : MapKind) (bin : String) (index : Int64) (count : Option Int64)
    (returnType : Option ReturnType) : Operation :=
  .map { MapOperation.new kind bin with index := some index, count, returnType }

def mapByRank (kind : MapKind) (bin : String) (rank : Int64) (count : Option Int64)
    (returnType : Option ReturnType) : Operation :=
  .map { MapOperation.new kind bin with rank := some rank, count, returnType }

def mapRemoveByKey (bin : String) (key : Value) (returnType : Option ReturnType) : Operation :=
  mapByKey .removeByKey bin key returnType

def mapRemoveByKeyList (bin : String) (keys : List Value) (returnType : Option ReturnType) :
    Operation :=
  mapByKey .removeByKeyList bin (.list keys) returnType

def mapRemoveByKeyRange (bin : String) (start stop : Value) (returnType : Option ReturnType) :
    Operation :=
  mapByRange .removeByKeyRange bin start stop returnType

def mapRemoveByValue (bin : String) (value : Value) (returnType : Option ReturnType) : Operation :=
  mapByValue .removeByValue bin value returnType

def mapRemoveByValueList (bin : String) (values : List Value) (returnType : Option ReturnType) :
    Operation :=
  mapByValue .removeByValueList bin (.list values) returnType

def mapRemoveByValueRange (bin : String) (start stop : Value) (returnType : Option ReturnType) :
    Operation :=
  mapByRange .removeByValueRange bin start stop returnType

def mapRemoveByIndex (bin : String) (index : Int64) (returnType : Option ReturnType) : Operation :=
  mapByIndex .removeByIndex bin index none returnType

def mapRemoveByIndexRange (bin : String) (index : Int64) (count : Option Int64)
    (returnType : Option ReturnType) : Operation :=
  mapByIndex .removeByIndexRange bin index count returnType

def mapRemoveByRank (bin : String) (rank : Int64) (returnType : Option ReturnType) : Operation :=
  mapByRank .removeByRank bin rank none returnType

def mapRemoveByRankRange (bin : String) (rank : Int64) (count : Option Int64)
    (returnType : Option ReturnType) : Operation :=
  mapByRank .removeByRankRange bin rank count returnType

def mapGetByKey (bin : String) (key : Value) (returnType : ReturnType) : Operation :=
  mapByKey .getByKey bin key (some returnType)

def mapGetByKeyRange (bin : String) (start stop : Value) (returnType : ReturnType) : Operation :=
  mapByRange .getByKeyRange bin start stop (some returnType)

def mapGetByValue (bin : String) (value : Value) (returnType : ReturnType) : Operation :=
  mapByValue .getByValue bin value (some returnType)

def mapGetByValueRange (bin : String) (start stop : Value) (returnType : ReturnType) : Operation :=
  mapByRange .getByValueRange bin start stop (some returnType)

def mapGetByIndex (bin : String) (index : Int64) (returnType : ReturnType) : Operation :=
  mapByIndex .getByIndex bin index none (some returnType)

def mapGetByIndexRange (bin : String) (index : Int64) (count : Option Int64)
    (returnType : ReturnType) : Operation :=
  mapByIndex .getByIndexRange bin index count (some returnType)

def mapGetByRank (bin : String) (rank : Int64) (returnType : ReturnType) : Operation :=
  mapByRank .getByRank bin rank none (some returnType)

def mapGetByRankRange (bin : String) (rank : Int64) (count : Option Int64)
    (returnType : ReturnType) : Operation :=
  mapByRank .getByRankRange bin rank count (some returnType)

end RecordDb.Operation
