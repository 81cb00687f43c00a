import RecordDb.Proofs.Wire.Operations
import RecordDb.Proofs.Wire.Policies
import RecordDb.Proofs.Wire.Queries
import RecordDb.Proofs.Wire.Records
import RecordDb.Request

/-!
# Reading messages back

Requests and responses are read back from their bytes: what is short enough to be written and not
nested too deeply comes back as it was, up to how values are read.
-/
namespace RecordDb

open Codec
open Wire (Doc Reading)
open Wire.Fields

namespace Request

def asRead : Request → Request
  | get key policy => get key.asRead policy
  | select key bins policy => select key.asRead bins policy
  | existence key policy => existence key.asRead policy
  | put key bins metadata policy => put key.asRead bins.asRead metadata policy
  | remove key policy => remove key.asRead policy
  | operate key ops metadata policy =>
    operate key.asRead (ops.map Operation.asRead) metadata policy
  | apply key call policy => apply key.asRead call.asRead policy
  | batchGet keys policy => batchGet (keys.map Key.asRead) policy
  | batchExists keys policy => batchExists (keys.map Key.asRead) policy
  | batchSelect keys bins policy => batchSelect (keys.map Key.asRead) bins policy
  | query ns set spec policy => query ns set spec.asRead policy
  | indexCreate options indexType policy => indexCreate options indexType policy
  | indexRemove ns index policy => indexRemove ns index policy
  | udfRegister path udfType policy => udfRegister path udfType policy
  | udfRemove module policy => udfRemove module policy
  | info request host policy => info request host policy

def isOrdered : Request → Bool
  | get key _ | select key _ _ | existence key _ | remove key _ => key.isOrdered
  | put key bins _ _ => key.isOrdered && bins.isOrdered
  | operate key ops _ _ => key.isOrdered && ops.all Operation.isOrdered
  | apply key call _ => key.isOrdered && call.isOrdered
  | batchGet keys _ | batchExists keys _ | batchSelect keys _ _ => keys.all Key.isOrdered
  | query _ _ spec _ => spec.isOrdered
  | _ => true

theorem follow_toFields (q : Request) : Follow q.toFields (fieldNames q.tag) := by
  cases q <;> simp [toFields, tag, fieldNames]

theorem isWrittenFields_toFields (q : Request) : Doc.isWrittenFields q.toFields := by
  cases q <;> simp [toFields]

theorem tag_mem_tags (q : Request) : q.tag ∈ tags := by
  cases q <;> simp [tag, tags]

theorem command_not_mem_fieldNames (q : Request) : "command" ∉ fieldNames q.tag := by
  cases q <;> simp [tag, fieldNames]

theorem nodup_fieldNames (q : Request) : (fieldNames q.tag).Nodup := by
  cases q <;> simp [tag, fieldNames]

theorem ofFields?_toFields (q : Request) (h : q.isOrdered) (r : Reading) (command : Doc) :
    ofFields? q.tag ⟨r, ("command", command) :: q.toFields⟩ = some q.asRead := by
  cases q with
  | get key policy | select key bins policy | existence key policy | remove key policy =>
    rw [isOrdered] at h
    simp [ofFields?, tag, toFields, get?, required?, h, asRead]
  | put key bins metadata policy =>
    rw [isOrdered, Bool.and_eq_true] at h
    simp [ofFields?, tag, toFields, get?, required?, h, asRead]
  | operate key ops metadata policy =>
    rw [isOrdered, Bool.and_eq_true, List.all_eq_true] at h
    simp [ofFields?, tag, toFields, get?, required?, h.1, ReadsBack.ofDoc?_toDoc r ops h.2, asRead]
  | apply key call policy =>
    rw [isOrdered, Bool.and_eq_true] at h
    simp [ofFields?, tag, toFields, get?, required?, h, asRead]
  | batchGet keys policy | batchExists keys policy | batchSelect keys bins policy =>
    rw [isOrdered, List.all_eq_true] at h
    simp [ofFields?, tag, toFields, get?, required?, ReadsBack.ofDoc?_toDoc r keys h, asRead]
  | query ns set spec policy =>
    rw [isOrdered] at h
    simp [ofFields?, tag, toFields, get?, required?, h, asRead]
  | indexCreate | indexRemove | udfRegister | udfRemove | info =>
    simp [ofFields?, tag, toFields, get?, required?, asRead]

end Request

instance : ReadsBack Request (fun q => q.isOrdered) Request.asRead where
  ofDoc?_toDoc r q h := by
    simp only [toDoc, ofDoc?]
    rw [q.follow_toFields.tagged? r q.command_not_mem_fieldNames q.tag_mem_tags
      q.isWrittenFields_toFields]
    simp only [Option.bind_eq_bind, Option.bind_some]
    rw [q.follow_toFields.fields?_cons q.nodup_fieldNames .held q.command_not_mem_fieldNames,
      Option.bind_some, q.ofFields?_toFields h]
  isWritten_toDoc q := by simp [toDoc, Doc.isWritten, q.isWrittenFields_toFields]

namespace Response

def asRead : Response → Response
  | record bins metadata => record bins.asRead metadata
  | batch entries => batch (entries.map BatchRecord.asRead)
  | value v => value v.asRead
  | records found => records (found.map Record.asRead)
  | answer => answer

def isOrdered : Response → Bool
  | record bins _ => bins.isOrdered
  | batch entries => entries.all BatchRecord.isOrdered
  | value v => v.isOrdered
  | records found => found.all Record.isOrdered
  | _ => true

theorem follow_toFields (a : Response) : Follow a.toFields (fieldNames a.kind) := by
  cases a <;> simp [toFields, kind, fieldNames]

theorem isWrittenFields_toFields (a : Response) : Doc.isWrittenFields a.toFields := by
  cases a <;> simp [toFields]

theorem kind_mem_kinds (a : Response) : a.kind ∈ kinds := by
  cases a <;> simp [kind, kinds]

theorem response_not_mem_fieldNames (a : Response) : "response" ∉ fieldNames a.kind := by
  cases a <;> simp [kind, fieldNames]

theorem nodup_fieldNames (a : Response) : (fieldNames a.kind).Nodup := by
  cases a <;> simp [kind, fieldNames]

theorem ofFields?_toFields (a : Response) (h : a.isOrdered) (r : Reading) (response : Doc) :
    ofFields? a.kind ⟨r, ("response", response) :: a.toFields⟩ = some a.asRead := by
  cases a with
  | record bins metadata =>
    rw [isOrdered] at h
    simp [ofFields?, kind, toFields, get?, required?, h, asRead]
  | batch entries =>
    rw [isOrdered, List.all_eq_true] at h
    simp [ofFields?, kind, toFields, get?, required?, ReadsBack.ofDoc?_toDoc r entries h, asRead]
  | value v =>
    rw [isOrdered] at h
    simp [ofFields?, kind, toFields, get?, required?, h, asRead]
  | records found =>
    rw [isOrdered, List.all_eq_true] at h
    simp [ofFields?, kind, toFields, get?, required?, ReadsBack.ofDoc?_toDoc r found h, asRead]
  | existence | written | info | done =>
    simp [ofFields?, kind, toFields, get?, required?, asRead]

end Response

instance : ReadsBack Response (fun a => a.isOrdered) Response.asRead where
  ofDoc?_toDoc r a h := by
    simp only [toDoc, ofDoc?]
    rw [a.follow_toFields.tagged? r a.response_not_mem_fieldNames a.kind_mem_kinds
      a.isWrittenFields_toFields]
    simp only [Option.bind_eq_bind, Option.bind_some]
    rw [a.follow_toFields.fields?_cons a.nodup_fieldNames .held a.response_not_mem_fieldNames,
      Option.bind_some, a.ofFields?_toFields h]
    cases a <;> rfl
  isWritten_toDoc a := by simp [toDoc, Doc.isWritten, a.isWrittenFields_toFields]

/-- What can be written is read back from its bytes. -/
theorem Codec.unpack?_pack {α : Type} [Codec α] {P : α → Prop} {f : α → α} [ReadsBack α P f]
    (a : α) (ho : P a) (hs : (toDoc a).isShort) (hn : (toDoc a).nesting ≤ Wire.Packed.depthLimit) :
    unpack? (pack a) = some (f a) := by
  rw [unpack?, pack, Wire.Packed.decode?_encode _ (ReadsBack.isWritten_toDoc a) hs hn,
    Option.bind_some, ReadsBack.ofDoc?_toDoc .packed a ho]

/-- Every message whose dictionaries ascend, as all dictionaries do that were built by
insertion, is decoded from what it is encoded to. The parts that documents do not tell are
the ones that `asRead` takes out: a geographic text is read as a text, a nil in an optional
field as no value. -/
theorem message_round_trip :
    (∀ q : Request, q.isOrdered → (toDoc q).isShort →
      (toDoc q).nesting ≤ Wire.Packed.depthLimit → unpack? (pack q) = some q.asRead) ∧
    (∀ a : Response, a.isOrdered → (toDoc a).isShort →
      (toDoc a).nesting ≤ Wire.Packed.depthLimit → unpack? (pack a) = some a.asRead) :=
  ⟨unpack?_pack, unpack?_pack⟩

/-- A write of a geographic text and of a map, to a nil user key, and the record read back. -/
def placeWrite : Request :=
  .put ⟨"test", "places", some .nil, none⟩
    [("at", .geo "here"), ("m", .map [("a", .int (-129)), ("b", .list [.blob [], .list []])])]
    none none

def placeFound : Response :=
  .record [("at", .geo "here"), ("n", .nil), ("x", .float ⟨0x8000000000000000⟩)] ⟨none, some 1⟩

theorem message_round_trip_place :
    unpack? (pack placeWrite) = some (Request.put ⟨"test", "places", none, none⟩
      [("at", .string "here"), ("m", .map [("a", .int (-129)), ("b", .list [.blob [], .list []])])]
      none none) ∧
    unpack? (pack placeFound) = some (Response.record
      [("at", .string "here"), ("n", .nil), ("x", .float ⟨0x8000000000000000⟩)] ⟨none, some 1⟩) :=
  ⟨message_round_trip.1 placeWrite (by decide) (by decide) (by decide),
    message_round_trip.2 placeFound (by decide) (by decide) (by decide)⟩

end RecordDb
