import RecordDb.Proofs.Wire.Textual

/-!
# Documents in which digests are lists of numbers

A key is read from them as it is read from bytes, and so is everything that holds keys; all else is
written without bytes.
-/
namespace RecordDb

open Codec
open Wire (Doc Reading)
open Wire.Doc (listedFields numbers)
open Wire.Fields

/-- Types whose plain elements are also read from what a text tells of their documents. -/
class ReadsListed (α : Type) [Codec α] (plain : outParam (α → Prop))
    (asRead : outParam (α → α)) : Prop where
  ofDoc?_listed (r : Reading) (a : α) : plain a → ofDoc? r (toDoc a).listed = some (asRead a)
  isTextual_toDoc (a : α) : plain a → (toDoc a).isTextual true

attribute [simp] ReadsListed.ofDoc?_listed ReadsListed.isTextual_toDoc

section Fields
variable {α : Type} [Codec α] {P : α → Prop} [Textual α P]

@[simp] theorem listed_toDoc (a : α) (h : P a) : (toDoc a).listed = toDoc a :=
  Doc.listed_of_isTextual _ (Textual.isTextual_toDoc false a h)

@[simp] theorem listedFields_ofOption (name : String) (o : Option α) (h : ∀ a, o = some a → P a) :
    listedFields (ofOption name o) = ofOption name o :=
  Doc.listedFields_of_isTextual _ (isTextualFields_ofOption false name o h)

theorem listedFields_value {o : Option Value} (h : o.all Value.isTextual) (name : String) :
    listedFields (ofOption name o) = ofOption name o :=
  Doc.listedFields_of_isTextual _ (isTextualFields_value h false name)

@[simp] theorem listedFields_nil : listedFields [] = [] := rfl

@[simp] theorem listedFields_cons (name : String) (d : Doc) (rest : List (String × Doc)) :
    listedFields ((name, d) :: rest) = (name, d.listed) :: listedFields rest := rfl

@[simp] theorem listedFields_append (fs gs : List (String × Doc)) :
    listedFields (fs ++ gs) = listedFields fs ++ listedFields gs := by
  simp only [Doc.listedFields_eq_map, List.map_append]

/-- The names of the fields stay. -/
theorem Wire.Fields.Follow.listed {fields : List (String × Doc)} {names : List String}
    (h : Follow fields names) : Follow (listedFields fields) names := by
  rwa [Follow, Doc.listedFields_eq_map, List.map_map]

end Fields

instance {α : Type} [Codec α] {P Q : α → Prop} {f : α → α} [ReadsBack α P f] [Textual α Q] :
    ReadsListed α (fun a => P a ∧ Q a) f where
  ofDoc?_listed r a h := by rw [listed_toDoc a h.2, ReadsBack.ofDoc?_toDoc r a h.1]
  isTextual_toDoc a h := Textual.isTextual_toDoc true a h.2

section Lists
variable {α : Type} [Codec α] {P : α → Prop} {f : α → α} [ReadsListed α P f]
include f

theorem ofDoc?_listed_list (r : Reading) (items : List α) (h : ∀ a ∈ items, P a) :
    ofDoc? r (toDoc items).listed = some (items.map f) := by
  change (Doc.listedItems (items.map toDoc)).mapM (ofDoc? r) = _
  rw [Doc.listedItems_eq_map, List.map_map]
  refine Wire.Packed.mapM_map_eq_some fun a ha => ?_
  exact ReadsListed.ofDoc?_listed r a (h a ha)

theorem isTextual_list (items : List α) (h : ∀ a ∈ items, P a) : (toDoc items).isTextual true :=
  Doc.isTextualItems_map true toDoc items fun a ha => ReadsListed.isTextual_toDoc a (h a ha)

end Lists

section Digests

theorem ofDoc?_numbers (r : Reading) (b : List UInt8) :
    (ofDoc? r (.arr (numbers b)) : Option ByteString) = some ⟨b⟩ := by
  have hn : (numbers b).mapM (Doc.inRange? 0 255) = some (b.map fun n => (n.toNat : Int)) := by
    refine Wire.Packed.mapM_map_eq_some fun n _ => ?_
    have := n.toNat_lt
    exact Doc.inRange?_int (by omega)
  have hb : (b.map fun n => (n.toNat : Int)).map (fun i => UInt8.ofNat i.toNat) = b := by
    rw [List.map_map]
    exact List.map_id'' (fun n => UInt8.ofNat_toNat) b
  have hread : (ofDoc? r (.arr (numbers b)) : Option ByteString)
      = ((numbers b).mapM (Doc.inRange? 0 255)).map
          fun ns => ⟨ns.map fun i => UInt8.ofNat i.toNat⟩ := by
    cases r <;> rfl
  rw [hread, hn, Option.map_some, hb]

@[simp] theorem listed_byteString (b : List UInt8) :
    (toDoc (ByteString.mk b)).listed = .arr (numbers b) := rfl

/-- A digest as a text tells it. -/
def digestNumbers (o : Option (List UInt8)) : Option Doc := o.map fun b => .arr (numbers b)

@[simp] theorem get?_listed_digest (written name : String) (o : Option (List UInt8)) :
    Dict.get? (listedFields (ofOption written (o.map ByteString.mk))) name
      = if written = name then digestNumbers o else none := by
  cases o with
  | none => simp [ofOption, digestNumbers]
  | some b => simp [ofOption, digestNumbers]

@[simp] theorem ofField?_digestNumbers (r : Reading) (o : Option (List UInt8)) :
    ofField? r (digestNumbers o) = some (o.map ByteString.mk) := by
  cases o with
  | none => rfl
  | some b =>
    change (ofDoc? r (.arr (numbers b))).map some = _
    rw [ofDoc?_numbers]
    rfl

@[simp] theorem isTextualFields_digest (name : String) (o : Option (List UInt8)) :
    Doc.isTextualFields true (ofOption name (o.map ByteString.mk)) := by
  cases o <;> rfl

end Digests

def Key.isTextual (k : Key) : Bool := k.userKey.all Value.isTextual

instance : ReadsListed Key (fun k => k.isOrdered ∧ k.isTextual) Key.asRead where
  ofDoc?_listed r k h := by
    have hk : ∀ v, k.userKey = some v → v.isOrdered := by
      simpa [Key.isOrdered, Option.all_eq_true] using h.1
    change (Doc.fields? r _ (.obj (listedFields _))).bind _ = _
    rw [Follow.fields?]
    · simp [get?, required?, listedFields_value h.2, ofField?_value r k.userKey hk, Key.asRead]
    · exact Follow.listed (by simp)
    · decide
  isTextual_toDoc k h := by
    change Doc.isTextual true (.obj _)
    simp [Doc.isTextual, isTextualFields_value h.2]

def Record.isTextual (r : Record) : Bool := r.key.isTextual && r.bins.isTextual

instance : ReadsListed Record (fun r => r.isOrdered ∧ r.isTextual) Record.asRead where
  ofDoc?_listed r a h := by
    simp only [Record.isOrdered, Record.isTextual, Bool.and_eq_true] at h
    change (Doc.fields? r _ (.obj (listedFields _))).bind _ = _
    rw [Follow.fields?]
    · simp [get?, required?, h, Record.asRead]
    · exact Follow.listed (by simp)
    · decide
  isTextual_toDoc a h := by
    simp only [Record.isOrdered, Record.isTextual, Bool.and_eq_true] at h
    change Doc.isTextual true (.obj _)
    simp [Doc.isTextual, h]

def BatchRecord.isTextual (r : BatchRecord) : Bool := r.key.isTextual && r.bins.all Bins.isTextual

instance : ReadsListed BatchRecord (fun r => r.isOrdered ∧ r.isTextual) BatchRecord.asRead where
  ofDoc?_listed r a h := by
    simp only [BatchRecord.isOrdered, BatchRecord.isTextual, Bool.and_eq_true,
      Option.all_eq_true] at h
    obtain ⟨⟨hko, hbo⟩, hkt, hbt⟩ := h
    change (Doc.fields? r _ (.obj (listedFields _))).bind _ = _
    rw [Follow.fields?]
    · simp [get?, required?, hko, hkt, listedFields_ofOption "bins" a.bins hbt,
        ofField?_toDoc r a.bins hbo, BatchRecord.asRead]
    · exact Follow.listed (by simp)
    · decide
  isTextual_toDoc a h := by
    simp only [BatchRecord.isOrdered, BatchRecord.isTextual, Bool.and_eq_true,
      Option.all_eq_true] at h
    obtain ⟨⟨hko, -⟩, hkt, hbt⟩ := h
    change Doc.isTextual true (.obj _)
    simp [Doc.isTextual, hko, hkt, isTextualFields_ofOption true "bins" a.bins hbt]

namespace Request

def isTextual : Request → Bool
  | get key _ | select key _ _ | existence key _ | remove key _ => key.isTextual
  | put key bins _ _ => key.isTextual && bins.isTextual
  | operate key ops _ _ => key.isTextual && ops.all Operation.isTextual
  | apply key call _ => key.isTextual && call.isTextual
  | batchGet keys _ | batchExists keys _ | batchSelect keys _ _ => keys.all Key.isTextual
  | query _ _ spec _ => spec.isTextual
  | _ => true

theorem isTextualFields_toFields (q : Request) (ho : q.isOrdered) (ht : q.isTextual) :
    Doc.isTextualFields true q.toFields := by
  cases q with
  | get key policy | select key bins policy | existence key policy | remove key policy =>
    rw [isOrdered] at ho
    rw [isTextual] at ht
    simp [toFields, ho, ht]
  | put key bins metadata policy =>
    rw [isOrdered, Bool.and_eq_true] at ho
    rw [isTextual, Bool.and_eq_true] at ht
    simp [toFields, ho, ht]
  | operate key ops metadata policy =>
    rw [isOrdered, Bool.and_eq_true] at ho
    rw [isTextual, Bool.and_eq_true, List.all_eq_true] at ht
    simp [toFields, ho, ht.1, Textual.isTextual_toDoc true ops ht.2]
  | apply key call policy =>
    rw [isOrdered, Bool.and_eq_true] at ho
    rw [isTextual, Bool.and_eq_true] at ht
    simp [toFields, ho, ht]
  | batchGet keys policy | batchExists keys policy | batchSelect keys bins policy =>
    rw [isOrdered, List.all_eq_true] at ho
    rw [isTextual, List.all_eq_true] at ht
    simp [toFields, isTextual_list keys fun k hk => ⟨ho k hk, ht k hk⟩]
  | query ns set spec policy =>
    rw [isTextual] at ht
    simp [toFields, ht]
  | indexCreate | indexRemove | udfRegister | udfRemove | info =>
    simp [toFields]

theorem ofFields?_listed (q : Request) (ho : q.isOrdered) (ht : q.isTextual) (r : Reading)
    (command : Doc) :
    ofFields? q.tag ⟨r, ("command", command) :: listedFields q.toFields⟩ = some q.asRead := by
  cases q with
  | get key policy | select key bins policy | existence key policy | remove key policy =>
    rw [isOrdered] at ho
    rw [isTextual] at ht
    simp [ofFields?, tag, toFields, get?, required?, ho, ht, asRead]
  | put key bins metadata policy =>
    rw [isOrdered, Bool.and_eq_true] at ho
    rw [isTextual, Bool.and_eq_true] at ht
    simp [ofFields?, tag, toFields, get?, required?, ho, ht, asRead]
  | operate key ops metadata policy =>
    rw [isOrdered, Bool.and_eq_true, List.all_eq_true] at ho
    rw [isTextual, Bool.and_eq_true, List.all_eq_true] at ht
    simp [ofFields?, tag, toFields, get?, required?, ho.1, ht.1, listed_toDoc ops ht.2,
      ReadsBack.ofDoc?_toDoc r ops ho.2, asRead]
  | apply key call policy =>
    rw [isOrdered, Bool.and_eq_true] at ho
    rw [isTextual, Bool.and_eq_true] at ht
    simp [ofFields?, tag, toFields, get?, required?, ho, ht, asRead]
  | batchGet keys policy | batchExists keys policy | batchSelect keys bins policy =>
    rw [isOrdered, List.all_eq_true] at ho
    rw [isTextual, List.all_eq_true] at ht
    simp [ofFields?, tag, toFields, get?, required?,
      ofDoc?_listed_list r keys fun k hk => ⟨ho k hk, ht k hk⟩, asRead]
  | query ns set spec policy =>
    rw [isOrdered] at ho
    rw [isTextual] at ht
    simp [ofFields?, tag, toFields, get?, required?, ho, ht, asRead]
  | indexCreate | indexRemove | udfRegister | udfRemove | info =>
    simp [ofFields?, tag, toFields, get?, required?, asRead]

end Request

instance : ReadsListed Request (fun q => q.isOrdered ∧ q.isTextual) Request.asRead where
  ofDoc?_listed r q h := by
    have hfollow := q.follow_toFields.listed
    have hwritten := Doc.isWrittenFields_listedFields _ q.isWrittenFields_toFields
    change ((Doc.obj (("command", .text q.tag) :: listedFields q.toFields)).tagged? r _ _).bind _
      = _
    rw [hfollow.tagged? r q.command_not_mem_fieldNames q.tag_mem_tags hwritten, Option.bind_some]
    dsimp only
    rw [hfollow.fields?_cons q.nodup_fieldNames .held q.command_not_mem_fieldNames]
    exact q.ofFields?_listed h.1 h.2 .held _
  isTextual_toDoc q h := by
    simp [toDoc, Doc.isTextual, q.isTextualFields_toFields h.1 h.2]

namespace Response

def isTextual : Response → Bool
  | record bins _ => bins.isTextual
  | batch entries => entries.all BatchRecord.isTextual
  | value v => v.isTextual
  | records found => found.all Record.isTextual
  | _ => true

theorem isTextualFields_toFields (a : Response) (ho : a.isOrdered) (ht : a.isTextual) :
    Doc.isTextualFields true a.toFields := by
  cases a with
  | record bins metadata | value v =>
    rw [isTextual] at ht
    simp [toFields, ht]
  | batch entries =>
    rw [isOrdered, List.all_eq_true] at ho
    rw [isTextual, List.all_eq_true] at ht
    simp [toFields, isTextual_list entries fun e he => ⟨ho e he, ht e he⟩]
  | records found =>
    rw [isOrdered, List.all_eq_true] at ho
    rw [isTextual, List.all_eq_true] at ht
    simp [toFields, isTextual_list found fun e he => ⟨ho e he, ht e he⟩]
  | existence | written | info | done => simp [toFields]

theorem ofFields?_listed (a : Response) (ho : a.isOrdered) (ht : a.isTextual) (r : Reading)
    (response : Doc) :
    ofFields? a.kind ⟨r, ("response", response) :: listedFields a.toFields⟩ = some a.asRead := by
  cases a with
  | record bins metadata | value v =>
    rw [isOrdered] at ho
    rw [isTextual] at ht
    simp [ofFields?, kind, toFields, get?, required?, ho, ht, asRead]
  | batch entries =>
    rw [isOrdered, List.all_eq_true] at ho
    rw [isTextual, List.all_eq_true] at ht
    simp [ofFields?, kind, toFields, get?, required?,
      ofDoc?_listed_list r entries fun e he => ⟨ho e he, ht e he⟩, asRead]
  | records found =>
    rw [isOrdered, List.all_eq_true] at ho
    rw [isTextual, List.all_eq_true] at ht
    simp [ofFields?, kind, toFields, get?, required?,
      ofDoc?_listed_list r found fun e he => ⟨ho e he, ht e he⟩, asRead]
  | existence | written | info | done =>
    simp [ofFields?, kind, toFields, get?, required?, asRead]

end Response

instance : ReadsListed Response (fun a => a.isOrdered ∧ a.isTextual) Response.asRead where
  ofDoc?_listed r a h := by
    have hfollow := a.follow_toFields.listed
    have hwritten := Doc.isWrittenFields_listedFields _ a.isWrittenFields_toFields
    have hread := a.ofFields?_listed h.1 h.2 .held (.text a.kind)
    change ((Doc.obj (("response", .text a.kind) :: listedFields a.toFields)).tagged? r _ _).bind _
      = _
    rw [hfollow.tagged? r a.response_not_mem_fieldNames a.kind_mem_kinds hwritten, Option.bind_some]
    dsimp only
    rw [hfollow.fields?_cons a.nodup_fieldNames .held a.response_not_mem_fieldNames]
    cases a <;> exact hread
  isTextual_toDoc a h := by
    simp [toDoc, Doc.isTextual, a.isTextualFields_toFields h.1 h.2]

end RecordDb
