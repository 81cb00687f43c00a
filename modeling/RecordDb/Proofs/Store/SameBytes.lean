import RecordDb.Operation.Builders
import RecordDb.Proofs.Store.Runs
import RecordDb.Proofs.Wire.Telling

/-!
# Requests with the same bytes

A store takes records and the operands of commands as they are, while the bytes do not tell a
geographic text from a text. So the same bytes get the same answer only where no operand is compared
or computed with: in keys, and in bins to write.
-/
namespace RecordDb

open Codec
open Wire (Doc)
open Wire.Fields
open Store

namespace Key

/-- Keys with the same document, field by field. -/
structure Alike (a b : Key) : Prop where
  ns : a.ns = b.ns
  set : a.set = b.set
  userKey : Option.Rel (fun v w => Value.toDoc v = Value.toDoc w) a.userKey b.userKey
  digest : a.digest = b.digest

theorem alike_of_toDoc_eq {a b : Key} (h : toDoc a = toDoc b) : Alike a b := by
  have hget := get?_eq_of_obj_eq h
  have hkey : a.userKey.map toDoc = b.userKey.map toDoc := by simpa using hget "key"
  have hdigest : a.digest.map (toDoc ∘ ByteString.mk) = b.digest.map (toDoc ∘ ByteString.mk) := by
    simpa using hget "digest"
  have hinj : Function.Injective (toDoc ∘ ByteString.mk) :=
    fun _ _ he => ByteString.mk.inj (toDoc_inj.mp he)
  refine ⟨by simpa using hget "ns", by simpa using hget "set", ?_,
    Option.map_injective hinj hdigest⟩
  cases ha : a.userKey with
  | none =>
    rw [ha, Option.map_none, eq_comm, Option.map_eq_none_iff] at hkey
    rw [hkey]
    exact .none
  | some v =>
    rw [ha, Option.map_some, eq_comm, Option.map_eq_some_iff] at hkey
    obtain ⟨w, hb, hw⟩ := hkey
    rw [hb]
    exact .some hw.symm

namespace Alike
variable {a b : Key}

theorem display (h : Alike a b) : a.display = b.display := by
  obtain ⟨ns, set, userKey, digest⟩ := a
  obtain ⟨ns', set', userKey', digest'⟩ := b
  obtain ⟨rfl, rfl, hkey, rfl⟩ := h
  cases hkey with
  | none => rfl
  | some hv =>
    simp only [Key.display]
    rw [Value.display_eq_of_toDoc_eq hv]

theorem ofKey (h : Alike a b) : RecordId.ofKey a = RecordId.ofKey b := by
  obtain ⟨ns, set, userKey, digest⟩ := a
  obtain ⟨ns', set', userKey', digest'⟩ := b
  obtain ⟨rfl, rfl, hkey, rfl⟩ := h
  cases hkey with
  | none => rfl
  | some hv =>
    simp only [RecordId.ofKey, toDoc]
    rw [hv]

end Alike

end Key

namespace Store

section Single
variable {a b : Key} (h : Key.Alike a b) (s : Store)
include h

theorem notFound_alike {α : Type} : (notFound a : Except Status α) = notFound b := by
  rw [notFound, notFound, h.display]

theorem checkExistence_alike (policy : Option ExistsPolicy) (isThere : Bool) :
    checkExistence a policy isThere = checkExistence b policy isThere := by
  simp only [checkExistence, h.display, notFound_alike h]

theorem find_alike : s.find a = s.find b := by
  rw [find, find, h.ofKey, notFound_alike h]

theorem remove_alike (policy : Option RemovePolicy) : remove a policy = remove b policy := by
  rw [remove, remove, h.ofKey, notFound_alike h]

theorem snd_put_alike (bins bins' : Bins) (metadata : Metadata) (policy : Option WritePolicy) :
    ((put a bins metadata policy).on s).2 = ((put b bins' metadata policy).on s).2 := by
  simp only [put, h.ofKey, checkExistence_alike h, Effect.on_check_bind, Effect.on_get_bind]
  cases RecordId.ofKey b with
  | error e => rfl
  | ok id =>
    dsimp only
    cases checkExistence b (policy.bind WritePolicy.existence)
      (Dict.get? s.records id).isSome with
    | error e => rfl
    | ok =>
      cases checkCurrent (policy.bind WritePolicy.gen) metadata.gen (Dict.get? s.records id) with
      | error e => rfl
      | ok => rfl

theorem snd_operate_alike (ops : List Operation) (metadata : Metadata)
    (policy : Option OperatePolicy) :
    ((operate a ops metadata policy).on s).2 = ((operate b ops metadata policy).on s).2 := by
  simp only [operate, h.ofKey, notFound_alike h, Effect.on_check_bind, Effect.on_get_bind]
  cases RecordId.ofKey b with
  | error e => rfl
  | ok id =>
    dsimp only
    split
    · rfl
    · rw [Effect.on_check_bind, Effect.on_check_bind]
      cases checkCurrent (policy.bind OperatePolicy.gen) metadata.gen
        (Dict.get? s.records id) with
      | error e => rfl
      | ok =>
        dsimp only
        split
        · rfl
        · split <;> rfl

theorem snd_apply_alike (functions : Functions) (call : UdfCall) :
    ((apply functions a call).on s).2 = ((apply functions b call).on s).2 := by
  simp only [apply, h.ofKey, Effect.on_check_bind, Effect.on_get_bind]
  cases function functions call with
  | error e => rfl
  | ok f =>
    cases RecordId.ofKey b with
    | error e => rfl
    | ok id =>
      dsimp only
      generalize ((Dict.get? s.records id).map StoredRecord.bins).getD [] = before
      cases (f before call.args).2 with
      | error e => rfl
      | ok v =>
        dsimp only
        cases Value.sameEntries (f before call.args).1 before with
        | true => rfl
        | false => rfl

end Single

/-- An entry of a batch holds the key that was asked for, so the entries differ where the keys
do. -/
theorem map_toDoc_batch (s : Store) {keys keys' : List Key}
    (hk : keys.map toDoc = keys'.map toDoc) (bins : StoredRecord → Option Bins) :
    (s.batch keys bins).map toDoc = (s.batch keys' bins).map toDoc := by
  induction keys generalizing keys' with
  | nil => rw [List.map_eq_nil_iff.mp hk.symm]
  | cons a keys ih =>
    cases keys' with
    | nil => cases hk
    | cons b keys' =>
      rw [List.map_cons, List.map_cons, List.cons.injEq] at hk
      obtain ⟨hab, hk⟩ := hk
      rw [batch, batch, List.filterMap_cons, List.filterMap_cons,
        find_alike (Key.alike_of_toDoc_eq hab)]
      cases s.find b with
      | error e => exact ih hk
      | ok r =>
        dsimp only
        rw [List.map_cons, List.map_cons]
        refine congrArg₂ List.cons ?_ (ih hk)
        simp only [BatchRecord.found, toDoc] at hab ⊢
        rw [hab]

end Store

theorem Cluster.toDoc_batchEntries (c : Cluster) (s : Store) {keys keys' : List Key}
    (hk : keys.map toDoc = keys'.map toDoc) (bins : StoredRecord → Option Bins) :
    toDoc (c.batchEntries s keys bins) = toDoc (c.batchEntries s keys' bins) := by
  have hb := map_toDoc_batch s hk bins
  have he : toDoc (if c.reversesBatches then (s.batch keys bins).reverse else s.batch keys bins)
      = toDoc (if c.reversesBatches then (s.batch keys' bins).reverse
        else s.batch keys' bins) := by
    cases c.reversesBatches with
    | false => exact congrArg Doc.arr hb
    | true =>
      refine congrArg Doc.arr ?_
      rw [if_pos rfl, if_pos rfl, List.map_reverse, List.map_reverse, hb]
  simp only [batchEntries, toDoc, Response.kind, Response.toFields] at he ⊢
  rw [he]

namespace Request

/-- The operands have geographic texts in the same places. Keys, and bins to write, are no
operands. -/
def operandsAlike : Request → Request → Bool
  | operate _ ops _ _, operate _ ops' _ _ => zipAlike Operation.textsAlike ops ops'
  | apply _ call _, apply _ call' _ => call.textsAlike call'
  | query _ _ spec _, query _ _ spec' _ => spec.textsAlike spec'
  | _, _ => true

/-- Requests that differ in nothing but geographic texts of their keys and in bins to write,
which no answer depends on. -/
inductive Alike : Request → Request → Prop where
  | refl (q : Request) : Alike q q
  | get {key key' : Key} (hk : toDoc key = toDoc key') (policy : Option ReadPolicy) :
      Alike (get key policy) (get key' policy)
  | select {key key' : Key} (hk : toDoc key = toDoc key') (bins : List String)
      (policy : Option ReadPolicy) : Alike (select key bins policy) (select key' bins policy)
  | existence {key key' : Key} (hk : toDoc key = toDoc key') (policy : Option ReadPolicy) :
      Alike (existence key policy) (existence key' policy)
  | put {key key' : Key} (hk : toDoc key = toDoc key') (bins bins' : Bins)
      (metadata : Option Metadata) (policy : Option WritePolicy) :
      Alike (put key bins metadata policy) (put key' bins' metadata policy)
  | remove {key key' : Key} (hk : toDoc key = toDoc key') (policy : Option RemovePolicy) :
      Alike (remove key policy) (remove key' policy)
  | operate {key key' : Key} (hk : toDoc key = toDoc key') (ops : List Operation)
      (metadata : Option Metadata) (policy : Option OperatePolicy) :
      Alike (operate key ops metadata policy) (operate key' ops metadata policy)
  | apply {key key' : Key} (hk : toDoc key = toDoc key') (call : UdfCall)
      (policy : Option ApplyPolicy) : Alike (apply key call policy) (apply key' call policy)
  | batchGet {keys keys' : List Key} (hk : keys.map toDoc = keys'.map toDoc)
      (policy : Option BatchPolicy) : Alike (batchGet keys policy) (batchGet keys' policy)
  | batchExists {keys keys' : List Key} (hk : keys.map toDoc = keys'.map toDoc)
      (policy : Option BatchPolicy) : Alike (batchExists keys policy) (batchExists keys' policy)
  | batchSelect {keys keys' : List Key} (hk : keys.map toDoc = keys'.map toDoc)
      (bins : List String) (policy : Option BatchPolicy) :
      Alike (batchSelect keys bins policy) (batchSelect keys' bins policy)

/-! The command is the first field of a document, so the same document comes from the same
command, and each argument is found under its name. -/

section Documents
variable {q q' : Request} (hd : toDoc q = toDoc q')
include hd

theorem alike_of_key (ha : q.operandsAlike q') (hq : q.key?.isSome) : Alike q q' := by
  have hget := get?_eq_of_obj_eq hd
  cases q with
  | get key policy =>
    cases q' with
    | get key' policy' =>
      have hk : toDoc key = toDoc key' := by simpa [toFields] using hget "key"
      obtain rfl : policy = policy' := by simpa [toFields] using hget "policy"
      exact .get hk policy
    | _ => simp [toDoc, tag] at hd
  | select key bins policy =>
    cases q' with
    | select key' bins' policy' =>
      have hk : toDoc key = toDoc key' := by simpa [toFields] using hget "key"
      obtain rfl : bins = bins' := by simpa [toFields] using hget "bins"
      obtain rfl : policy = policy' := by simpa [toFields] using hget "policy"
      exact .select hk bins policy
    | _ => simp [toDoc, tag] at hd
  | existence key policy =>
    cases q' with
    | existence key' policy' =>
      have hk : toDoc key = toDoc key' := by simpa [toFields] using hget "key"
      obtain rfl : policy = policy' := by simpa [toFields] using hget "policy"
      exact .existence hk policy
    | _ => simp [toDoc, tag] at hd
  | put key bins metadata policy =>
    cases q' with
    | put key' bins' metadata' policy' =>
      have hk : toDoc key = toDoc key' := by simpa [toFields] using hget "key"
      obtain rfl : metadata = metadata' := by simpa [toFields] using hget "meta"
      obtain rfl : policy = policy' := by simpa [toFields] using hget "policy"
      exact .put hk bins bins' metadata policy
    | _ => simp [toDoc, tag] at hd
  | remove key policy =>
    cases q' with
    | remove key' policy' =>
      have hk : toDoc key = toDoc key' := by simpa [toFields] using hget "key"
      obtain rfl : policy = policy' := by simpa [toFields] using hget "policy"
      exact .remove hk policy
    | _ => simp [toDoc, tag] at hd
  | operate key ops metadata policy =>
    cases q' with
    | operate key' ops' metadata' policy' =>
      have hk : toDoc key = toDoc key' := by simpa [toFields] using hget "key"
      have hops : toDoc ops = toDoc ops' := by simpa [toFields] using hget "ops"
      obtain rfl : ops = ops' := ToldApart.eq_of_toDoc_eq ha hops
      obtain rfl : metadata = metadata' := by simpa [toFields] using hget "meta"
      obtain rfl : policy = policy' := by simpa [toFields] using hget "policy"
      exact .operate hk ops metadata policy
    | _ => simp [toDoc, tag] at hd
  | apply key call policy =>
    cases q' with
    | apply key' call' policy' =>
      have hk : toDoc key = toDoc key' := by simpa [toFields] using hget "key"
      have hcall : toDoc call = toDoc call' := by simpa [toFields] using hget "udf"
      obtain rfl : call = call' := ToldApart.eq_of_toDoc_eq ha hcall
      obtain rfl : policy = policy' := by simpa [toFields] using hget "policy"
      exact .apply hk call policy
    | _ => simp [toDoc, tag] at hd
  | _ => cases hq

theorem alike_of_keys (hq : q matches batchGet .. | batchExists .. | batchSelect ..) :
    Alike q q' := by
  have hget := get?_eq_of_obj_eq hd
  cases q with
  | batchGet keys policy =>
    cases q' with
    | batchGet keys' policy' =>
      have hk : keys.map toDoc = keys'.map toDoc := by
        simpa [toFields, toDoc] using hget "keys"
      obtain rfl : policy = policy' := by simpa [toFields] using hget "policy"
      exact .batchGet hk policy
    | _ => simp [toDoc, tag] at hd
  | batchExists keys policy =>
    cases q' with
    | batchExists keys' policy' =>
      have hk : keys.map toDoc = keys'.map toDoc := by
        simpa [toFields, toDoc] using hget "keys"
      obtain rfl : policy = policy' := by simpa [toFields] using hget "policy"
      exact .batchExists hk policy
    | _ => simp [toDoc, tag] at hd
  | batchSelect keys bins policy =>
    cases q' with
    | batchSelect keys' bins' policy' =>
      have hk : keys.map toDoc = keys'.map toDoc := by
        simpa [toFields, toDoc] using hget "keys"
      obtain rfl : bins = bins' := by simpa [toFields] using hget "bins"
      obtain rfl : policy = policy' := by simpa [toFields] using hget "policy"
      exact .batchSelect hk bins policy
    | _ => simp [toDoc, tag] at hd
  | _ => cases hq

theorem eq_of_toDoc_eq (ha : q.operandsAlike q')
    (hq : q matches query .. | indexCreate .. | indexRemove .. | udfRegister .. | udfRemove ..
      | info ..) : q = q' := by
  have hget := get?_eq_of_obj_eq hd
  cases q with
  | query ns set spec policy =>
    cases q' with
    | query ns' set' spec' policy' =>
      obtain rfl : ns = ns' := by simpa [toFields] using hget "ns"
      obtain rfl : set = set' := by simpa [toFields] using hget "set"
      have hspec : toDoc spec = toDoc spec' := by simpa [toFields] using hget "spec"
      obtain rfl : spec = spec' := ToldApart.eq_of_toDoc_eq ha hspec
      obtain rfl : policy = policy' := by simpa [toFields] using hget "policy"
      rfl
    | _ => simp [toDoc, tag] at hd
  | indexCreate options indexType policy =>
    cases q' with
    | indexCreate options' indexType' policy' =>
      obtain rfl : options = options' := by simpa [toFields] using hget "options"
      obtain rfl : indexType = indexType' := by simpa [toFields] using hget "index_type"
      obtain rfl : policy = policy' := by simpa [toFields] using hget "policy"
      rfl
    | _ => simp [toDoc, tag] at hd
  | indexRemove ns index policy =>
    cases q' with
    | indexRemove ns' index' policy' =>
      obtain rfl : ns = ns' := by simpa [toFields] using hget "ns"
      obtain rfl : index = index' := by simpa [toFields] using hget "index"
      obtain rfl : policy = policy' := by simpa [toFields] using hget "policy"
      rfl
    | _ => simp [toDoc, tag] at hd
  | udfRegister path udfType policy =>
    cases q' with
    | udfRegister path' udfType' policy' =>
      obtain rfl : path = path' := by simpa [toFields] using hget "path"
      obtain rfl : udfType = udfType' := by simp
      obtain rfl : policy = policy' := by simpa [toFields] using hget "policy"
      rfl
    | _ => simp [toDoc, tag] at hd
  | udfRemove module policy =>
    cases q' with
    | udfRemove module' policy' =>
      obtain rfl : module = module' := by simpa [toFields] using hget "module"
      obtain rfl : policy = policy' := by simpa [toFields] using hget "policy"
      rfl
    | _ => simp [toDoc, tag] at hd
  | info request host policy =>
    cases q' with
    | info request' host' policy' =>
      obtain rfl : request = request' := by simpa [toFields] using hget "request"
      obtain rfl : host = host' := by simpa [toFields] using hget "host"
      obtain rfl : policy = policy' := by simpa [toFields] using hget "policy"
      rfl
    | _ => simp [toDoc, tag] at hd
  | _ => cases hq

theorem alike_of_toDoc_eq (ha : q.operandsAlike q') : Alike q q' := by
  cases q with
  | get | select | existence | put | remove | operate | apply => exact alike_of_key hd ha rfl
  | batchGet | batchExists | batchSelect => exact alike_of_keys hd rfl
  | query | indexCreate | indexRemove | udfRegister | udfRemove | info =>
    rw [eq_of_toDoc_eq hd ha rfl]
    exact .refl q'

end Documents

theorem Alike.serve {q q' : Request} (h : Alike q q') (c : Cluster) (s : Store) :
    (c.serve s q).2.map pack = (c.serve s q').2.map pack := by
  cases h with
  | refl => rfl
  | get hk | select hk =>
    simp only [Cluster.serve, Store.read, find_alike (Key.alike_of_toDoc_eq hk)]
  | existence hk =>
    simp only [Cluster.serve, Store.existence, find_alike (Key.alike_of_toDoc_eq hk)]
  | put hk =>
    exact congrArg (Except.map pack) (snd_put_alike (Key.alike_of_toDoc_eq hk) s _ _ _ _)
  | remove hk => simp only [Cluster.serve, remove_alike (Key.alike_of_toDoc_eq hk)]
  | operate hk => simp only [Cluster.serve, snd_operate_alike (Key.alike_of_toDoc_eq hk)]
  | apply hk => simp only [Cluster.serve, snd_apply_alike (Key.alike_of_toDoc_eq hk)]
  | batchGet hk | batchExists hk | batchSelect hk =>
    simp only [Cluster.serve, Except.map, pack, c.toDoc_batchEntries s hk]

end Request

/-- Requests that are packed into the same bytes get the same answer, or the same status, from
every store, when their operands have geographic texts in the same places, or none. -/
theorem same_bytes_same_answer (c : Cluster) (s : Store) (q q' : Request)
    (ha : q.operandsAlike q') (hs : (toDoc q).isShort) (hs' : (toDoc q').isShort)
    (hb : pack q = pack q') :
    (c.serve s q).2.map pack = (c.serve s q').2.map pack := by
  have hd : toDoc q = toDoc q' := Wire.Packed.eq_of_encode_eq (ReadsBack.isWritten_toDoc q)
    (ReadsBack.isWritten_toDoc q') hs hs' hb
  exact (Request.alike_of_toDoc_eq hd ha).serve c s

namespace Store

def placeKey (name : Value) : Key := ⟨"test", "places", some name, none⟩

/-- A record of a place, and how many of its texts are as asked. -/
def places : Store :=
  empty.after [(.sample, .put (placeKey (.string "here")) [("m", .map [("a", .string "here")])]
    none none)]

def countPlaces (name v : Value) : Request :=
  .operate (placeKey name) [.mapGetByValue "m" v .count] none none

end Store

/-- The user key may be the geographic text in one of the two. With such a text as the operand
the bytes are the same again, but there is no such text in the map. -/
theorem same_bytes_same_answer_places :
    let asked (q : Request) := (Cluster.sample.serve places q).2.map pack
    asked (countPlaces (.string "here") (.string "here"))
        = asked (countPlaces (.geo "here") (.string "here")) ∧
      pack (countPlaces (.string "here") (.string "here"))
        = pack (countPlaces (.string "here") (.geo "here")) ∧
      (Cluster.sample.serve places (countPlaces (.string "here") (.string "here"))).2
        = .ok (.record [("m", .int 1)] ⟨some 0, some 1⟩) ∧
      (Cluster.sample.serve places (countPlaces (.string "here") (.geo "here"))).2
        = .ok (.record [("m", .int 0)] ⟨some 0, some 1⟩) :=
  ⟨same_bytes_same_answer .sample places _ _ rfl (by decide) (by decide) (by decide),
    by decide, rfl, rfl⟩

end RecordDb
