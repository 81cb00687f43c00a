import RecordDb.Proofs.Store.Commands

/-!
# Locality of requests

A request for a single record reads and writes only the record under its own id: all else stays as
it was, and what it completes with and leaves under the id is the same in every two stores that
agree there.
-/
namespace RecordDb

/-- The request is for the record under an id. -/
def Request.Addresses (q : Request) (id : RecordId) : Prop :=
  ∃ key, q.key? = some key ∧ RecordId.ofKey key = .ok id

theorem Request.addresses_iff {q : Request} {key : Key} (hq : q.key? = some key) (id : RecordId) :
    q.Addresses id ↔ RecordId.ofKey key = .ok id := by
  simp [Addresses, hq]

namespace Store

section Commit
variable (s : Store) (id : RecordId) (key : Key) (bins : Bins) (ttl : Option UInt32)

theorem get?_commit_of_ne {other : RecordId} (h : other ≠ id) :
    Dict.get? (s.commit id key bins ttl).1.records other = Dict.get? s.records other := by
  rw [commit]
  dsimp only
  split
  · exact Dict.get?_erase_of_ne _ h
  · exact Dict.get?_insert_of_ne _ _ h

theorem get?_commit_self :
    Dict.get? (s.commit id key bins ttl).1.records id =
      if bins.isEmpty then none
      else some ⟨((Dict.get? s.records id).map StoredRecord.key).getD key, bins,
        ((Dict.get? s.records id).map StoredRecord.gen).getD 0 + 1,
        ttl.getD (((Dict.get? s.records id).map StoredRecord.ttl).getD 0)⟩ := by
  rw [commit]
  dsimp only
  split
  · exact Dict.get?_erase_self _ _
  · exact Dict.get?_insert_self _ _ _

end Commit

/-- What a step leaves as it was when it may only change the records under some ids. -/
structure Frame (touched : RecordId → Prop) (s s' : Store) : Prop where
  indexes : s'.indexes = s.indexes
  modules : s'.modules = s.modules
  record : ∀ id, ¬ touched id → Dict.get? s'.records id = Dict.get? s.records id

namespace Frame
variable {touched : RecordId → Prop}

theorem refl (touched : RecordId → Prop) (s : Store) : Frame touched s s :=
  ⟨rfl, rfl, fun _ _ => rfl⟩

theorem trans {s s' s'' : Store} (h : Frame touched s s') (h' : Frame touched s' s'') :
    Frame touched s s'' where
  indexes := h'.indexes.trans h.indexes
  modules := h'.modules.trans h.modules
  record id hid := (h'.record id hid).trans (h.record id hid)

theorem mono {touched' : RecordId → Prop} {s s' : Store} (h : Frame touched s s')
    (hsub : ∀ id, touched id → touched' id) : Frame touched' s s' where
  indexes := h.indexes
  modules := h.modules
  record id hid := h.record id fun ht => hid (hsub id ht)

theorem commit (s : Store) {id : RecordId} (hid : touched id) (key : Key) (bins : Bins)
    (ttl : Option UInt32) : Frame touched s (s.commit id key bins ttl).1 where
  indexes := rfl
  modules := rfl
  record _ ho := s.get?_commit_of_ne id key bins ttl fun he => ho (he ▸ hid)

theorem erase (s : Store) {id : RecordId} (hid : touched id) :
    Frame touched s { s with records := Dict.erase s.records id } where
  indexes := rfl
  modules := rfl
  record _ ho := Dict.get?_erase_of_ne _ fun he => ho (he ▸ hid)

end Frame

/-- Stores that hold the same records under some ids. -/
def AgreeOn (seen : RecordId → Prop) (s s' : Store) : Prop :=
  ∀ id, seen id → Dict.get? s.records id = Dict.get? s'.records id

namespace AgreeOn

theorem refl (seen : RecordId → Prop) (s : Store) : AgreeOn seen s s := fun _ _ => rfl

theorem mono {seen seen' : RecordId → Prop} {s s' : Store} (h : AgreeOn seen s s')
    (hsub : ∀ id, seen' id → seen id) : AgreeOn seen' s s' :=
  fun id hid => h id (hsub id hid)

end AgreeOn

/-- Outcomes of a request that look alike under an id. -/
def AlikeAt (id : RecordId) (x y : Store × Completion) : Prop :=
  x.2 = y.2 ∧ Dict.get? x.1.records id = Dict.get? y.1.records id

section Alike
variable {s s' : Store} {key : Key} {id : RecordId} (hid : RecordId.ofKey key = .ok id)
  (h : Dict.get? s.records id = Dict.get? s'.records id)
include h

theorem snd_commit_congr (key : Key) (bins : Bins) (ttl : Option UInt32) :
    (s.commit id key bins ttl).2 = (s'.commit id key bins ttl).2 := by
  rw [commit, commit, h]

theorem get?_commit_congr (key : Key) (bins : Bins) (ttl : Option UInt32) :
    Dict.get? (s.commit id key bins ttl).1.records id
      = Dict.get? (s'.commit id key bins ttl).1.records id := by
  rw [get?_commit_self, get?_commit_self, h]

include hid

theorem find_congr : s.find key = s'.find key := by
  simp only [find, hid, bind, Except.bind, h]

theorem alikeAt_put (bins : Bins) (metadata : Metadata) (policy : Option WritePolicy) :
    AlikeAt id ((put key bins metadata policy).on s) ((put key bins metadata policy).on s') := by
  simp only [put, Effect.on_check_bind, Effect.on_get_bind, hid, h]
  cases checkExistence key (policy.bind WritePolicy.existence)
    (Dict.get? s'.records id).isSome with
  | error e => exact ⟨rfl, h⟩
  | ok =>
    cases checkCurrent (policy.bind WritePolicy.gen) metadata.gen (Dict.get? s'.records id) with
    | error e => exact ⟨rfl, h⟩
    | ok => exact ⟨rfl, get?_commit_congr h _ _ _⟩

theorem alikeAt_remove (policy : Option RemovePolicy) :
    AlikeAt id ((remove key policy).on s) ((remove key policy).on s') := by
  simp only [remove, Effect.on_check_bind, Effect.on_get_bind, hid, h]
  cases Dict.get? s'.records id with
  | none => exact ⟨rfl, h⟩
  | some r =>
    dsimp only
    cases checkGeneration (policy.bind RemovePolicy.gen) (policy.bind RemovePolicy.generation)
      r.gen with
    | error e => exact ⟨rfl, h⟩
    | ok => exact ⟨rfl, (Dict.get?_erase_self _ _).trans (Dict.get?_erase_self _ _).symm⟩

theorem alikeAt_operate (ops : List Operation) (metadata : Metadata)
    (policy : Option OperatePolicy) :
    AlikeAt id ((operate key ops metadata policy).on s)
      ((operate key ops metadata policy).on s') := by
  simp only [operate, Effect.on_check_bind, Effect.on_get_bind, hid, h]
  cases (Dict.get? s'.records id).isNone && !ops.any Operation.isWrite with
  | true => exact ⟨rfl, h⟩
  | false =>
    rw [if_neg Bool.false_ne_true, Effect.on_check_bind, Effect.on_check_bind]
    cases checkCurrent (policy.bind OperatePolicy.gen) metadata.gen (Dict.get? s'.records id) with
    | error e => exact ⟨rfl, h⟩
    | ok =>
      generalize (Evaluation.performAll ops).run
        ⟨((Dict.get? s'.records id).map StoredRecord.bins).getD [], [], none⟩ = left
      cases left with
      | error e _ => exact ⟨rfl, h⟩
      | ok _ done =>
        dsimp only
        cases ops.any Operation.isWrite || done.ttl.isSome with
        | false => exact ⟨rfl, h⟩
        | true =>
          refine ⟨?_, get?_commit_congr h _ _ _⟩
          exact congrArg (fun m => Except.ok (Response.record done.results m))
            (snd_commit_congr h _ _ _)

theorem alikeAt_apply (functions : Functions) (call : UdfCall) :
    AlikeAt id ((apply functions key call).on s) ((apply functions key call).on s') := by
  simp only [apply, Effect.on_check_bind, Effect.on_get_bind, hid, h]
  cases function functions call with
  | error e => exact ⟨rfl, h⟩
  | ok f =>
    dsimp only
    generalize ((Dict.get? s'.records id).map StoredRecord.bins).getD [] = before
    cases (f before call.args).2 with
    | error e => exact ⟨rfl, h⟩
    | ok v =>
      dsimp only
      cases Value.sameEntries (f before call.args).1 before with
      | true => exact ⟨rfl, h⟩
      | false => exact ⟨rfl, get?_commit_congr h _ _ _⟩

end Alike

end Store

namespace Cluster
open Store

/-- A request for a single record touches no other record. -/
theorem frame_serve (c : Cluster) (s : Store) {q : Request} {key : Key} (hq : q.key? = some key) :
    Frame q.Addresses s (c.serve s q).1 := by
  have haddr {id : RecordId} (hid : RecordId.ofKey key = .ok id) : q.Addresses id :=
    (Request.addresses_iff hq id).mpr hid
  cases q with
  | put key bins metadata policy =>
    cases hq
    refine (failsClean_put _ _ _ _).on_induction (Frame.refl _ _) fun response s' hr => ?_
    obtain ⟨id, old, hid, -, rfl, -⟩ := put_eq_ok hr
    exact Frame.commit s (haddr hid) _ _ _
  | remove key policy =>
    cases hq
    refine (failsClean_remove _ _).on_induction (Frame.refl _ _) fun response s' hr => ?_
    obtain ⟨id, r, hid, -, rfl⟩ := remove_eq_ok hr
    exact Frame.erase s (haddr hid)
  | operate key ops metadata policy =>
    cases hq
    refine (failsClean_operate _ _ _ _).on_induction (Frame.refl _ _) fun response s' hr => ?_
    obtain ⟨id, done, hid, -, rfl, -, -⟩ := operate_eq_ok hr
    split
    · exact Frame.commit s (haddr hid) _ _ _
    · exact Frame.refl _ _
  | apply key call policy =>
    cases hq
    refine (failsClean_apply _ _ _).on_induction (Frame.refl _ _) fun response s' hr => ?_
    obtain ⟨id, f, hid, -, rfl⟩ := apply_eq_ok hr
    split
    · exact Frame.refl _ _
    · exact Frame.commit s (haddr hid) _ _ _
  | get | select | existence => exact Frame.refl _ _
  | _ => cases hq

/-- A key without an identity is refused before the store is looked at. -/
theorem serve_snd_of_no_id (c : Cluster) (s s' : Store) {q : Request} {key : Key}
    (hq : q.key? = some key) {e : Status} (hid : RecordId.ofKey key = .error e) :
    (c.serve s q).2 = (c.serve s' q).2 := by
  cases q with
  | get | select =>
    cases hq
    simp only [serve, Store.read, find, hid, bind, Except.bind]
  | existence =>
    cases hq
    simp only [serve, existence, find, hid, bind, Except.bind]
  | put | remove | operate =>
    cases hq
    simp only [serve, put, remove, operate, Effect.on_check_bind, hid]
  | apply key call policy =>
    cases hq
    simp only [serve, apply, Effect.on_check_bind, hid]
    cases function c.functions call with
    | error e => rfl
    | ok f => rfl
  | _ => cases hq

theorem alikeAt_serve (c : Cluster) {s s' : Store} {q : Request} {key : Key} {id : RecordId}
    (hq : q.key? = some key) (hid : RecordId.ofKey key = .ok id)
    (h : Dict.get? s.records id = Dict.get? s'.records id) :
    AlikeAt id (c.serve s q) (c.serve s' q) := by
  cases q with
  | get | select =>
    cases hq
    refine ⟨?_, h⟩
    simp only [serve, Store.read, find_congr hid h]
  | existence =>
    cases hq
    refine ⟨?_, h⟩
    simp only [serve, existence, find_congr hid h]
  | put =>
    cases hq
    exact alikeAt_put hid h _ _ _
  | remove =>
    cases hq
    exact alikeAt_remove hid h _
  | operate =>
    cases hq
    exact alikeAt_operate hid h _ _ _
  | apply =>
    cases hq
    exact alikeAt_apply hid h _ _
  | _ => cases hq

/-- A request for a single record sees no other record. -/
theorem serve_congr (c : Cluster) {s s' : Store} {q : Request} {key : Key}
    (hq : q.key? = some key) (h : AgreeOn q.Addresses s s') :
    (c.serve s q).2 = (c.serve s' q).2 ∧
      AgreeOn q.Addresses (c.serve s q).1 (c.serve s' q).1 := by
  have haddr := Request.addresses_iff hq
  cases hid : RecordId.ofKey key with
  | error e =>
    refine ⟨c.serve_snd_of_no_id s s' hq hid, fun id ha => ?_⟩
    rw [haddr, hid] at ha
    cases ha
  | ok id =>
    obtain ⟨hr, hg⟩ := c.alikeAt_serve hq hid (h id ((haddr id).mpr hid))
    refine ⟨hr, fun other ha => ?_⟩
    rw [haddr, hid, Except.ok.injEq] at ha
    exact ha ▸ hg

end Cluster

end RecordDb
