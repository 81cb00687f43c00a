import RecordDb.Proofs.Operation.Frames
import RecordDb.Transport

/-!
# What commands do to a store

What each command that succeeds has done to the store, and that one that fails has done nothing:
its checks come before its change. Every later statement about a change of the store is read off
one of these.
-/
namespace RecordDb

namespace Store
variable {s s' : Store} {key : Key} {response : Response}

/-- The bins that a write starts from. -/
def bins (s : Store) (id : RecordId) : Bins :=
  ((Dict.get? s.records id).map StoredRecord.bins).getD []

theorem find_eq_ok_iff (s : Store) (key : Key) (r : StoredRecord) :
    s.find key = .ok r ↔
      ∃ id, RecordId.ofKey key = .ok id ∧ Dict.get? s.records id = some r := by
  rw [find]
  cases hid : RecordId.ofKey key with
  | error e => simp [bind, Except.bind]
  | ok id =>
    simp only [bind, Except.bind]
    cases hr : Dict.get? s.records id with
    | none => simp [notFound, hr]
    | some r' => simp [hr, pure, Except.pure]

theorem find_eq_notFound {id : RecordId} (hid : RecordId.ofKey key = .ok id)
    (hr : Dict.get? s.records id = none) : s.find key = notFound key := by
  simp only [find, hid, bind, Except.bind, hr]

theorem put_eq_ok {bins : Bins} {metadata : Metadata} {policy : Option WritePolicy}
    (h : (put key bins metadata policy).run s = .ok response s') :
    ∃ id old, RecordId.ofKey key = .ok id ∧ (old = [] ∨ old = s.bins id) ∧
      s' = (s.commit id key (merged old bins) metadata.ttl).1 ∧
      checkCurrent (policy.bind WritePolicy.gen) metadata.gen (Dict.get? s.records id)
        = .ok () := by
  rw [put] at h
  obtain ⟨id, hid, h⟩ := Effect.exists_of_check_bind_eq_ok h
  rw [Effect.run_get_bind] at h
  obtain ⟨_, -, h⟩ := Effect.exists_of_check_bind_eq_ok h
  obtain ⟨_, hcurrent, h⟩ := Effect.exists_of_check_bind_eq_ok h
  cases h
  refine ⟨id, _, hid, ?_, rfl, hcurrent⟩
  split
  · exact .inl rfl
  · exact .inl rfl
  · exact .inr rfl

theorem remove_eq_ok {policy : Option RemovePolicy}
    (h : (remove key policy).run s = .ok response s') :
    ∃ id r, RecordId.ofKey key = .ok id ∧ Dict.get? s.records id = some r ∧
      s' = { s with records := Dict.erase s.records id } := by
  rw [remove] at h
  obtain ⟨id, hid, h⟩ := Effect.exists_of_check_bind_eq_ok h
  rw [Effect.run_get_bind] at h
  split at h
  · cases h
  · rename_i r hr
    obtain ⟨_, -, h⟩ := Effect.exists_of_check_bind_eq_ok h
    cases h
    exact ⟨id, r, hid, hr, rfl⟩

/-- What sets a time to live writes, so the writes alone decide whether anything is filed. -/
theorem files_iff_writes {bins : Bins} {ops : List Operation} {done : Evaluation.Progress}
    (h : Evaluation.run bins ops = .ok done) :
    (ops.any Operation.isWrite || done.ttl.isSome) = ops.any Operation.isWrite := by
  cases httl : done.ttl.isSome with
  | false => rw [Bool.or_false]
  | true => rw [Evaluation.any_isWrite_of_ttl h httl, Bool.or_true]

theorem operate_eq_ok {ops : List Operation} {metadata : Metadata} {policy : Option OperatePolicy}
    (h : (operate key ops metadata policy).run s = .ok response s') :
    ∃ id done, RecordId.ofKey key = .ok id ∧ Evaluation.run (s.bins id) ops = .ok done ∧
      s' = (if ops.any Operation.isWrite then
          (s.commit id key done.bins (done.ttl.or metadata.ttl)).1
        else s) ∧
      response = .record done.results (if ops.any Operation.isWrite then
          (s.commit id key done.bins (done.ttl.or metadata.ttl)).2
        else ((Dict.get? s.records id).map StoredRecord.metadata).getD ⟨some 0, some 0⟩) ∧
      checkCurrent (policy.bind OperatePolicy.gen) metadata.gen (Dict.get? s.records id)
        = .ok () := by
  rw [operate] at h
  obtain ⟨id, hid, h⟩ := Effect.exists_of_check_bind_eq_ok h
  rw [Effect.run_get_bind] at h
  dsimp only at h
  split at h
  · cases h
  obtain ⟨_, hcurrent, h⟩ := Effect.exists_of_check_bind_eq_ok h
  split at h
  · cases h
  rename_i done hrun
  have hdone : Evaluation.run (s.bins id) ops = .ok done := Effect.outcome_eq_ok_iff.mpr hrun
  rw [files_iff_writes hdone] at h
  split at h
  · rename_i hw
    cases h
    exact ⟨id, done, hid, hdone, (if_pos hw).symm, by rw [if_pos hw], hcurrent⟩
  · rename_i hw
    cases h
    exact ⟨id, done, hid, hdone, (if_neg hw).symm, by rw [if_neg hw], hcurrent⟩

theorem function_eq_ok {functions : Functions} {call : UdfCall} {f : RecordFunction}
    (h : function functions call = .ok f) : functions call.module call.function = some f := by
  rw [function] at h
  split at h
  · cases h
    assumption
  · cases h

theorem apply_eq_ok {functions : Functions} {call : UdfCall}
    (h : (apply functions key call).run s = .ok response s') :
    ∃ id f, RecordId.ofKey key = .ok id ∧ functions call.module call.function = some f ∧
      s' = if Value.sameEntries (f (s.bins id) call.args).1 (s.bins id) then s
        else (s.commit id key (f (s.bins id) call.args).1 none).1 := by
  rw [apply] at h
  obtain ⟨f, hf, h⟩ := Effect.exists_of_check_bind_eq_ok h
  obtain ⟨id, hid, h⟩ := Effect.exists_of_check_bind_eq_ok h
  rw [Effect.run_get_bind] at h
  obtain ⟨v, -, h⟩ := Effect.exists_of_check_bind_eq_ok h
  refine ⟨id, f, hid, function_eq_ok hf, ?_⟩
  simp only [bins]
  split at h
  · rename_i hs
    cases h
    exact (if_neg (by simpa using hs)).symm
  · rename_i hs
    cases h
    exact (if_pos (by simpa using hs)).symm

theorem failsClean_put (key : Key) (bins : Bins) (metadata : Metadata)
    (policy : Option WritePolicy) : Effect.FailsClean (put key bins metadata policy) := by
  apply Effect.FailsClean.check_bind
  intro id
  apply Effect.FailsClean.get_bind
  intro s
  apply Effect.FailsClean.check_bind
  intro _
  apply Effect.FailsClean.check_bind
  intro _
  exact Effect.failsClean_modifyGet _ _

theorem failsClean_remove (key : Key) (policy : Option RemovePolicy) :
    Effect.FailsClean (remove key policy) := by
  apply Effect.FailsClean.check_bind
  intro id
  apply Effect.FailsClean.get_bind
  intro s
  split
  · exact Effect.failsClean_check _
  · apply Effect.FailsClean.check_bind
    intro _
    exact Effect.failsClean_modifyGet _ _

/-- The operations change a copy of the bins, as far as they come. -/
theorem failsClean_operate (key : Key) (ops : List Operation) (metadata : Metadata)
    (policy : Option OperatePolicy) : Effect.FailsClean (operate key ops metadata policy) := by
  apply Effect.FailsClean.check_bind
  intro id
  apply Effect.FailsClean.get_bind
  intro s
  dsimp only
  split
  · exact Effect.failsClean_throw _
  · apply Effect.FailsClean.check_bind
    intro _
    split
    · exact Effect.failsClean_throw _
    · split
      · exact Effect.failsClean_modifyGet _ _
      · exact Effect.failsClean_pure _

/-- The function changes a copy of the bins, also when it fails. -/
theorem failsClean_apply (functions : Functions) (key : Key) (call : UdfCall) :
    Effect.FailsClean (apply functions key call) := by
  apply Effect.FailsClean.check_bind
  intro f
  apply Effect.FailsClean.check_bind
  intro id
  apply Effect.FailsClean.get_bind
  intro s
  apply Effect.FailsClean.check_bind
  intro v
  split
  · exact Effect.failsClean_modifyGet _ _
  · exact Effect.failsClean_pure _

end Store

namespace Cluster

theorem on_createIndex (s : Store) (options : IndexOptions) (indexType : IndexType) :
    (createIndex options indexType).on s =
      if Dict.contains s.indexes ⟨options.ns, options.index⟩ then
        (s, .error (.new .indexFound ("index " ++ options.index ++ " already exists")))
      else
        ({ s with indexes :=
            Dict.insert s.indexes ⟨options.ns, options.index⟩ (options, indexType) },
          .ok .done) := by
  rw [createIndex, Effect.on_get_bind]
  dsimp only
  split <;> rfl

/-- Taking out what is not there changes nothing, so it does not matter that the test for it comes
after the change. -/
theorem on_takeOut (s : Store) (isThere : Store → Bool) (takeOut : Store → Store) (e : Status)
    (h : isThere s = false → takeOut s = s) :
    (do
      let removed ← modifyGet fun s => (isThere s, takeOut s)
      if !removed then
        throw e
      return .done : Effect Store Response).on s =
      if isThere s then (takeOut s, .ok .done) else (s, .error e) := by
  rw [Effect.on_modifyGet_bind]
  dsimp only
  cases hthere : isThere s with
  | false =>
    rw [h hthere]
    rfl
  | true => rfl

theorem on_removeIndex (s : Store) (ns index : String) :
    (removeIndex ns index).on s =
      if Dict.contains s.indexes ⟨ns, index⟩ then
        ({ s with indexes := Dict.erase s.indexes ⟨ns, index⟩ }, .ok .done)
      else (s, .error (.new .indexNotFound ("index " ++ index ++ " not found"))) := by
  apply on_takeOut
  intro h
  rw [Dict.erase_of_not_contains h]

theorem on_removeModule (s : Store) (module : String) :
    (removeModule module).on s =
      if Dict.contains s.modules module then
        ({ s with modules := Dict.erase s.modules module }, .ok .done)
      else (s, .error (.new .udf ("module " ++ module ++ " not registered"))) := by
  apply on_takeOut
  intro h
  rw [Dict.erase_of_not_contains h]

end Cluster

end RecordDb
