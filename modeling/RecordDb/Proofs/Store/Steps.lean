import RecordDb.Proofs.Store.Commands

/-!
# Steps of a store

What one request makes of the records of a store. There are four cases, whatever the request and
whether it succeeds, and every invariant of the records is a lemma for each of them.
-/
namespace RecordDb

open Store

namespace Cluster

inductive Leaves (c : Cluster) (s : Store) : Request → Dict RecordId StoredRecord → Prop where
  | unchanged (q : Request) : Leaves c s q s.records
  | committed {q : Request} {key : Key} {id : RecordId} (hq : q.key? = some key)
      (hid : RecordId.ofKey key = .ok id) (bins : Bins) (ttl : Option UInt32) :
      Leaves c s q (s.commit id key bins ttl).1.records
  | erased {q : Request} {key : Key} {id : RecordId} (hq : q.key? = some key)
      (hid : RecordId.ofKey key = .ok id) : Leaves c s q (Dict.erase s.records id)
  | updated {ns : String} {set : Option String} {spec : QuerySpec} {call : UdfCall}
      {f : RecordFunction} (hi : spec.filters.forM (s.checkIndex ns) = .ok ())
      (hm : spec.mode = .background call) (hf : function c.functions call = .ok f)
      (policy : Option QueryPolicy) :
      Leaves c s (.query ns set spec policy)
        (applyEach f call.args ((s.scan ns set spec.filters).map Prod.fst) s.records).1

variable {c : Cluster} {s : Store}

theorem leaves_on {α : Type} {q : Request} {x : Effect Store α} (hx : x.FailsClean)
    (h : ∀ a s', x.run s = .ok a s' → c.Leaves s q s'.records) :
    c.Leaves s q (x.on s).1.records :=
  hx.on_induction (.unchanged q) h

theorem leaves_query (ns : String) (set : Option String) (spec : QuerySpec)
    (policy : Option QueryPolicy) :
    c.Leaves s (.query ns set spec policy) (s.query c.functions ns set spec).1.records := by
  rw [query]
  cases hi : spec.filters.forM (s.checkIndex ns) with
  | error e => exact .unchanged _
  | ok =>
    cases hm : spec.mode with
    | foreach => exact .unchanged _
    | aggregate call => exact .unchanged _
    | background call =>
      dsimp only [background]
      cases hf : function c.functions call with
      | error e => exact .unchanged _
      | ok f => exact .updated hi hm hf policy

theorem leaves_serve (c : Cluster) (s : Store) (q : Request) :
    c.Leaves s q (c.serve s q).1.records := by
  cases q with
  | put key bins metadata policy =>
    refine leaves_on (failsClean_put _ _ _ _) fun response s' hr => ?_
    obtain ⟨id, old, hid, -, rfl, -⟩ := put_eq_ok hr
    exact .committed rfl hid _ _
  | remove key policy =>
    refine leaves_on (failsClean_remove _ _) fun response s' hr => ?_
    obtain ⟨id, r, hid, -, rfl⟩ := remove_eq_ok hr
    exact .erased rfl hid
  | operate key ops metadata policy =>
    refine leaves_on (failsClean_operate _ _ _ _) fun response s' hr => ?_
    obtain ⟨id, done, hid, -, rfl, -, -⟩ := operate_eq_ok hr
    split
    · exact .committed rfl hid _ _
    · exact .unchanged _
  | apply key call policy =>
    refine leaves_on (failsClean_apply _ _ _) fun response s' hr => ?_
    obtain ⟨id, f, hid, -, rfl⟩ := apply_eq_ok hr
    split
    · exact .unchanged _
    · exact .committed rfl hid _ _
  | query ns set spec policy => exact leaves_query ns set spec policy
  | indexCreate options indexType policy =>
    rw [serve, on_createIndex]
    split <;> exact .unchanged _
  | indexRemove ns index policy =>
    rw [serve, on_removeIndex]
    split <;> exact .unchanged _
  | udfRemove module policy =>
    rw [serve, on_removeModule]
    split <;> exact .unchanged _
  | _ => exact .unchanged _

end Cluster

end RecordDb
