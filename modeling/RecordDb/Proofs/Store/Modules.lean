import Mathlib.Data.List.Induction
import RecordDb.Proofs.Dict.Keys
import RecordDb.Proofs.Store.Locality
import RecordDb.Proofs.Store.Runs

/-!
# The function modules of a store

A module is there exactly if some request has registered it, under the name of its file, and none
has removed it since; no other request has a part in it.
-/
namespace RecordDb

namespace Request

/-- The modules after a request. -/
def modulesAfter (modules : Dict String Unit) : Request → Dict String Unit
  | .udfRegister path _ _ => Dict.insert modules (UdfModule.fileName path) ()
  | .udfRemove module _ => Dict.erase modules module
  | _ => modules

/-- A module is registered under the name of the file that a path ends in. -/
def Registers : Request → String → Prop
  | .udfRegister path _ _, module => UdfModule.fileName path = module
  | _, _ => False

def Removes : Request → String → Prop
  | .udfRemove removed _, module => removed = module
  | _, _ => False

theorem contains_modulesAfter (q : Request) (modules : Dict String Unit) (module : String) :
    Dict.contains (q.modulesAfter modules) module = true ↔
      q.Registers module ∨ (Dict.contains modules module = true ∧ ¬q.Removes module) := by
  cases q with
  | udfRegister path udfType policy =>
    simp [modulesAfter, Registers, Removes, Dict.contains_insert_iff, or_comm]
  | udfRemove removed policy =>
    simp [modulesAfter, Registers, Removes, Dict.contains_erase_iff]
  | _ => simp [modulesAfter, Registers, Removes]

end Request

open Store

theorem Store.modules_query (functions : Functions) (s : Store) (ns : String) (set : Option String)
    (spec : QuerySpec) : (s.query functions ns set spec).1.modules = s.modules := by
  rw [query]
  split
  · rfl
  · split
    · rfl
    · rfl
    · rw [background]
      split <;> rfl

theorem Cluster.modules_serve (c : Cluster) (s : Store) (q : Request) :
    (c.serve s q).1.modules = q.modulesAfter s.modules := by
  cases q with
  | put | remove | operate | apply => exact (c.frame_serve s rfl).modules
  | query ns set spec policy => exact modules_query c.functions s ns set spec
  | indexCreate options indexType policy =>
    rw [serve, on_createIndex]
    split <;> rfl
  | indexRemove ns index policy =>
    rw [serve, on_removeIndex]
    split <;> rfl
  | udfRemove module policy =>
    rw [serve, on_removeModule]
    split
    · rfl
    · rename_i h
      exact (Dict.erase_of_not_contains (Bool.eq_false_iff.mpr h)).symm
  | _ => rfl

/-- Some request of a run has registered a module and none after it has removed it. -/
def Registered (run : List (Cluster × Request)) (module : String) : Prop :=
  ∃ earlier e later, run = earlier ++ e :: later ∧ e.2.Registers module ∧
    ∀ e' ∈ later, ¬e'.2.Removes module

theorem Registered.exists_path {run : List (Cluster × Request)} {module : String}
    (h : Registered run module) : ∃ path, UdfModule.fileName path = module := by
  obtain ⟨_, ⟨_, q⟩, _, -, hreg, -⟩ := h
  cases q with
  | udfRegister path udfType policy => exact ⟨path, hreg⟩
  | _ => cases hreg

theorem registered_append_singleton {run : List (Cluster × Request)} {e : Cluster × Request}
    {module : String} :
    Registered (run ++ [e]) module ↔
      e.2.Registers module ∨ (Registered run module ∧ ¬e.2.Removes module) := by
  constructor
  · rintro ⟨earlier, e', later, hrun, hreg, hlater⟩
    rcases List.eq_nil_or_concat' later with rfl | ⟨later, last, rfl⟩
    · obtain ⟨-, hlast⟩ := List.append_inj' hrun rfl
      cases hlast
      exact .inl hreg
    · rw [← List.cons_append, ← List.append_assoc] at hrun
      obtain ⟨rfl, hlast⟩ := List.append_inj' hrun rfl
      cases hlast
      exact .inr ⟨⟨earlier, e', later, rfl, hreg, fun e'' he =>
        hlater e'' (List.mem_append_left _ he)⟩, hlater _ (List.mem_append_right _ List.mem_cons_self)⟩
  · rintro (hreg | ⟨⟨earlier, e', later, rfl, hreg, hlater⟩, hkept⟩)
    · exact ⟨run, e, [], rfl, hreg, fun _ h => absurd h List.not_mem_nil⟩
    · refine ⟨earlier, e', later ++ [e], ?_, hreg, fun e'' he => ?_⟩
      · rw [List.append_assoc, List.cons_append]
      · rcases List.mem_append.mp he with he | he
        · exact hlater e'' he
        · rw [List.mem_singleton.mp he]
          exact hkept

/-- The modules of a store are those that its run has registered. -/
theorem Store.contains_modules_after (run : List (Cluster × Request)) (module : String) :
    Dict.contains (empty.after run).modules module = true ↔ Registered run module := by
  induction run using List.reverseRecOn with
  | nil =>
    refine iff_of_false Bool.false_ne_true ?_
    rintro ⟨earlier, e, later, hrun, -⟩
    exact List.append_ne_nil_of_right_ne_nil _ (List.cons_ne_nil _ _) hrun.symm
  | append_singleton run e ih =>
    have hstep : (empty.after (run ++ [e])).modules = e.2.modulesAfter (empty.after run).modules := by
      rw [after_append]
      exact e.1.modules_serve _ _
    rw [hstep, e.2.contains_modulesAfter, ih, registered_append_singleton]

end RecordDb
