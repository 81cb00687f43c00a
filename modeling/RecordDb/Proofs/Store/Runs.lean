import RecordDb.Proofs.Dict.Ascending
import RecordDb.Proofs.Store.Steps
import RecordDb.SampleFunctions

/-!
# Runs of a store

A store is reachable when some requests lead to it from the empty one; in between functions may be
registered anew, so each request comes with the cluster that serves it. In every reachable store the
records ascend by what they are filed under.
-/
namespace RecordDb

theorem RecordId.before_iff (a b : RecordId) :
    KeyOrder.before a b ↔
      KeyOrder.before a.ns b.ns ∨ a.ns = b.ns ∧ KeyOrder.before a.ident b.ident := by
  change (_ || (_ && _)) = true ↔ _
  rw [Bool.or_eq_true, Bool.and_eq_true, beq_iff_eq]

instance : LawfulKeyOrder RecordId where
  irrefl a h := by
    rcases (RecordId.before_iff a a).mp h with h | ⟨-, h⟩
    · exact LawfulKeyOrder.irrefl a.ns h
    · exact LawfulKeyOrder.irrefl a.ident h
  trans {a b c} hab hbc := by
    rw [RecordId.before_iff] at hab hbc ⊢
    rcases hab with hab | ⟨hab, hab'⟩
    · rcases hbc with hbc | ⟨hbc, -⟩
      · exact .inl (LawfulKeyOrder.trans hab hbc)
      · exact .inl (hbc ▸ hab)
    · rcases hbc with hbc | ⟨hbc, hbc'⟩
      · exact .inl (hab ▸ hbc)
      · exact .inr ⟨hab.trans hbc, LawfulKeyOrder.trans hab' hbc'⟩
  total {a b} h := by
    rw [RecordId.before_iff, RecordId.before_iff]
    by_cases hn : a.ns = b.ns
    · have hi : a.ident ≠ b.ident := by
        intro hi
        cases a
        cases b
        exact h (by rw [RecordId.mk.injEq]; exact ⟨hn, hi⟩)
      rcases LawfulKeyOrder.total hi with hi | hi
      · exact .inl (.inr ⟨hn, hi⟩)
      · exact .inr (.inr ⟨hn.symm, hi⟩)
    · exact (LawfulKeyOrder.total hn).imp .inl .inl

/-- One node, on which every module has the sample functions. -/
def Cluster.sample : Cluster :=
  ⟨[.default], .ok, false, fun _ name => SampleFunctions.named? name name⟩

namespace Store

/-- The store after some requests. -/
def after (s : Store) : List (Cluster × Request) → Store
  | [] => s
  | (c, q) :: rest => after (c.serve s q).1 rest

def Reachable (s : Store) : Prop := ∃ run, s = empty.after run

/-- What every request keeps holds along every run. -/
theorem after_induction {P : Store → Prop} (hP : ∀ (c : Cluster) s q, P s → P (c.serve s q).1)
    {s : Store} (h : P s) (run : List (Cluster × Request)) : P (s.after run) := by
  induction run generalizing s with
  | nil => exact h
  | cons e rest ih => exact ih (hP e.1 s e.2 h)

theorem after_append (s : Store) (run run' : List (Cluster × Request)) :
    s.after (run ++ run') = (s.after run).after run' := by
  induction run generalizing s with
  | nil => rfl
  | cons e rest ih => exact ih _

theorem reachable_empty : Reachable empty := ⟨[], rfl⟩

theorem Reachable.serve {s : Store} (h : s.Reachable) (c : Cluster) (q : Request) :
    (c.serve s q).1.Reachable := by
  obtain ⟨run, rfl⟩ := h
  exact ⟨run ++ [(c, q)], by rw [after_append]; rfl⟩

/-- The records ascend, so no two of them are filed under one id. -/
def Filed (s : Store) : Prop := Dict.Ascending s.records

theorem Filed.commit {s : Store} (h : s.Filed) (id : RecordId) (key : Key) (bins : Bins)
    (ttl : Option UInt32) : (s.commit id key bins ttl).1.Filed := by
  rw [Store.commit]
  dsimp only [Filed]
  split
  · exact Dict.ascending_erase h id
  · exact Dict.ascending_insert h id _

theorem ascending_applyEach (f : RecordFunction) (args : List Value) (ids : List RecordId)
    {records : Dict RecordId StoredRecord} (h : Dict.Ascending records) :
    Dict.Ascending (applyEach f args ids records).1 := by
  induction ids generalizing records with
  | nil => exact h
  | cons id rest ih =>
    rw [applyEach]
    split
    · exact ih h
    · split
      · exact ih (Dict.ascending_insert h id _)
      · exact Dict.ascending_insert h id _

end Store

open Store

theorem Cluster.Leaves.ascending {c : Cluster} {s : Store} {q : Request}
    {records : Dict RecordId StoredRecord} (h : c.Leaves s q records) (hs : s.Filed) :
    Dict.Ascending records := by
  cases h with
  | unchanged => exact hs
  | committed _ _ bins ttl => exact hs.commit _ _ bins ttl
  | erased => exact Dict.ascending_erase hs _
  | updated => exact ascending_applyEach _ _ _ hs

theorem Cluster.filed_serve (c : Cluster) (s : Store) (q : Request) (h : s.Filed) :
    (c.serve s q).1.Filed :=
  (c.leaves_serve s q).ascending h

theorem Store.Reachable.filed {s : Store} (h : s.Reachable) : s.Filed := by
  obtain ⟨run, rfl⟩ := h
  have he : empty.Filed := Dict.ascending_nil
  exact after_induction Cluster.filed_serve he run

end RecordDb
