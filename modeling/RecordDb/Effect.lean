import RecordDb.Status

/-!
# Computations on a state that may fail

A computation that fails leaves the state as far as it has changed it. Whether a failure goes
without a trace is a question about the computation: it does where all that may fail comes before
the first change, or where the changes are made to a copy.
-/
namespace RecordDb

abbrev Effect (σ α : Type) := EStateM Status σ α

namespace Effect
variable {σ α β : Type}

/-- A check leaves the state as it is. -/
instance : MonadLift (Except Status) (EStateM Status σ) := ⟨liftExcept⟩

/-- The state that is left behind, and what has come of the computation. -/
def on (x : Effect σ α) (s : σ) : σ × Except Status α :=
  match x.run s with
  | .ok a s' => (s', .ok a)
  | .error e s' => (s', .error e)

/-- What comes of a computation on a copy, which is dropped when the computation fails. -/
def outcome (x : Effect σ Unit) (copy : σ) : Except Status σ :=
  match x.run copy with
  | .ok _ s => .ok s
  | .error e _ => .error e

section Runs
variable (s : σ)

/-- A failure is final, and the state is then the one that it has left. -/
theorem on_bind (x : Effect σ α) (f : α → Effect σ β) : (x >>= f).on s =
    match x.on s with
    | (s', .ok a) => (f a).on s'
    | (s', .error e) => (s', .error e) := by
  simp only [on, EStateM.run_bind]
  cases x.run s <;> rfl

theorem on_check_bind (x : Except Status α) (f : α → Effect σ β) : (liftM x >>= f).on s =
    match x with
    | .ok a => (f a).on s
    | .error e => (s, .error e) := by
  cases x <;> rfl

theorem on_get_bind (f : σ → Effect σ β) : (get >>= f).on s = (f s).on s := rfl

theorem on_modifyGet_bind (g : σ → α × σ) (f : α → Effect σ β) :
    (modifyGet g >>= f).on s = (f (g s).1).on (g s).2 := rfl

@[simp] theorem outcome_modify (g : σ → σ) : outcome (modify g) s = .ok (g s) := rfl

variable {s} in
theorem outcome_eq_ok_iff {x : Effect σ Unit} {s' : σ} :
    outcome x s = .ok s' ↔ x.run s = .ok () s' := by
  rw [outcome]
  cases x.run s <;> simp

theorem outcome_check_bind (x : Except Status α) (f : α → Effect σ Unit) :
    outcome (liftM x >>= f) s = x >>= fun a => outcome (f a) s := by
  cases x <;> rfl

theorem outcome_get_bind (f : σ → Effect σ Unit) : outcome (get >>= f) s = outcome (f s) s := rfl

theorem outcome_bind (x : Effect σ Unit) (f : Unit → Effect σ Unit) :
    outcome (x >>= f) s = outcome x s >>= outcome (f ()) := by
  simp only [outcome, EStateM.run_bind]
  cases x.run s <;> rfl

/-- Done one after the other, each on what the ones before it have left. -/
theorem outcome_forM (f : α → Effect σ Unit) (xs : List α) :
    outcome (xs.forM f) s = xs.foldlM (fun s a => outcome (f a) s) s := by
  induction xs generalizing s with
  | nil => rfl
  | cons a rest ih =>
    rw [List.forM_eq_forM, List.forM_cons, outcome_bind, List.foldlM_cons]
    exact congrArg (outcome (f a) s >>= ·) (funext ih)

end Runs

end Effect

end RecordDb
