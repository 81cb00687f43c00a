import RecordDb.Effect

/-!
# Outcomes of computations that may fail

What it takes for a computation that may fail to succeed: each of its steps has. And what it takes
for one that changes a state to fail without a trace: all its checks come before its changes.
-/
namespace RecordDb

theorem exists_of_bind_eq_ok {ε α β : Type} {x : Except ε α} {f : α → Except ε β} {b : β}
    (h : x >>= f = .ok b) : ∃ a, x = .ok a ∧ f a = .ok b := by
  cases x with
  | error e => cases h
  | ok a => exact ⟨a, rfl, h⟩

theorem exists_of_map_eq_ok {ε α β : Type} {x : Except ε α} {f : α → β} {b : β}
    (h : x.map f = .ok b) : ∃ a, x = .ok a ∧ f a = b := by
  cases x with
  | error e => cases h
  | ok a => exact ⟨a, rfl, Except.ok.inj h⟩

theorem eq_error_of_map_eq_error {ε α β : Type} {x : Except ε α} {f : α → β} {e : ε}
    (h : x.map f = .error e) : x = .error e := by
  cases x with
  | error e' => exact congrArg Except.error (Except.error.inj h)
  | ok a => cases h

namespace Effect
variable {σ α β : Type} {s s' : σ} {e : Status}

theorem run_get_bind (f : σ → Effect σ β) (s : σ) : (get >>= f).run s = (f s).run s := rfl

theorem run_set_bind (s' : σ) (f : PUnit → Effect σ β) (s : σ) :
    (set s' >>= f).run s = (f ⟨⟩).run s' := rfl

theorem exists_of_check_bind_eq_ok {x : Except Status α} {f : α → Effect σ β} {b : β}
    (h : (liftM x >>= f).run s = .ok b s') : ∃ a, x = .ok a ∧ (f a).run s = .ok b s' := by
  cases x with
  | error e => cases h
  | ok a => exact ⟨a, rfl, h⟩

theorem run_eq_ok_of_on {x : Effect σ α} {a : α} (h : (x.on s).2 = .ok a) :
    x.run s = .ok a (x.on s).1 := by
  rw [on] at h ⊢
  cases hx : x.run s with
  | error e left => rw [hx] at h; cases h
  | ok b left =>
    rw [hx] at h
    cases h
    rfl

/-- A failure leaves the state as it was. -/
def FailsClean (x : Effect σ α) : Prop :=
  ∀ s e s', x.run s = .error e s' → s' = s

theorem FailsClean.on_eq {x : Effect σ α} (hx : FailsClean x) (h : (x.on s).2 = .error e) :
    (x.on s).1 = s := by
  rw [on] at h ⊢
  cases hrun : x.run s with
  | ok a left => rw [hrun] at h; cases h
  | error e' left => exact hx s e' left hrun

/-- What holds before and after a success holds after a failure as well. -/
theorem FailsClean.on_induction {x : Effect σ α} (hx : FailsClean x) {P : σ → Prop} (hs : P s)
    (h : ∀ a s', x.run s = .ok a s' → P s') : P (x.on s).1 := by
  cases hr : (x.on s).2 with
  | error e => rwa [hx.on_eq hr]
  | ok a => exact h a _ (run_eq_ok_of_on hr)

theorem failsClean_throw (e : Status) : FailsClean (throw e : Effect σ α) := by
  intro s e' s' h
  cases h
  rfl

theorem failsClean_pure (a : α) : FailsClean (pure a : Effect σ α) := by
  intro s e s' h
  cases h

theorem failsClean_check (x : Except Status α) : FailsClean (liftM x : Effect σ α) := by
  cases x with
  | error e => exact failsClean_throw e
  | ok a => exact failsClean_pure a

theorem failsClean_modify (change : σ → σ) : FailsClean (modify change : Effect σ Unit) := by
  intro s e s' h
  cases h

/-- A check may stand before anything that fails without a trace. -/
theorem FailsClean.check_bind {f : α → Effect σ β} (x : Except Status α)
    (h : ∀ a, FailsClean (f a)) : FailsClean (liftM x >>= f) := by
  cases x with
  | error e => exact failsClean_throw e
  | ok a => exact h a

theorem FailsClean.get_bind {f : σ → Effect σ β} (h : ∀ s, FailsClean (f s)) :
    FailsClean (get >>= f) := fun s => h s s

/-- A change may stand at the end, where nothing can fail any more. -/
theorem failsClean_modifyGet (change : σ → α × σ) (b : α → β) :
    FailsClean (modifyGet change >>= fun a => pure (b a) : Effect σ β) := by
  intro s e s' h
  cases h

end Effect

end RecordDb
