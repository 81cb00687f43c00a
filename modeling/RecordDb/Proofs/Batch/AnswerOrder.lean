import RecordDb.Proofs.Batch.Align

/-!
# The order of the answers

A key may find its answer at its own place or by a search, and so may take different ones when the
answers come in another order. If it fits one answer only, what it takes and what it leaves to the
others are the same either way.
-/
namespace RecordDb.Batch

/-- No key fits two answers that differ. There may be copies of an answer, and one answer may fit
several keys. -/
def Unambiguous (keys : List Key) (given : List BatchRecord) : Prop :=
  ∀ key ∈ keys, ∀ a ∈ given, ∀ b ∈ given, a.key.sameRecord key → b.key.sameRecord key → a = b

variable {pool pool' : Pool} {key : Key} {a : BatchRecord}

theorem countP_ne_zero_of_fits {i : Nat} (hi : pool[i]? = some (some a)) (hs : a.key.sameRecord key) :
    pool.countP (answers key) ≠ 0 := by
  have hcount := countP_set_none hi key
  rw [if_pos hs] at hcount
  omega

/-- Taking an answer leaves a gap in its place. -/
theorem cons_set_none_perm {e : Option BatchRecord} {i : Nat} (hi : pool[i]? = some e) :
    (e :: pool.set i none).Perm (none :: pool) := by
  induction pool generalizing i with
  | nil => cases hi
  | cons x rest ih =>
    cases i with
    | zero =>
      cases hi
      exact .swap none e rest
    | succ i => exact (List.Perm.swap x e _).trans (((ih hi).cons x).trans (.swap none x rest))

/-- Pools stay the same up to order when they lose the same answer, wherever it was. -/
theorem set_none_perm {i i' : Nat} (h : pool.Perm pool') (hi : pool[i]? = some (some a))
    (hi' : pool'[i']? = some (some a)) : (pool.set i none).Perm (pool'.set i' none) := by
  have hgaps : (some a :: pool.set i none).Perm (some a :: pool'.set i' none) :=
    (cons_set_none_perm hi).trans ((h.cons none).trans (cons_set_none_perm hi').symm)
  exact hgaps.cons_inv

/-- One key takes the same from pools that differ in order, and leaves the same. -/
theorem entry_perm (h : pool.Perm pool')
    (hone : ∀ a b, some a ∈ pool → some b ∈ pool → a.key.sameRecord key → b.key.sameRecord key →
      a = b) (own : Nat) :
    (entry pool own key).1 = (entry pool' own key).1 ∧
      (entry pool own key).2.Perm (entry pool' own key).2 := by
  have hcount : pool.countP (answers key) = pool'.countP (answers key) := h.countP_eq _
  rcases entry_cases pool own key with ⟨hzero, he⟩ | ⟨i, a, hi, hs, he⟩
  · rcases entry_cases pool' own key with ⟨-, he'⟩ | ⟨i', a', hi', hs', -⟩
    · rw [he, he']
      exact ⟨rfl, h⟩
    · exact absurd (hcount ▸ hzero) (countP_ne_zero_of_fits hi' hs')
  · rcases entry_cases pool' own key with ⟨hzero', -⟩ | ⟨i', a', hi', hs', he'⟩
    · exact absurd (hcount.trans hzero') (countP_ne_zero_of_fits hi hs)
    · have ha' : some a' ∈ pool := h.mem_iff.mpr (List.mem_of_getElem? hi')
      cases hone a a' (List.mem_of_getElem? hi) ha' hs hs'
      rw [he, he']
      exact ⟨rfl, set_none_perm h hi hi'⟩

theorem mem_of_mem_entry {own : Nat} (h : some a ∈ (entry pool own key).2) : some a ∈ pool := by
  rcases entry_cases pool own key with ⟨-, he⟩ | ⟨i, b, -, -, he⟩
  · rwa [he] at h
  · rw [he] at h
    rcases List.mem_or_eq_of_mem_set h with h | h
    · exact h
    · cases h

/-- One key after the other, by induction on them: the pools never differ but in order. -/
theorem alignFrom_perm {keys : List Key} {given : List BatchRecord} (hone : Unambiguous keys given)
    (h : pool.Perm pool') (hpool : ∀ a, some a ∈ pool → a ∈ given) (own : Nat) :
    alignFrom own keys pool = alignFrom own keys pool' := by
  induction keys generalizing own pool pool' with
  | nil => rfl
  | cons key keys ih =>
    obtain ⟨hkey, hkeys⟩ := List.forall_mem_cons.mp hone
    obtain ⟨hentry, hrest⟩ :=
      entry_perm h (fun a b ha hb => hkey a (hpool a ha) b (hpool b hb)) own
    rw [alignFrom, alignFrom]
    dsimp only
    rw [hentry, ih hkeys hrest fun a ha => hpool a (mem_of_mem_entry ha)]

/-- It makes no difference in which order the answers come, as long as no key fits two answers that
differ. -/
theorem answer_order_is_irrelevant {keys : List Key} {given given' : List BatchRecord}
    (hone : Unambiguous keys given) (h : given.Perm given') :
    align keys given = align keys given' := by
  have hpool : ∀ a, some a ∈ given.map some → a ∈ given := by simp
  exact alignFrom_perm hone (h.map some) hpool 0

/-- Two copies of one answer and an answer for no key, once where every key has its answer at its
own place and once where none has. -/
theorem answer_order_is_irrelevant_copies :
    let key (n : Int64) : Key := ⟨"test", "demo", some (.int n), none⟩
    let answer (n : Int64) : BatchRecord := .found (key n) (some [("n", .int n)]) .empty
    let keys := [key 1, key 2, key 1]
    let given := [answer 1, answer 2, answer 1, answer 3]
    Unambiguous keys given ∧ given.Perm given.reverse ∧
      align keys given = align keys given.reverse := by
  intro key answer keys given
  have hone : Unambiguous keys given := by
    simp [Unambiguous, keys, given, key, answer, Key.sameRecord, sameField, Value.same,
      BatchRecord.found]
  have hperm : given.Perm given.reverse := (List.reverse_perm given).symm
  exact ⟨hone, hperm, answer_order_is_irrelevant hone hperm⟩

end RecordDb.Batch
