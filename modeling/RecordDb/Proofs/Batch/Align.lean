import RecordDb.Record.Batch

/-!
# Giving out the answers of a batch

Keys that count as the same record compete for the same answers; as long as they agree with one
another, and with what they are answered, every key that has an answer gets one.
-/
namespace RecordDb.Batch

theorem place?_eq_some {pool : Pool} {own : Nat} {key : Key} {i : Nat}
    (h : place? pool own key = some i) :
    ∃ a, pool[i]? = some (some a) ∧ a.key.sameRecord key := by
  have hi : ∃ e, pool[i]? = some e ∧ answers key e := by
    rw [place?] at h
    split at h
    · rename_i ho
      cases h
      exact (Option.any_eq_true _ _).mp ho
    · obtain ⟨hi, hp, -⟩ := List.findIdx?_eq_some_iff_getElem.mp h
      exact ⟨_, List.getElem?_eq_getElem hi, hp⟩
  obtain ⟨e, he, ha⟩ := hi
  cases e with
  | none => cases ha
  | some a => exact ⟨a, he, ha⟩

theorem countP_of_place?_eq_none {pool : Pool} {own : Nat} {key : Key}
    (h : place? pool own key = none) : pool.countP (answers key) = 0 := by
  rw [place?] at h
  split at h
  · cases h
  · rw [List.findIdx?_eq_none_iff] at h
    rw [List.countP_eq_zero]
    intro e he
    rw [h e he]
    nofun

/-- A key takes an answer that fits, or there is none and it is not found. -/
theorem entry_cases (pool : Pool) (own : Nat) (key : Key) :
    (pool.countP (answers key) = 0 ∧ entry pool own key = (.notFound key, pool)) ∨
    ∃ i a, pool[i]? = some (some a) ∧ a.key.sameRecord key ∧
      entry pool own key = ({ a with key }, pool.set i none) := by
  cases hp : place? pool own key with
  | none => exact .inl ⟨countP_of_place?_eq_none hp, by rw [entry, hp]⟩
  | some i =>
    obtain ⟨a, hi, hs⟩ := place?_eq_some hp
    exact .inr ⟨i, a, hi, hs, by simp only [entry, hp, hi]⟩

/-- Taking an answer leaves one less to the keys that it fits. -/
theorem countP_set_none {pool : Pool} {i : Nat} {a : BatchRecord} (h : pool[i]? = some (some a))
    (key : Key) : (pool.set i none).countP (answers key) + (if a.key.sameRecord key then 1 else 0)
      = pool.countP (answers key) := by
  obtain ⟨hi, hg⟩ := List.getElem?_eq_some_iff.mp h
  have hle := List.boole_getElem_le_countP (p := answers key) hi
  have hn : answers key none = false := rfl
  have ha : answers key (some a) = a.key.sameRecord key := rfl
  rw [hg, ha] at hle
  rw [List.countP_set hi, hg, hn, ha, if_neg Bool.false_ne_true]
  omega

/-- What is asked can be given out: keys that count as the same have the same answers, and
every answered key can take any answer of its kind that is left. -/
structure Consistent (answer? : Key → Option BatchRecord) (asked : List Key) : Prop where
  key_eq : ∀ k a, answer? k = some a → a.key = k
  refl : ∀ k ∈ asked, (answer? k).isSome → k.sameRecord k
  answer_eq : ∀ j ∈ asked, ∀ k ∈ asked, j.sameRecord k →
    answer? k = (answer? j).map fun a => { a with key := k }
  trans : ∀ i ∈ asked, ∀ j ∈ asked, ∀ k ∈ asked,
    i.sameRecord j → i.sameRecord k → j.sameRecord k

/-- The keys among some that are answered and count as the same as one key. -/
def demand (answer? : Key → Option BatchRecord) (keys : List Key) (key : Key) : Nat :=
  keys.countP fun k => (answer? k).isSome && k.sameRecord key

/-- The answers that are left belong to keys that were asked, and there are enough of them
for the keys that are still to come. -/
structure Stocked (answer? : Key → Option BatchRecord) (asked keys : List Key) (pool : Pool) :
    Prop where
  of_asked : ∀ a, some a ∈ pool → a.key ∈ asked ∧ answer? a.key = some a
  enough : ∀ k ∈ asked, demand answer? keys k ≤ pool.countP (answers k)

def expected (answer? : Key → Option BatchRecord) (key : Key) : BatchRecord :=
  (answer? key).getD (.notFound key)

section Matching
variable {answer? : Key → Option BatchRecord} {asked : List Key}

theorem demand_cons (k : Key) (keys : List Key) (key : Key) :
    demand answer? (k :: keys) key
      = demand answer? keys key + if (answer? k).isSome && k.sameRecord key then 1 else 0 :=
  List.countP_cons

/-- One step: the head gets what it should, and what is left is enough for the others. -/
theorem Stocked.step (hc : Consistent answer? asked) {k : Key} (hk : k ∈ asked) {keys : List Key}
    {pool : Pool} (h : Stocked answer? asked (k :: keys) pool) (own : Nat) :
    (entry pool own k).1 = expected answer? k ∧
      Stocked answer? asked keys (entry pool own k).2 := by
  rcases entry_cases pool own k with ⟨hzero, he⟩ | ⟨i, a, hi, hs, he⟩
  · have hn : answer? k = none := by
      cases hka : answer? k with
      | none => rfl
      | some a =>
        have hd := h.enough k hk
        rw [demand_cons, hc.refl k hk (hka ▸ rfl), hka, hzero] at hd
        exact absurd hd (Nat.not_succ_le_zero _)
    rw [he]
    dsimp only
    refine ⟨by rw [expected, hn, Option.getD_none], h.of_asked, fun x hx => ?_⟩
    have hd := h.enough x hx
    rw [demand_cons] at hd
    omega
  · obtain ⟨ha, hans⟩ := h.of_asked a (List.mem_of_getElem? hi)
    have hka : answer? k = some { a with key := k } := by
      rw [hc.answer_eq a.key ha k hk hs, hans, Option.map_some]
    rw [he]
    dsimp only
    refine ⟨by rw [expected, hka, Option.getD_some], fun b hb => ?_, fun x hx => ?_⟩
    · rcases List.mem_or_eq_of_mem_set hb with hb | hb
      · exact h.of_asked b hb
      · cases hb
    · have hd := h.enough x hx
      have hp := countP_set_none hi x
      rw [demand_cons, hka, Option.isSome_some, Bool.true_and] at hd
      by_cases hax : a.key.sameRecord x
      · rw [if_pos (hc.trans a.key ha k hk x hx hs hax)] at hd
        rw [if_pos hax] at hp
        omega
      · rw [if_neg hax] at hp
        omega

theorem alignFrom_eq_map (hc : Consistent answer? asked) {keys : List Key} (hk : keys ⊆ asked)
    {pool : Pool} (h : Stocked answer? asked keys pool) (own : Nat) :
    alignFrom own keys pool = keys.map (expected answer?) := by
  induction keys generalizing own pool with
  | nil => rfl
  | cons k keys ih =>
    obtain ⟨hmem, hsub⟩ := List.cons_subset.mp hk
    obtain ⟨hentry, hrest⟩ := h.step hc hmem own
    rw [alignFrom, List.map_cons, ← hentry]
    exact congrArg _ (ih hsub hrest (own + 1))

theorem stocked_of_perm (hc : Consistent answer? asked) {given : List BatchRecord}
    (hp : given.Perm (asked.filterMap answer?)) :
    Stocked answer? asked asked (given.map some) where
  of_asked a ha := by
    have ha : a ∈ given := by simpa using ha
    obtain ⟨k, hk, hka⟩ := List.mem_filterMap.mp (hp.mem_iff.mp ha)
    rw [hc.key_eq k a hka]
    exact ⟨hk, hka⟩
  enough k _ := by
    rw [List.countP_map, hp.countP_eq, List.countP_filterMap]
    apply List.countP_mono_left
    intro j hj hd
    obtain ⟨hsome, hs⟩ := Bool.and_eq_true_iff.mp hd
    obtain ⟨a, ha⟩ := Option.isSome_iff_exists.mp hsome
    have hj : answers k (some a) = j.sameRecord k := by rw [answers, hc.key_eq j a ha]
    simpa [ha, hj] using hs

/-- In whatever order the answers come, each key is answered as if it had been asked alone. -/
theorem align_eq_map (hc : Consistent answer? asked) {given : List BatchRecord}
    (hp : given.Perm (asked.filterMap answer?)) :
    align asked given = asked.map (expected answer?) :=
  alignFrom_eq_map hc (List.Subset.refl _) (stocked_of_perm hc hp) 0

end Matching

end RecordDb.Batch
