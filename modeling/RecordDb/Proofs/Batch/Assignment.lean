import RecordDb.Proofs.Batch.Align

/-!
# Which answer goes to which key

The keys take their answers one after the other, each an answer that no other key takes. A key goes
without only if it fits none of the answers that are left over when all keys have been served.
-/
namespace RecordDb.Batch

/-- The answers that a pool still holds, by their places. -/
def remaining (pool : Pool) (p : Nat) : Option BatchRecord := pool[p]?.join

theorem remaining_eq_some_iff {pool : Pool} {p : Nat} {a : BatchRecord} :
    remaining pool p = some a ↔ pool[p]? = some (some a) := by
  rw [remaining, Option.join_eq_some_iff]

theorem remaining_set_none {pool : Pool} {i p : Nat} {a : BatchRecord} :
    remaining (pool.set i none) p = some a ↔ remaining pool p = some a ∧ some i ≠ some p := by
  rw [remaining_eq_some_iff, remaining_eq_some_iff]
  by_cases hp : i = p
  · subst hp
    rw [List.getElem?_set_self']
    cases pool[i]? <;> simp
  · rw [List.getElem?_set_ne hp]
    simp [hp]

theorem remaining_map_some (given : List BatchRecord) :
    remaining (given.map some) = fun p => given[p]? := by
  ext p a
  rw [remaining_eq_some_iff, List.getElem?_map]
  cases given[p]? <;> simp

/-- Entries for some keys, made by giving out answers. The key at `i` gets the answer at `place i`,
which is no other key's, or it gets none and is not found. -/
structure Assignment (keys : List Key) (offered : Nat → Option BatchRecord)
    (entries : List BatchRecord) (place : Nat → Option Nat) : Prop where
  keys_eq : entries.map BatchRecord.key = keys
  injective : ∀ i j p, place i = some p → place j = some p → i = j
  assigned : ∀ i p, place i = some p → ∃ key answer, keys[i]? = some key ∧
    offered p = some answer ∧ answer.key.sameRecord key ∧ entries[i]? = some { answer with key }
  unassigned : ∀ i key, keys[i]? = some key → place i = none →
    entries[i]? = some (.notFound key)
  unfit : ∀ i key, keys[i]? = some key → place i = none →
    ∀ p answer, offered p = some answer → (∀ j, place j ≠ some p) →
      ¬ answer.key.sameRecord key

/-- Places of answers with that of one more key before them. -/
def before (first : Option Nat) (place : Nat → Option Nat) : Nat → Option Nat
  | 0 => first
  | i + 1 => place i

namespace Assignment
variable {keys : List Key} {offered rest : Nat → Option BatchRecord} {entries : List BatchRecord}
  {place : Nat → Option Nat}

theorem nil (offered : Nat → Option BatchRecord) : Assignment [] offered [] fun _ => none where
  keys_eq := rfl
  injective i j p hi := by cases hi
  assigned i p hi := by cases hi
  unassigned i key hkey := by cases hkey
  unfit i key hkey := by cases hkey

/-- One more key takes an answer that the others are not offered, or fits none and leaves all. -/
theorem cons (h : Assignment keys rest entries place) {first : Option Nat} {key : Key}
    {entry : BatchRecord} (hkey : entry.key = key)
    (hrest : ∀ p answer, rest p = some answer ↔ offered p = some answer ∧ first ≠ some p)
    (hfound : ∀ p, first = some p → ∃ answer, offered p = some answer ∧
      answer.key.sameRecord key ∧ entry = { answer with key })
    (hnotFound : first = none → entry = .notFound key ∧
      ∀ p answer, offered p = some answer → ¬ answer.key.sameRecord key) :
    Assignment (key :: keys) offered (entry :: entries) (before first place) := by
  have hgone {i p : Nat} (hi : place i = some p) : first ≠ some p := by
    obtain ⟨_, answer, -, hp, -⟩ := h.assigned i p hi
    exact ((hrest p answer).mp hp).2
  constructor
  case keys_eq => rw [List.map_cons, hkey, h.keys_eq]
  case injective =>
    intro i j p hi hj
    cases i with
    | zero =>
      cases j with
      | zero => rfl
      | succ j => exact absurd hi (hgone hj)
    | succ i =>
      cases j with
      | zero => exact absurd hj (hgone hi)
      | succ j => rw [h.injective i j p hi hj]
  case assigned =>
    intro i p hi
    cases i with
    | zero =>
      obtain ⟨answer, hp, hs, he⟩ := hfound p hi
      exact ⟨key, answer, rfl, hp, hs, congrArg some he⟩
    | succ i =>
      obtain ⟨k, answer, hk, hp, hs, he⟩ := h.assigned i p hi
      exact ⟨k, answer, hk, ((hrest p answer).mp hp).1, hs, he⟩
  case unassigned =>
    intro i k hk hi
    cases i with
    | zero =>
      cases hk
      exact congrArg some (hnotFound hi).1
    | succ i => exact h.unassigned i k hk hi
  case unfit =>
    intro i k hk hi p answer hp hfree
    cases i with
    | zero =>
      cases hk
      exact (hnotFound hi).2 p answer hp
    | succ i =>
      exact h.unfit i k hk hi p answer ((hrest p answer).mpr ⟨hp, hfree 0⟩) fun j => hfree (j + 1)

end Assignment

/-- One key after the other, by induction on them. -/
theorem exists_assignment (own : Nat) (keys : List Key) (pool : Pool) :
    ∃ place, Assignment keys (remaining pool) (alignFrom own keys pool) place := by
  induction keys generalizing own pool with
  | nil => exact ⟨_, .nil _⟩
  | cons key keys ih =>
    rw [alignFrom]
    rcases entry_cases pool own key with ⟨hzero, he⟩ | ⟨i, a, hi, hs, he⟩
    · obtain ⟨place, h⟩ := ih (own + 1) pool
      have hnone : ∀ p answer, remaining pool p = some answer → ¬ answer.key.sameRecord key := by
        intro p answer hp
        rw [remaining_eq_some_iff] at hp
        exact List.countP_eq_zero.mp hzero _ (List.mem_of_getElem? hp)
      rw [he]
      exact ⟨before none place, h.cons rfl (by simp) (by simp) fun _ => ⟨rfl, hnone⟩⟩
    · obtain ⟨place, h⟩ := ih (own + 1) (pool.set i none)
      have hfound : ∀ p, some i = some p → ∃ answer, remaining pool p = some answer ∧
          answer.key.sameRecord key ∧ { a with key } = { answer with key } := by
        rintro p ⟨⟩
        exact ⟨a, remaining_eq_some_iff.mpr hi, hs, rfl⟩
      rw [he]
      exact ⟨before (some i) place, h.cons rfl (fun _ _ => remaining_set_none) hfound (by simp)⟩

/-- Answers are neither lost nor given out twice. There is one entry a key, with that key, and it is
an answer for the key that no other key has, or the key is not found and fits none of the answers
that are left over. -/
theorem answers_are_assigned (keys : List Key) (given : List BatchRecord) :
    ∃ place, Assignment keys (fun p => given[p]?) (align keys given) place := by
  rw [← remaining_map_some]
  exact exists_assignment 0 keys _

example : let key : Key := ⟨"test", "demo", some (.int 1), none⟩
    align [key, key] [.found key none .empty] = [.found key none .empty, .notFound key] := rfl

end RecordDb.Batch
