import RecordDb.Store

/-!
# Keys that count as the same record

The test is symmetric. It need not be reflexive, for a number may differ from itself, nor agree with
what records are filed under.
-/
namespace RecordDb

theorem Binary64.same_iff (x y : Binary64) :
    x.same y ↔ ∃ i, x.orderKey? = some i ∧ y.orderKey? = some i := by
  rw [same, beq_iff_eq, compare?]
  cases x.orderKey? with
  | none => simp
  | some a =>
    cases y.orderKey? with
    | none => simp
    | some b =>
      by_cases hab : a = b
      · subst hab
        simp
      · have hba : b ≠ a := fun h => hab h.symm
        by_cases hlt : a < b
        · simp [hlt, hba]
        · simp [hlt, hab, hba]

theorem Binary64.same_comm (x y : Binary64) : x.same y = y.same x := by
  rw [Bool.eq_iff_iff, same_iff, same_iff]
  constructor
  · rintro ⟨i, hx, hy⟩
    exact ⟨i, hy, hx⟩
  · rintro ⟨i, hy, hx⟩
    exact ⟨i, hx, hy⟩

namespace Value

mutual

theorem same_comm (a b : Value) : a.same b = b.same a := by
  cases a with
  | float x =>
    cases b with
    | float y => rw [same, same, Binary64.same_comm]
    | _ => rfl
  | list as =>
    cases b with
    | list bs => rw [same, same, sameItems_comm]
    | _ => rfl
  | map as =>
    cases b with
    | map bs => rw [same, same, sameEntries_comm]
    | _ => rfl
  | bool | int | string | blob | geo =>
    cases b <;> first | rfl | (simp only [same]; exact Bool.beq_comm)
  | nil => cases b <;> rfl

theorem sameItems_comm (as bs : List Value) : sameItems as bs = sameItems bs as := by
  cases as with
  | nil => cases bs <;> rfl
  | cons a as =>
    cases bs with
    | nil => rfl
    | cons b bs => rw [sameItems, sameItems, same_comm a b, sameItems_comm as bs]

theorem sameEntries_comm (as bs : List (String × Value)) :
    sameEntries as bs = sameEntries bs as := by
  match as, bs with
  | [], [] => rfl
  | [], _ :: _ => rfl
  | _ :: _, [] => rfl
  | (j, a) :: as, (k, b) :: bs =>
    rw [sameEntries, sameEntries, same_comm a b, sameEntries_comm as bs, BEq.comm (a := j)]

end

end Value

/-- Two user keys that are there agree whichever comes first. -/
theorem sameField_comm (a b : Option Value) :
    (a.isSome && sameField a b) = (b.isSome && sameField b a) := by
  cases a with
  | none => cases b <;> rfl
  | some a =>
    cases b with
    | none => rfl
    | some b => exact Value.same_comm a b

/-- Values of which each is the same as itself only. -/
def Value.isExact : Value → Bool
  | .bool _ | .int _ | .string _ | .blob _ => true
  | _ => false

theorem Value.same_iff_of_isExact {v w : Value} (h : v.isExact) : v.same w ↔ v = w := by
  cases v with
  | bool | int | string | blob => cases w <;> simp [same]
  | _ => cases h

namespace Key

theorem sameRecord_comm (a b : Key) : a.sameRecord b = b.sameRecord a := by
  have hf : (a.set == b.set && a.userKey.isSome && sameField a.userKey b.userKey)
      = (b.set == a.set && b.userKey.isSome && sameField b.userKey a.userKey) := by
    rw [Bool.and_assoc, Bool.and_assoc, sameField_comm, BEq.comm (a := a.set)]
  rw [sameRecord, sameRecord, BEq.comm (a := a.ns)]
  cases ha : a.digest with
  | none =>
    cases hb : b.digest with
    | none => exact congrArg _ hf
    | some y => exact congrArg _ hf
  | some x =>
    cases hb : b.digest with
    | none => exact congrArg _ hf
    | some y => exact congrArg _ BEq.comm

/-- Only keys that can be filed under something count as the same as another. -/
theorem exists_id_of_sameRecord {a b : Key} (h : a.sameRecord b) :
    ∃ id, RecordId.ofKey b = .ok id := by
  cases hu : b.userKey with
  | some v => exact ⟨_, by rw [RecordId.ofKey, hu]⟩
  | none =>
    cases hd : b.digest with
    | some digest => exact ⟨_, by rw [RecordId.ofKey, hu, hd]⟩
    | none =>
      rw [sameRecord, hu, hd] at h
      cases hv : a.userKey with
      | none => simp [hv] at h
      | some v => simp [hv, sameField] at h

/-- On these keys the test for the same record is an equivalence as far as keys can be filed
under something, and it joins only keys that are filed under one id. -/
structure Coherent (keys : List Key) : Prop where
  refl : ∀ k ∈ keys, ∀ id, RecordId.ofKey k = .ok id → k.sameRecord k
  id_eq : ∀ j ∈ keys, ∀ k ∈ keys, j.sameRecord k → RecordId.ofKey j = RecordId.ofKey k
  trans : ∀ i ∈ keys, ∀ j ∈ keys, ∀ k ∈ keys,
    i.sameRecord j → i.sameRecord k → j.sameRecord k

theorem Coherent.mono {keys asked : List Key} (h : Coherent keys) (hs : asked ⊆ keys) :
    Coherent asked where
  refl k hk := h.refl k (hs hk)
  id_eq j hj k hk := h.id_eq j (hs hj) k (hs hk)
  trans i hi j hj k hk := h.trans i (hs hi) j (hs hj) k (hs hk)

/-- A key with a digest and no user key, or with an exact user key and no digest. -/
def isPlain (k : Key) : Bool :=
  match k.userKey, k.digest with
  | some v, none => v.isExact
  | some _, some _ => false
  | none, _ => true

theorem sameRecord_iff_of_isPlain {j k : Key} (hj : j.isPlain) (hk : k.isPlain) :
    j.sameRecord k ↔ j.ns = k.ns ∧ j.userKey = k.userKey ∧ j.digest = k.digest ∧
      (j.digest.isSome ∨ j.userKey.isSome ∧ j.set = k.set) := by
  obtain ⟨ns, set, userKey, digest⟩ := j
  obtain ⟨ns', set', userKey', digest'⟩ := k
  cases userKey with
  | none =>
    cases userKey' with
    | none => cases digest <;> cases digest' <;> simp [sameRecord]
    | some w =>
      cases digest' with
      | none => cases digest <;> simp [sameRecord]
      | some d => cases hk
  | some v =>
    cases digest with
    | some d => cases hj
    | none =>
      cases userKey' with
      | none => cases digest' <;> simp [sameRecord, sameField]
      | some w =>
        cases digest' with
        | some d => cases hk
        | none =>
          have hv : v.same w ↔ v = w := Value.same_iff_of_isExact hj
          simpa [sameRecord, sameField, hv] using fun _ => and_comm

theorem coherent_of_isPlain {keys : List Key} (h : ∀ k ∈ keys, k.isPlain) : Coherent keys where
  refl k hk id hid := by
    rw [sameRecord_iff_of_isPlain (h k hk) (h k hk)]
    refine ⟨rfl, rfl, rfl, ?_⟩
    cases hd : k.digest with
    | some d => exact .inl rfl
    | none =>
      cases hu : k.userKey with
      | some v => exact .inr ⟨rfl, rfl⟩
      | none =>
        rw [RecordId.ofKey, hu, hd] at hid
        cases hid
  id_eq j hj k hk hs := by
    rw [sameRecord_iff_of_isPlain (h j hj) (h k hk)] at hs
    obtain ⟨hns, hu, hd, hs⟩ := hs
    have hp := h j hj
    rw [RecordId.ofKey, RecordId.ofKey, hns, hu, hd]
    cases hk' : k.userKey with
    | none => cases k.digest <;> rfl
    | some v =>
      rw [isPlain, hu, hk'] at hp
      rcases hs with hs | ⟨-, hset⟩
      · obtain ⟨d, hd'⟩ := Option.isSome_iff_exists.mp hs
        rw [hd'] at hp
        cases hp
      · rw [hset]
  trans i hi j hj k hk hij hik := by
    rw [sameRecord_iff_of_isPlain (h i hi) (h j hj)] at hij
    rw [sameRecord_iff_of_isPlain (h i hi) (h k hk)] at hik
    rw [sameRecord_iff_of_isPlain (h j hj) (h k hk)]
    obtain ⟨hns, hu, hd, hs⟩ := hij
    obtain ⟨hns', hu', hd', hs'⟩ := hik
    rw [← hns, ← hu, ← hd]
    refine ⟨hns', hu', hd', ?_⟩
    rcases hs with hs | ⟨hs, hset⟩
    · exact .inl hs
    · exact hs'.imp_right fun h => ⟨hs, hset ▸ h.2⟩

end Key

end RecordDb
