import Mathlib.Data.List.Lex
import Mathlib.Data.List.Sort
import RecordDb.Dict

/-!
# Dictionaries stay ascending

The order of keys is a strict total order, so an entry has one place only, and a list of entries
that ascends is a dictionary already.
-/
namespace RecordDb

/-- The test of a key order decides a strict total order. -/
class LawfulKeyOrder (κ : Type) [KeyOrder κ] : Prop where
  irrefl (a : κ) : ¬ KeyOrder.before a a
  trans {a b c : κ} : KeyOrder.before a b → KeyOrder.before b c → KeyOrder.before a c
  total {a b : κ} : a ≠ b → KeyOrder.before a b ∨ KeyOrder.before b a

namespace LawfulKeyOrder

theorem asymm {κ : Type} [KeyOrder κ] [LawfulKeyOrder κ] {a b : κ} (h : KeyOrder.before a b) :
    ¬ KeyOrder.before b a :=
  fun h' => irrefl a (trans h h')

theorem ne {κ : Type} [KeyOrder κ] [LawfulKeyOrder κ] {a b : κ} (h : KeyOrder.before a b) :
    a ≠ b := by
  rintro rfl
  exact irrefl a h

/-- Lists of elements that a number tells apart, in the order of the first difference. -/
theorem lex_total {α : Type} {number : α → Nat} (hi : Function.Injective number) {s t : List α}
    (h : s ≠ t) : List.Lex (fun a b => number a < number b) s t
      ∨ List.Lex (fun a b => number a < number b) t s := by
  have hr : Std.Trichotomous fun a b : α => number a < number b :=
    ⟨fun a b hab hba => hi (by omega)⟩
  by_contra hn
  rw [not_or] at hn
  exact h (Std.Trichotomous.trichotomous s t hn.1 hn.2)

theorem char_toNat_injective : Function.Injective Char.toNat := fun a b h => by
  have := Char.ofNat_toNat a
  rw [h, Char.ofNat_toNat] at this
  exact this.symm

end LawfulKeyOrder

instance : LawfulKeyOrder String where
  irrefl s := by
    simpa [KeyOrder.before] using List.lex_irrefl (fun x => Nat.lt_irrefl x.toNat) s.toList
  trans {a b c} hab hbc := by
    simp only [KeyOrder.before, List.lex_eq_true_iff_lex, decide_eq_true_eq] at hab hbc ⊢
    exact List.lex_trans (fun h h' => Nat.lt_trans h h') hab hbc
  total {a b} h := by
    simp only [KeyOrder.before, List.lex_eq_true_iff_lex, decide_eq_true_eq]
    exact LawfulKeyOrder.lex_total LawfulKeyOrder.char_toNat_injective
      fun he => h (String.toList_inj.mp he)

instance : LawfulKeyOrder (List UInt8) where
  irrefl s := by
    simpa [KeyOrder.before] using List.lex_irrefl (fun x => Nat.lt_irrefl x.toNat) s
  trans {a b c} hab hbc := by
    simp only [KeyOrder.before, List.lex_eq_true_iff_lex, decide_eq_true_eq] at hab hbc ⊢
    exact List.lex_trans (fun h h' => Nat.lt_trans h h') hab hbc
  total {a b} h := by
    simp only [KeyOrder.before, List.lex_eq_true_iff_lex, decide_eq_true_eq]
    exact LawfulKeyOrder.lex_total (fun _ _ h => UInt8.toNat_inj.mp h) h

namespace Dict
variable {κ α : Type}

section Shape
variable [KeyOrder κ]

instance (d : Dict κ α) : Decidable (Ascending d) := inferInstanceAs (Decidable (List.Pairwise _ d))

theorem ascending_nil : Ascending ([] : Dict κ α) := List.Pairwise.nil

theorem ascending_cons {e : κ × α} {rest : Dict κ α} :
    Ascending (e :: rest) ↔ (∀ e' ∈ rest, KeyOrder.before e.1 e'.1) ∧ Ascending rest :=
  List.pairwise_cons

theorem nodup_keys [LawfulKeyOrder κ] {d : Dict κ α} (h : Ascending d) : (keys d).Nodup := by
  apply List.Pairwise.map Prod.fst _ h
  intro a b hab
  exact LawfulKeyOrder.ne hab

/-- Entries ascend in one way only. -/
theorem eq_of_perm [LawfulKeyOrder κ] {d d' : Dict κ α} (h : Ascending d) (h' : Ascending d')
    (hp : d.Perm d') : d = d' := by
  apply List.Perm.eq_of_pairwise _ h h' hp
  intro a b _ _ hab hba
  exact absurd hba (LawfulKeyOrder.asymm hab)

end Shape

section Lookup
variable [DecidableEq κ]

theorem mem_of_mem_erase {d : Dict κ α} {key : κ} {e : κ × α} (h : e ∈ erase d key) : e ∈ d := by
  induction d with
  | nil => exact h
  | cons e' rest ih =>
    by_cases hk : e'.1 = key
    · rw [erase, if_pos hk] at h
      exact List.mem_cons_of_mem _ (ih h)
    · rw [erase, if_neg hk] at h
      rcases List.mem_cons.mp h with rfl | h
      · exact List.mem_cons_self
      · exact List.mem_cons_of_mem _ (ih h)

theorem mem_of_get?_eq_some {d : Dict κ α} {key : κ} {value : α} (h : get? d key = some value) :
    (key, value) ∈ d := by
  induction d with
  | nil => cases h
  | cons e rest ih =>
    by_cases hk : e.1 = key
    · rw [get?, if_pos hk] at h
      cases h
      exact hk ▸ List.mem_cons_self
    · rw [get?, if_neg hk] at h
      exact List.mem_cons_of_mem _ (ih h)

end Lookup

section Insertion
variable [DecidableEq κ] [KeyOrder κ]

theorem mem_insert {d : Dict κ α} {key : κ} {value : α} {e : κ × α} (h : e ∈ insert d key value) :
    e = (key, value) ∨ e ∈ d := by
  induction d with
  | nil => simpa [insert] using h
  | cons e' rest ih =>
    rw [insert] at h
    split at h
    · rcases List.mem_cons.mp h with h | h
      · exact .inl h
      · exact .inr (List.mem_cons_of_mem _ h)
    · split at h
      · exact List.mem_cons.mp h
      · rcases List.mem_cons.mp h with rfl | h
        · exact .inr List.mem_cons_self
        · exact (ih h).imp_right (List.mem_cons_of_mem _)

theorem mem_insertAll {d : Dict κ α} {entries : List (κ × α)} {e : κ × α}
    (h : e ∈ insertAll d entries) : e ∈ d ∨ e ∈ entries := by
  induction entries generalizing d with
  | nil => exact .inl h
  | cons e' rest ih =>
    rcases ih h with h | h
    · rcases mem_insert h with rfl | h
      · exact .inr List.mem_cons_self
      · exact .inl h
    · exact .inr (List.mem_cons_of_mem _ h)

theorem ascending_erase {d : Dict κ α} (h : Ascending d) (key : κ) : Ascending (erase d key) := by
  induction d with
  | nil => exact h
  | cons e rest ih =>
    obtain ⟨he, hr⟩ := ascending_cons.mp h
    rw [erase]
    split
    · exact ih hr
    · exact ascending_cons.mpr ⟨fun e' h' => he e' (mem_of_mem_erase h'), ih hr⟩

theorem insert_perm {d : Dict κ α} {key : κ} (h : key ∉ keys d) (value : α) :
    (insert d key value).Perm ((key, value) :: d) := by
  induction d with
  | nil => exact .refl _
  | cons e rest ih =>
    rw [keys, List.map_cons, List.mem_cons, not_or] at h
    rw [insert, if_neg (Ne.symm h.1)]
    split
    · exact .refl _
    · exact ((ih h.2).cons e).trans (.swap _ _ _)

/-- A second value of a key takes the place of the first. -/
theorem insert_insert (d : Dict κ α) (key : κ) (value value' : α) :
    insert (insert d key value) key value' = insert d key value' := by
  induction d with
  | nil => simp [insert]
  | cons e rest ih =>
    by_cases hk : e.1 = key
    · simp [insert, hk]
    · by_cases hb : (KeyOrder.before key e.1 && !contains rest key) = true
      · simp only [insert, if_neg hk, if_pos hb, if_true]
      · have hthere : contains (insert rest key value) key = true := by simp [contains]
        simp [insert, hk, hb, hthere, ih]

/-- Entries of different keys are all kept. -/
theorem insertAll_perm {d entries : Dict κ α} (h : (keys (d ++ entries)).Nodup) :
    (insertAll d entries).Perm (d ++ entries) := by
  induction entries generalizing d with
  | nil => rw [List.append_nil]; exact .refl _
  | cons e rest ih =>
    have hmoved : (e :: d ++ rest).Perm (d ++ e :: rest) := List.perm_middle.symm
    have hnodup : (keys (e :: d ++ rest)).Nodup := (hmoved.map Prod.fst).nodup_iff.mpr h
    have hkey : e.1 ∉ keys d := by
      intro hmem
      apply (List.nodup_cons.mp hnodup).1
      exact List.map_append ▸ List.mem_append_left _ hmem
    have hinsert : (insert d e.1 e.2 ++ rest).Perm (e :: d ++ rest) :=
      (insert_perm hkey e.2).append_right rest
    exact (ih ((hinsert.map Prod.fst).nodup_iff.mpr hnodup)).trans (hinsert.trans hmoved)

theorem ofList_perm {entries : Dict κ α} (h : (keys entries).Nodup) :
    (ofList entries).Perm entries :=
  insertAll_perm h

variable [LawfulKeyOrder κ]

theorem get?_of_mem {d : Dict κ α} (h : Ascending d) {key : κ} {value : α}
    (hm : (key, value) ∈ d) : get? d key = some value := by
  induction d with
  | nil => cases hm
  | cons e rest ih =>
    obtain ⟨he, hr⟩ := ascending_cons.mp h
    rcases List.mem_cons.mp hm with rfl | hm
    · simp [get?]
    · rw [get?, if_neg (LawfulKeyOrder.ne (he _ hm)), ih hr hm]

theorem mem_iff_get? {d : Dict κ α} (h : Ascending d) (e : κ × α) :
    e ∈ d ↔ get? d e.1 = some e.2 :=
  ⟨get?_of_mem h, mem_of_get?_eq_some⟩

/-- The key of the first entry does not come again. -/
theorem get?_tail_eq_none {e : κ × α} {rest : Dict κ α} (h : Ascending (e :: rest)) :
    get? rest e.1 = none := by
  cases hg : get? rest e.1 with
  | none => rfl
  | some v =>
    have hb := (ascending_cons.mp h).1 _ (mem_of_get?_eq_some hg)
    exact absurd hb (LawfulKeyOrder.irrefl e.1)

/-- A dictionary is determined by its lookups. -/
theorem ext_get? {d d' : Dict κ α} (h : Ascending d) (h' : Ascending d')
    (hg : ∀ key, get? d key = get? d' key) : d = d' := by
  have hi : Std.Irrefl fun a b : κ × α => KeyOrder.before a.1 b.1 = true :=
    ⟨fun a => LawfulKeyOrder.irrefl a.1⟩
  have ha : Std.Antisymm fun a b : κ × α => KeyOrder.before a.1 b.1 = true :=
    ⟨fun _ _ hab hba => absurd hba (LawfulKeyOrder.asymm hab)⟩
  refine List.Pairwise.eq_of_mem_iff h h' fun e => ?_
  rw [mem_iff_get? h, mem_iff_get? h', hg]

/-- A key before the first is not there. -/
theorem not_contains_of_before {e : κ × α} {rest : Dict κ α} {key : κ}
    (h : Ascending (e :: rest)) (hb : KeyOrder.before key e.1) : contains rest key = false := by
  rw [contains, Option.isSome_eq_false_iff, Option.isNone_iff_eq_none,
    Option.eq_none_iff_forall_ne_some]
  intro value hg
  have hafter := (ascending_cons.mp h).1 _ (mem_of_get?_eq_some hg)
  exact LawfulKeyOrder.asymm hb hafter

theorem insert_cons {e : κ × α} {rest : Dict κ α} {key : κ} (h : Ascending (e :: rest))
    (hk : e.1 ≠ key) (value : α) : insert (e :: rest) key value =
      if KeyOrder.before key e.1 then (key, value) :: e :: rest
      else e :: insert rest key value := by
  rw [insert, if_neg hk]
  by_cases hb : KeyOrder.before key e.1 = true
  · simp [hb, not_contains_of_before h hb]
  · simp [hb]

theorem ascending_insert {d : Dict κ α} (h : Ascending d) (key : κ) (value : α) :
    Ascending (insert d key value) := by
  induction d with
  | nil => exact ascending_cons.mpr ⟨by simp, ascending_nil⟩
  | cons e rest ih =>
    obtain ⟨he, hr⟩ := ascending_cons.mp h
    by_cases hk : e.1 = key
    · rw [insert, if_pos hk]
      exact ascending_cons.mpr ⟨fun e' h' => hk ▸ he e' h', hr⟩
    · rw [insert_cons h hk]
      split
      · rename_i hb
        refine ascending_cons.mpr ⟨fun e' h' => ?_, h⟩
        rcases List.mem_cons.mp h' with rfl | h'
        · exact hb
        · exact LawfulKeyOrder.trans hb (he e' h')
      · rename_i hb
        refine ascending_cons.mpr ⟨fun e' h' => ?_, ih hr⟩
        rcases mem_insert h' with rfl | h'
        · exact (LawfulKeyOrder.total hk).resolve_right hb
        · exact he e' h'

/-- An entry that has been taken out goes back to its place. -/
theorem insert_erase {d : Dict κ α} (h : Ascending d) (key : κ) (value : α) :
    insert (erase d key) key value = insert d key value := by
  apply ext_get? (ascending_insert (ascending_erase h key) key value) (ascending_insert h key value)
  intro other
  by_cases hk : other = key
  · rw [hk, get?_insert_self, get?_insert_self]
  · rw [get?_insert_of_ne _ _ hk, get?_insert_of_ne _ _ hk, get?_erase_of_ne _ hk]

/-- A key that comes after all others goes to the end. -/
theorem insert_of_last {d : Dict κ α} {key : κ} (h : ∀ e ∈ d, KeyOrder.before e.1 key)
    (value : α) : insert d key value = d ++ [(key, value)] := by
  induction d with
  | nil => rfl
  | cons e rest ih =>
    have he := h e List.mem_cons_self
    have hb : (KeyOrder.before key e.1 && !contains rest key) = false := by
      simp [LawfulKeyOrder.asymm he]
    rw [insert, if_neg (LawfulKeyOrder.ne he), hb, if_neg Bool.false_ne_true,
      ih fun e' h' => h e' (List.mem_cons_of_mem _ h'), List.cons_append]

theorem insertAll_of_ascending {d entries : Dict κ α} (h : Ascending (d ++ entries)) :
    insertAll d entries = d ++ entries := by
  induction entries generalizing d with
  | nil => simp [insertAll]
  | cons e rest ih =>
    have he : ∀ e' ∈ d, KeyOrder.before e'.1 e.1 := fun e' h' =>
      (List.pairwise_append.mp h).2.2 e' h' e List.mem_cons_self
    have hs : d ++ e :: rest = d ++ [e] ++ rest := by simp
    calc insertAll d (e :: rest)
      _ = insertAll (d ++ [e]) rest := by
        rw [insertAll, List.foldl_cons, insert_of_last he e.2]
        rfl
      _ = d ++ e :: rest := by rw [ih (hs ▸ h), hs]

/-- Entries that ascend are a dictionary as they stand. -/
theorem ofList_of_ascending {entries : Dict κ α} (h : Ascending entries) :
    ofList entries = entries :=
  insertAll_of_ascending h

theorem ascending_insertAll {d : Dict κ α} (h : Ascending d) (entries : List (κ × α)) :
    Ascending (insertAll d entries) := by
  induction entries generalizing d with
  | nil => exact h
  | cons e rest ih => exact ih (ascending_insert h e.1 e.2)

/-- The entries of a dictionary may be given in any order. -/
theorem ofList_of_perm {d entries : Dict κ α} (h : Ascending d) (hp : entries.Perm d) :
    ofList entries = d := by
  have hnodup : (keys entries).Nodup := (hp.map Prod.fst).nodup_iff.mpr (nodup_keys h)
  exact eq_of_perm (ascending_insertAll ascending_nil entries) h ((ofList_perm hnodup).trans hp)

/-- Entries that ascend are looked up before those that they are inserted into. -/
theorem get?_insertAll (d : Dict κ α) {entries : Dict κ α} (h : Ascending entries) (key : κ) :
    get? (insertAll d entries) key = (get? entries key).or (get? d key) := by
  induction entries generalizing d with
  | nil => rfl
  | cons e rest ih =>
    have hrest : Ascending rest := (ascending_cons.mp h).2
    change get? (insertAll (insert d e.1 e.2) rest) key = _
    rw [ih _ hrest, get?]
    by_cases hk : e.1 = key
    · rw [if_pos hk, ← hk, get?_tail_eq_none h, get?_insert_self]
      rfl
    · rw [if_neg hk, get?_insert_of_ne _ _ (Ne.symm hk)]

/-- Entries may be inserted one dictionary after the other or gathered before. -/
theorem insertAll_insertAll {d d' : Dict κ α} (h : Ascending d) (h' : Ascending d')
    (entries : List (κ × α)) :
    insertAll (insertAll d d') entries = insertAll d (insertAll d' entries) := by
  induction entries generalizing d' with
  | nil => rfl
  | cons e rest ih =>
    have hfirst : insert (insertAll d d') e.1 e.2 = insertAll d (insert d' e.1 e.2) := by
      have hasc := ascending_insert h' e.1 e.2
      apply ext_get? (ascending_insert (ascending_insertAll h d') e.1 e.2) (ascending_insertAll h _)
      intro key
      rw [get?_insertAll d hasc]
      by_cases hk : key = e.1
      · rw [hk, get?_insert_self, get?_insert_self]
        rfl
      · rw [get?_insert_of_ne _ _ hk, get?_insert_of_ne _ _ hk, get?_insertAll d h']
    calc insertAll (insertAll d d') (e :: rest)
      _ = insertAll (insert (insertAll d d') e.1 e.2) rest := rfl
      _ = insertAll d (insertAll d' (e :: rest)) := by
        rw [hfirst, ih (ascending_insert h' e.1 e.2)]
        rfl

end Insertion

end Dict

end RecordDb
