/-!
# Dictionaries

A dictionary is a list of entries that ascends strictly by key. A key that is there keeps its place,
so the laws of `get?` need no hypothesis on the list; `Ascending` is the shape that every operation
keeps.
-/
namespace RecordDb

/-- A strict order of keys, decided by a test. -/
class KeyOrder (κ : Type) where
  before : κ → κ → Bool

/-- Texts ascend by their code points, which is also the order of their UTF-8 bytes. -/
instance : KeyOrder String where
  before s t := s.toList.lex t.toList fun a b => decide (a.toNat < b.toNat)

/-- Byte strings ascend byte by byte, a leading part before its extensions. -/
instance : KeyOrder (List UInt8) where
  before s t := s.lex t fun a b => decide (a.toNat < b.toNat)

abbrev Dict (κ α : Type) := List (κ × α)

namespace Dict
variable {κ α β : Type}

section Lookup
variable [DecidableEq κ]

def get? : Dict κ α → κ → Option α
  | [], _ => none
  | (k, v) :: rest, key => if k = key then some v else get? rest key

def contains (d : Dict κ α) (key : κ) : Bool := (get? d key).isSome

def erase : Dict κ α → κ → Dict κ α
  | [], _ => []
  | (k, v) :: rest, key => if k = key then erase rest key else (k, v) :: erase rest key

@[simp] theorem get?_erase_self (d : Dict κ α) (key : κ) : get? (erase d key) key = none := by
  induction d with
  | nil => rfl
  | cons e rest ih =>
    by_cases h : e.1 = key
    · simp [erase, h, ih]
    · simp [erase, h, get?, ih]

theorem get?_erase_of_ne (d : Dict κ α) {key other : κ} (h : other ≠ key) :
    get? (erase d key) other = get? d other := by
  induction d with
  | nil => rfl
  | cons e rest ih =>
    by_cases hk : e.1 = key
    · have ho : e.1 ≠ other := fun he => h (he ▸ hk)
      simp [erase, hk, get?, ih]
      exact fun he => absurd he.symm h
    · simp [erase, hk, get?, ih]

/-- A key that is not there leaves nothing to erase. -/
theorem erase_of_not_contains {d : Dict κ α} {key : κ} (h : contains d key = false) :
    erase d key = d := by
  induction d with
  | nil => rfl
  | cons e rest ih =>
    rw [contains, get?] at h
    rw [erase]
    by_cases hk : e.1 = key
    · rw [if_pos hk] at h
      cases h
    · rw [if_neg hk] at h
      rw [if_neg hk, ih h]

end Lookup

section Insertion
variable [DecidableEq κ] [KeyOrder κ]

def insert : Dict κ α → κ → α → Dict κ α
  | [], key, value => [(key, value)]
  | (k, v) :: rest, key, value =>
    if k = key then (key, value) :: rest
    else if KeyOrder.before key k && !contains rest key then (key, value) :: (k, v) :: rest
    else (k, v) :: insert rest key value

/-- Later entries win over earlier ones of the same key. -/
def insertAll (d : Dict κ α) (entries : List (κ × α)) : Dict κ α :=
  entries.foldl (fun d e => insert d e.1 e.2) d

def ofList (entries : List (κ × α)) : Dict κ α := insertAll [] entries

@[simp] theorem get?_insert_self (d : Dict κ α) (key : κ) (value : α) :
    get? (insert d key value) key = some value := by
  induction d with
  | nil => simp [insert, get?]
  | cons e rest ih =>
    by_cases hk : e.1 = key
    · simp [insert, hk, get?]
    · by_cases hb : (KeyOrder.before key e.1 && !contains rest key) = true
      · rw [insert, if_neg hk, if_pos hb, get?, if_pos rfl]
      · rw [insert, if_neg hk, if_neg hb, get?, if_neg hk, ih]

theorem get?_insert_of_ne (d : Dict κ α) {key other : κ} (value : α) (h : other ≠ key) :
    get? (insert d key value) other = get? d other := by
  have h' : key ≠ other := fun he => h he.symm
  induction d with
  | nil => simp [insert, get?, h']
  | cons e rest ih =>
    by_cases hk : e.1 = key
    · simp [insert, hk, get?, h']
    · by_cases hb : (KeyOrder.before key e.1 && !contains rest key) = true
      · rw [insert, if_neg hk, if_pos hb, get?, if_neg h']
      · rw [insert, if_neg hk, if_neg hb, get?, get?, ih]

/-- A value that is there already may be written again. -/
theorem insert_eq_self {d : Dict κ α} {key : κ} {value : α} (h : get? d key = some value) :
    insert d key value = d := by
  induction d with
  | nil => cases h
  | cons e rest ih =>
    rw [get?] at h
    by_cases hk : e.1 = key
    · rw [if_pos hk, Option.some.injEq] at h
      rw [insert, if_pos hk, ← hk, ← h]
    · rw [if_neg hk] at h
      have hthere : (KeyOrder.before key e.1 && !contains rest key) = false := by
        rw [contains, h, Option.isSome_some, Bool.not_true, Bool.and_false]
      rw [insert, if_neg hk, hthere, if_neg Bool.false_ne_true, ih h]

end Insertion

/-- Keys ascend strictly, so no key occurs twice. -/
def Ascending [KeyOrder κ] (d : Dict κ α) : Prop :=
  d.Pairwise fun a b => KeyOrder.before a.1 b.1 = true

def keys (d : Dict κ α) : List κ := d.map Prod.fst

def values (d : Dict κ α) : List α := d.map Prod.snd

end Dict

end RecordDb
