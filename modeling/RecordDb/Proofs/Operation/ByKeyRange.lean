import RecordDb.Proofs.Dict.Ascending
import RecordDb.Proofs.Operation.Picks
import RecordDb.Proofs.Value.Order

/-!
# Selections by a range of keys

The bounds are compared as values and not as the keys they stand for, which makes no difference to
texts. An integer, though, is then before every key.
-/
namespace RecordDb.Selection

open KeyOrder (before)

/-- What bounds a range of keys: nil where the range is open, else what stands for a key. -/
inductive KeyBound : Value → Prop where
  | none : KeyBound .nil
  | text (s : String) : KeyBound (.string s)
  | number (i : Int64) : KeyBound (.int i)

def isFrom (start : Value) (key : String) : Bool :=
  match mapKey start with
  | .ok first => !before key first
  | .error _ => true

def isBefore (stop : Value) (key : String) : Bool :=
  match mapKey stop with
  | .ok last => before key last
  | .error _ => true

/-- The keys from the one that `start` stands for to the one that `stop` stands for, which is not
in the range. A bound that stands for no key leaves its side open. -/
def inKeyRange (start stop : Value) (key : String) : Bool := isFrom start key && isBefore stop key

/-- The bound as it is compared with keys: before all of them if it is an integer, as the empty text
is. -/
def comparedBound : Value → Value
  | .int _ => .string ""
  | v => v

variable {op : MapOperation} {start stop : Value}

theorem before_empty (key : String) : before key "" = false := by
  cases h : key.toList <;> simp [before, h]

theorem empty_before {key : String} (h : key ≠ "") : before "" key := by
  cases hkey : key.toList with
  | nil => exact absurd (String.toList_eq_nil_iff.mp hkey) h
  | cons c rest => simp [before, hkey]

theorem toString_ne_empty (i : Int) : toString i ≠ "" := by
  cases i with
  | ofNat n => exact Nat.repr_ne_empty
  | negSucc n =>
    intro h
    have hlist := congrArg String.toList h
    simp [toString, Int.repr] at hlist

theorem isFrom_comparedBound (h : KeyBound start) (key : String) :
    isFrom (comparedBound start) key = (start.isNil || (Value.string key).compare start != .lt) := by
  cases h with
  | none => rfl
  | text first =>
    rw [Bool.eq_iff_iff]
    simp [isFrom, comparedBound, mapKey, Value.isNil, Value.compare, Value.compareKeys_lt_iff]
  | number i =>
    have hlast : (Value.string key).compare (.int i) = .gt := rfl
    simp [isFrom, comparedBound, mapKey, before_empty, hlast]

theorem isBefore_comparedBound (h : KeyBound stop) (key : String) :
    isBefore (comparedBound stop) key = (stop.isNil || (Value.string key).compare stop == .lt) := by
  cases h with
  | none => rfl
  | text last =>
    rw [Bool.eq_iff_iff]
    simp [isBefore, comparedBound, mapKey, Value.isNil, Value.compare, Value.compareKeys_lt_iff]
  | number i =>
    have hlast : (Value.string key).compare (.int i) = .gt := rfl
    simp [isBefore, comparedBound, mapKey, Value.isNil, before_empty, hlast]

theorem select_by_keyRange (hkind : op.kind = .getByKeyRange ∨ op.kind = .removeByKeyRange)
    (hstart : op.start = some start) (hstop : op.stop = some stop) (entries : Dict String Value) :
    select entries op = .ok (matching entries fun k _ => (Value.string k).inRange start stop) := by
  rcases hkind with hkind | hkind <;>
    simp only [select, hkind, hstart, hstop, Evaluated.required] <;> rfl

/-- A selection by a range of keys picks the keys in the range of the bounds as they are compared. -/
theorem picks_of_keyRange (hkind : op.kind = .getByKeyRange ∨ op.kind = .removeByKeyRange)
    (hstart : op.start = some start) (hstop : op.stop = some stop) (hs : KeyBound start)
    (he : KeyBound stop) (entries : Dict String Value) :
    Picks entries op fun e => inKeyRange (comparedBound start) (comparedBound stop) e.1 := by
  have hrange (key : String) : (Value.string key).inRange start stop
      = inKeyRange (comparedBound start) (comparedBound stop) key := by
    rw [inKeyRange, isFrom_comparedBound hs, isBefore_comparedBound he, Value.inRange]
  have hpicks := picks_of_matching (select_by_keyRange hkind hstart hstop entries)
  simp only [hrange] at hpicks
  exact hpicks

/-- Two tests of keys pick the same from every map only if they are the same test. -/
theorem forall_picks_iff {test test' : String → Bool}
    (h : ∀ entries, Picks entries op fun e => test e.1) :
    (∀ entries, Picks entries op fun e => test' e.1) ↔ ∀ key, test key = test' key := by
  constructor
  · intro h' key
    exact ((h [(key, .nil)]).iff_agree.mp (h' _)) (key, .nil) (List.mem_singleton_self _)
  · intro hagree entries
    exact (h entries).iff_agree.mpr fun e _ => hagree e.1

def IsNumber (v : Value) : Prop := ∃ i, v = .int i

theorem comparedBound_of_not_isNumber {v : Value} (h : ¬ IsNumber v) : comparedBound v = v := by
  cases v with
  | int i => exact absurd ⟨i, rfl⟩ h
  | _ => rfl

theorem not_isBefore_of_isNumber (h : IsNumber stop) (key : String) :
    isBefore (comparedBound stop) key = false := by
  obtain ⟨i, rfl⟩ := h
  exact before_empty key

/-- Where the ranges agree at the empty key though the lower bound is an integer, the range ends
before it begins. -/
theorem not_isBefore_of_agree (hs : IsNumber start) (he : KeyBound stop)
    (h : inKeyRange (comparedBound start) (comparedBound stop) "" = inKeyRange start stop "")
    (key : String) : isBefore (comparedBound stop) key = false := by
  obtain ⟨i, rfl⟩ := hs
  have hfrom : isFrom (.int i) "" = false := by
    simp only [isFrom, mapKey, empty_before (toString_ne_empty i.toInt), Bool.not_true]
  have hfirst : isFrom (comparedBound (.int i)) "" := by
    simp [isFrom, comparedBound, mapKey, before_empty]
  rw [inKeyRange, inKeyRange, hfrom, hfirst, Bool.true_and, Bool.false_and] at h
  cases he with
  | none => cases h
  | text last =>
    by_cases hlast : last = ""
    · rw [hlast]
      exact before_empty key
    · exact absurd (h.symm.trans (empty_before hlast)) (by decide)
  | number j => exact before_empty key

/-- A selection by a range of keys compares an integer bound as if it came before every key. It goes
by the keys that the bounds stand for, on every map, exactly if no bound is an integer or there is
no key in either range. -/
theorem key_range_honours_conversion_iff
    (hkind : op.kind = .getByKeyRange ∨ op.kind = .removeByKeyRange)
    (hstart : op.start = some start) (hstop : op.stop = some stop) (hs : KeyBound start)
    (he : KeyBound stop) :
    (∀ entries, Picks entries op fun e =>
      inKeyRange (comparedBound start) (comparedBound stop) e.1) ∧
    ((∀ entries, Picks entries op fun e => inKeyRange start stop e.1) ↔
      IsNumber start ∨ IsNumber stop → ∀ key, inKeyRange start stop key = false ∧
        inKeyRange (comparedBound start) (comparedBound stop) key = false) := by
  have hpicks := picks_of_keyRange hkind hstart hstop hs he
  refine ⟨hpicks, ?_⟩
  rw [forall_picks_iff hpicks]
  constructor
  · intro hagree hnumber key
    have hend : isBefore (comparedBound stop) key = false := by
      rcases hnumber with hfirst | hlast
      · exact not_isBefore_of_agree hfirst he (hagree "") key
      · exact not_isBefore_of_isNumber hlast key
    have hempty : inKeyRange (comparedBound start) (comparedBound stop) key = false := by
      rw [inKeyRange, hend, Bool.and_false]
    exact ⟨hagree key ▸ hempty, hempty⟩
  · intro hempty key
    by_cases hnumber : IsNumber start ∨ IsNumber stop
    · rw [(hempty hnumber key).1, (hempty hnumber key).2]
    · rw [not_or] at hnumber
      rw [comparedBound_of_not_isNumber hnumber.1, comparedBound_of_not_isNumber hnumber.2]

theorem key_range_honours_conversion_iff_texts :
    let op := { MapOperation.new .removeByKeyRange "m" with
      start := some (.string "1"), stop := some .nil }
    KeyBound (.string "1") ∧ KeyBound .nil ∧
    (∀ entries, Picks entries op fun e => inKeyRange (.string "1") .nil e.1) ∧
    (∀ v : Value, Evaluation.map [] { MapOperation.new .put "m" with
      key := some (.int 5), value := some v } = .ok ([("5", v)], some (.int 1))) ∧
    inKeyRange (.string "1") .nil "5" := by
  intro op
  have hkind : op.kind = .getByKeyRange ∨ op.kind = .removeByKeyRange := .inr rfl
  obtain ⟨-, hiff⟩ := key_range_honours_conversion_iff hkind rfl rfl (.text "1") .none
  refine ⟨.text "1", .none, hiff.mpr ?_, fun v => rfl, by decide⟩
  rintro (⟨i, hi⟩ | ⟨i, hi⟩) <;> cases hi

/-- A key that was put under an integer is not found from that integer on up to the next. -/
example :
    inKeyRange (.int 5) (.int 6) "5" ∧
    inKeyRange (comparedBound (.int 5)) (comparedBound (.int 6)) "5" = false := by decide

end RecordDb.Selection
