import RecordDb.Proofs.Session.Callbacks

/-!
# Large lists beside the calls that they come down to

An operation is either refused before anything is dispatched or it is one call whose arguments tell
those of the operation again.
-/
namespace RecordDb

namespace LargeListArgument

/-- Whether an argument may stand before the callback, at the place of a filter or elsewhere. -/
def fits (atFilter : Bool) : LargeListArgument → Bool
  | value _ => !atFilter
  | filter _ => atFilter
  | callback => false

/-- The values that an argument takes up in a call. -/
def values : LargeListArgument → List Value
  | value v => [v]
  | filter call => [.string call.module, .string call.function, .list call.args]
  | callback => []

/-- Arguments that fit the same place are told apart by their values, also when more follow. -/
theorem values_append_inj {atFilter : Bool} {a a' : LargeListArgument}
    (h : a.fits atFilter = true) (h' : a'.fits atFilter = true) {rest rest' : List Value}
    (he : a.values ++ rest = a'.values ++ rest') : a = a' ∧ rest = rest' := by
  cases a with
  | callback => cases h
  | value v =>
    cases a' with
    | callback => cases h'
    | value v' => simpa [values] using he
    | filter call =>
      cases atFilter with
      | true => cases h
      | false => cases h'
  | filter call =>
    cases a' with
    | callback => cases h'
    | value v =>
      cases atFilter with
      | true => cases h'
      | false => cases h
    | filter call' =>
      obtain ⟨module, function, args⟩ := call
      obtain ⟨module', function', args'⟩ := call'
      simpa [values, and_assoc] using he

theorem values_ne_nil {atFilter : Bool} {a : LargeListArgument} (h : a.fits atFilter = true) :
    a.values ≠ [] := by
  cases a with
  | value | filter => exact List.cons_ne_nil _ _
  | callback => cases h

end LargeListArgument

namespace LargeListOperation
variable (op : LargeListOperation)

/-- From a place on, there is a filter at the operation's place for one, and only there, and
plain values elsewhere. -/
def Places (start : Nat) (args : List LargeListArgument) : Prop :=
  ∀ i (arg : LargeListArgument), args[i]? = some arg →
    arg.fits (op.filterPlace = some (start + i)) = true

variable {op}

theorem places_cons {start : Nat} {arg : LargeListArgument} {rest : List LargeListArgument} :
    op.Places start (arg :: rest) ↔
      arg.fits (op.filterPlace = some start) = true ∧ op.Places (start + 1) rest := by
  constructor
  · intro h
    refine ⟨h 0 arg rfl, fun i a ha => ?_⟩
    rw [Nat.add_assoc, Nat.add_comm 1]
    exact h (i + 1) a ha
  · rintro ⟨harg, hrest⟩ i a ha
    cases i with
    | zero =>
      cases ha
      exact harg
    | succ i =>
      have hi := hrest i a ha
      rwa [Nat.add_assoc, Nat.add_comm 1] at hi

/-- The values of arguments that all fit their places tell the arguments. The induction is on both
lists at once, so that the same place is looked at in each. -/
theorem flatMap_values_inj {args args' : List LargeListArgument} {start : Nat}
    (h : op.Places start args) (h' : op.Places start args')
    (he : args.flatMap LargeListArgument.values = args'.flatMap LargeListArgument.values) :
    args = args' := by
  induction args generalizing args' start with
  | nil =>
    cases args' with
    | nil => rfl
    | cons a' rest' =>
      have hnil := List.append_eq_nil_iff.mp he.symm
      exact absurd hnil.1 (LargeListArgument.values_ne_nil (places_cons.mp h').1)
  | cons a rest ih =>
    cases args' with
    | nil =>
      have hnil := List.append_eq_nil_iff.mp he
      exact absurd hnil.1 (LargeListArgument.values_ne_nil (places_cons.mp h).1)
    | cons a' rest' =>
      obtain ⟨ha, hrest⟩ := places_cons.mp h
      obtain ⟨ha', hrest'⟩ := places_cons.mp h'
      obtain ⟨rfl, hv⟩ := LargeListArgument.values_append_inj ha ha' he
      rw [ih hrest hrest' hv]

end LargeListOperation

namespace LargeList
variable {op : LargeListOperation}

/-- What the call of an operation looks like. -/
structure Calls (l : LargeList) (op : LargeListOperation) (args : List LargeListArgument)
    (call : UdfCall) : Prop where
  module : call.module = "llist"
  bulk : ∀ bulk items rest, op.bulkFunction = some bulk → args = .value (.list items) :: rest →
    call.function = bulk
  single : (op.bulkFunction = none ∨ ∀ items rest, args ≠ .value (.list items) :: rest) →
    call.function = op.function
  args : call.args = .string l.bin :: args.flatMap LargeListArgument.values ++
    [l.createModule.elim .nil .string]

theorem Calls.inj {l : LargeList} {args args' : List LargeListArgument} {call : UdfCall}
    (hp : op.Places 0 args) (hp' : op.Places 0 args') (h : l.Calls op args call)
    (h' : l.Calls op args' call) : args = args' := by
  have he := h.args.symm.trans h'.args
  rw [List.cons_append, List.cons_append, List.cons.injEq] at he
  exact LargeListOperation.flatMap_values_inj hp hp' (List.append_cancel_right he.2)

section Invocation
variable {args : List LargeListArgument} (l : LargeList)

end Invocation

end LargeList

namespace Session

section Group
variable (s : Session) (c : Nat) {l : LargeList} (policy : Option ApplyPolicy)
  {op : LargeListOperation} {args : List LargeListArgument}

end Group

end Session

end RecordDb
