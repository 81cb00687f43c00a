import RecordDb.Operation.Builders
import RecordDb.Operation.Evaluation
import RecordDb.Proofs.Wire.Messages

/-!
# What operations mean after they have been sent

An operand that is a nil is read back as no operand, so operations that were sent do what they did
before or complain that such an operand is missing.
-/
namespace RecordDb

open Codec

namespace Value

mutual

/-- Whether no geographic text occurs in the value, at any depth. -/
def geoless : Value → Bool
  | geo _ => false
  | list items => geolessItems items
  | map entries => geolessEntries entries
  | _ => true

def geolessItems : List Value → Bool
  | [] => true
  | v :: rest => geoless v && geolessItems rest

def geolessEntries : List (String × Value) → Bool
  | [] => true
  | (_, v) :: rest => geoless v && geolessEntries rest

end

mutual

theorem asRead_of_geoless (v : Value) (h : v.geoless) : v.asRead = v := by
  cases v with
  | geo => cases h
  | list items =>
    rw [geoless] at h
    rw [asRead, asReadItems_of_geoless items h]
  | map entries =>
    rw [geoless] at h
    rw [asRead, asReadEntries_of_geoless entries h]
  | _ => rfl

theorem asReadItems_of_geoless (items : List Value) (h : geolessItems items) :
    asReadItems items = items := by
  cases items with
  | nil => rfl
  | cons v rest =>
    rw [geolessItems, Bool.and_eq_true] at h
    rw [asReadItems, asRead_of_geoless v h.1, asReadItems_of_geoless rest h.2]

theorem asReadEntries_of_geoless (entries : List (String × Value)) (h : geolessEntries entries) :
    asReadEntries entries = entries := by
  match entries with
  | [] => rfl
  | (k, v) :: rest =>
    rw [geolessEntries, Bool.and_eq_true] at h
    rw [asReadEntries, asRead_of_geoless v h.1, asReadEntries_of_geoless rest h.2]

end

/-- The name of an operand that is a nil. -/
def nilField (name : String) (o : Option Value) : List String :=
  if o.any isNil then [name] else []

end Value

namespace Evaluated
variable {α β : Type} {names : List String}

/-- The outcome is the same, or else that some operand is missing. -/
def SameOrLacks (names : List String) (x y : Evaluated α) : Prop :=
  x = y ∨ ∃ name ∈ names, x = required name none

namespace SameOrLacks

theorem refl (x : Evaluated α) : SameOrLacks names x x := .inl rfl

/-- The first operand that is missing ends a computation. -/
theorem bind {x y : Evaluated α} {f g : α → Evaluated β} (h : SameOrLacks names x y)
    (hf : ∀ a, SameOrLacks names (f a) (g a)) : SameOrLacks names (x >>= f) (y >>= g) := by
  rcases h with rfl | ⟨name, hn, rfl⟩
  · cases x with
    | error e => exact .inl rfl
    | ok a => exact hf a
  · exact .inr ⟨name, hn, rfl⟩

theorem map {x y : Evaluated α} (h : SameOrLacks names x y) (f : α → β) :
    SameOrLacks names (x.map f) (y.map f) := by
  rcases h with rfl | ⟨name, hn, rfl⟩
  · exact refl _
  · exact .inr ⟨name, hn, rfl⟩

theorem of_required {name : String} {o : Option Value} (ho : o.all Value.geoless)
    (hsub : Value.nilField name o ⊆ names) :
    SameOrLacks names (required name (Value.asReadField o)) (required name o) := by
  cases o with
  | none => exact .inl rfl
  | some v =>
    cases hv : v.isNil with
    | true =>
      refine .inr ⟨name, hsub (by simp [Value.nilField, hv]), ?_⟩
      rw [Value.asReadField, Option.filter_some_neg (by simpa using hv), Option.map_none]
    | false =>
      left
      rw [Value.asReadField, Option.filter_some_pos (by simpa using hv), Option.map_some,
        v.asRead_of_geoless ho]

end SameOrLacks

end Evaluated

open Evaluated Evaluation

/-! Every family of operations asks for its operands by name, before it uses them. -/

namespace ScalarOperation

def geoless (op : ScalarOperation) : Bool := op.value.all Value.geoless

def nilFields (op : ScalarOperation) : List String := Value.nilField "value" op.value

theorem evaluate_asRead (p : Progress) (op : ScalarOperation) (h : op.geoless) :
    SameOrLacks op.nilFields ((scalar op.asRead).outcome p) ((scalar op).outcome p) := by
  have hv : SameOrLacks op.nilFields (required "value" op.asRead.value)
      (required "value" op.value) := .of_required h (List.Subset.refl _)
  obtain ⟨kind, bin, value, ttl⟩ := op
  cases kind with
  | read | touch => exact .refl _
  | write =>
    simp only [scalar, ScalarOperation.asRead, Effect.outcome_check_bind]
    exact hv.bind fun v => .refl _
  | incr | append | prepend =>
    simp only [scalar, ScalarOperation.asRead, outcome_combine]
    exact hv.bind fun v => .refl _

end ScalarOperation

namespace ListOperation

def geoless (op : ListOperation) : Bool := op.value.all Value.geoless

def nilFields (op : ListOperation) : List String := Value.nilField "value" op.value

theorem evaluate_asRead (xs : List Value) (op : ListOperation) (h : op.geoless) :
    SameOrLacks op.nilFields (list xs op.asRead) (list xs op) := by
  have hv : SameOrLacks op.nilFields (required "value" op.asRead.value)
      (required "value" op.value) := .of_required h (List.Subset.refl _)
  obtain ⟨kind, bin, index, count, value⟩ := op
  cases kind with
  | append | appendItems => exact hv.bind fun v => .refl _
  | insert | insertItems | set =>
    refine SameOrLacks.bind (.refl _) fun i => SameOrLacks.bind (.refl _) ?_
    rintro ⟨i, xs⟩
    exact hv.bind fun v => .refl _
  | _ => exact .refl _

end ListOperation

namespace MapOperation

def geoless (op : MapOperation) : Bool :=
  op.key.all Value.geoless && op.value.all Value.geoless && op.start.all Value.geoless
    && op.stop.all Value.geoless

def nilFields (op : MapOperation) : List String :=
  Value.nilField "key" op.key ++ Value.nilField "value" op.value
    ++ Value.nilField "begin" op.start ++ Value.nilField "end" op.stop

/-- The operands of a map operation after it has been sent. -/
structure SentOperands (op : MapOperation) : Prop where
  key : SameOrLacks op.nilFields (required "key" op.asRead.key) (required "key" op.key)
  value : SameOrLacks op.nilFields (required "value" op.asRead.value) (required "value" op.value)
  start : SameOrLacks op.nilFields (required "begin" op.asRead.start) (required "begin" op.start)
  stop : SameOrLacks op.nilFields (required "end" op.asRead.stop) (required "end" op.stop)

theorem sentOperands {op : MapOperation} (h : op.geoless) : op.SentOperands := by
  simp only [geoless, Bool.and_eq_true] at h
  obtain ⟨⟨⟨hkey, hvalue⟩, hstart⟩, hstop⟩ := h
  constructor
  · exact .of_required hkey fun n hn => by simp [nilFields, hn]
  · exact .of_required hvalue fun n hn => by simp [nilFields, hn]
  · exact .of_required hstart fun n hn => by simp [nilFields, hn]
  · exact .of_required hstop fun n hn => by simp [nilFields, hn]

theorem select_asRead (entries : Dict String Value) (op : MapOperation) (h : op.SentOperands) :
    SameOrLacks op.nilFields (Selection.select entries op.asRead) (Selection.select entries op) := by
  obtain ⟨hkey, hvalue, hstart, hstop⟩ := h
  obtain ⟨kind, bin, key, value, start, stop, index, rank, count, returnType, policy⟩ := op
  cases kind with
  | removeByKey | getByKey | removeByKeyList => exact hkey.bind fun v => .refl _
  | removeByKeyRange | getByKeyRange | removeByValueRange | getByValueRange =>
    exact hstart.bind fun v => hstop.bind fun w => .refl _
  | removeByValue | getByValue | removeByValueList => exact hvalue.bind fun v => .refl _
  | _ => exact .refl _

theorem evaluate_asRead (entries : Dict String Value) (op : MapOperation) (h : op.geoless) :
    SameOrLacks op.nilFields (map entries op.asRead) (map entries op) := by
  have ho := sentOperands h
  have hs := select_asRead entries op ho
  obtain ⟨hkey, hvalue, -, -⟩ := ho
  obtain ⟨kind, bin, key, value, start, stop, index, rank, count, returnType, policy⟩ := op
  cases kind with
  | setPolicy | clear | size => exact .refl _
  | put =>
    refine hkey.bind fun k => SameOrLacks.bind (.refl _) fun k => ?_
    exact hvalue.bind fun v => .refl _
  | putItems => exact hvalue.bind fun v => .refl _
  | increment | decrement =>
    refine hkey.bind fun k => SameOrLacks.bind (.refl _) fun k => ?_
    exact hvalue.bind fun v => .refl _
  | _ => exact hs.bind fun found => .refl _

end MapOperation

namespace Evaluated.SameOrLacks
variable {α : Type} {names : List String}

/-- What is run inside a bin decides about the outcome outside. -/
theorem collection (p : Progress) (bin : String) (isWrite : Bool) (empty : α)
    (inside? : Value → Option α) (wrap : α → Value) {run run' : α → Evaluated (α × Option Value)}
    (h : ∀ a, SameOrLacks names (run a) (run' a)) :
    SameOrLacks names
      ((Evaluation.collection bin isWrite empty inside? wrap run).outcome p)
      ((Evaluation.collection bin isWrite empty inside? wrap run').outcome p) := by
  rw [outcome_collection, outcome_collection]
  cases Dict.get? p.bins bin with
  | none =>
    cases isWrite with
    | false => exact refl _
    | true => exact SameOrLacks.map (h empty) _
  | some v =>
    dsimp only
    cases inside? v with
    | none => exact refl _
    | some a => exact SameOrLacks.map (h a) _

end Evaluated.SameOrLacks

namespace Operation

def geoless : Operation → Bool
  | scalar op => op.geoless
  | list op => op.geoless
  | map op => op.geoless

/-- The names of the operands that are nils. -/
def nilFields : Operation → List String
  | scalar op => op.nilFields
  | list op => op.nilFields
  | map op => op.nilFields

theorem step_asRead (p : Progress) (op : Operation) (h : op.geoless) :
    SameOrLacks op.nilFields (step p op.asRead) (step p op) := by
  cases op with
  | scalar op => exact op.evaluate_asRead p h
  | list op => exact .collection _ _ _ _ _ _ fun xs => op.evaluate_asRead xs h
  | map op => exact .collection _ _ _ _ _ _ fun entries => op.evaluate_asRead entries h

/-- The induction is on the operations, from the progress with which they start: the ones before
the first that lacks an operand have done what they did. -/
theorem foldlM_step_asRead (ops : List Operation) (h : ∀ op ∈ ops, op.geoless) (p : Progress) :
    (ops.map asRead).foldlM step p = ops.foldlM step p ∨
      ∃ before op after p' name, ops = before ++ op :: after ∧ before.foldlM step p = .ok p' ∧
        name ∈ op.nilFields ∧ (ops.map asRead).foldlM step p = required name none := by
  induction ops generalizing p with
  | nil => exact .inl rfl
  | cons op rest ih =>
    obtain ⟨hop, hrest⟩ := List.forall_mem_cons.mp h
    rw [List.map_cons, List.foldlM_cons, List.foldlM_cons]
    rcases op.step_asRead p hop with hstep | ⟨name, hname, hstep⟩
    · rw [hstep]
      cases hs : step p op with
      | error e => exact .inl rfl
      | ok p' =>
        refine (ih hrest p').imp_right ?_
        rintro ⟨before, op', after, p'', name, rfl, hbefore, hname, hlacks⟩
        refine ⟨op :: before, op', after, p'', name, rfl, ?_, hname, hlacks⟩
        rw [List.foldlM_cons, hs]
        exact hbefore
    · right
      refine ⟨[], op, rest, p, name, rfl, rfl, hname, ?_⟩
      rw [hstep]
      rfl

end Operation

/-- Operations without geographic texts are decoded from what they are encoded to. On the bins
of any record they do what they did before, or all goes as before up to an operation with a nil
operand, which is now missing. -/
theorem sent_operations_evaluate (ops : List Operation) (hg : ∀ op ∈ ops, op.geoless)
    (ho : ∀ op ∈ ops, op.isOrdered) (hs : (toDoc ops).isShort)
    (hn : (toDoc ops).nesting ≤ Wire.Packed.depthLimit) :
    ∃ decoded : List Operation, unpack? (pack ops) = some decoded ∧
      ∀ bins, run bins decoded = run bins ops ∨
        ∃ before op after p name, ops = before ++ op :: after ∧ run bins before = .ok p ∧
          name ∈ op.nilFields ∧ run bins decoded = required name none := by
  refine ⟨_, Codec.unpack?_pack ops ho hs hn, fun bins => ?_⟩
  simp only [run_eq_foldlM]
  exact Operation.foldlM_step_asRead ops hg ⟨bins, [], none⟩

/-- Counts the entries from a key on, up to another one or without end. -/
def countFrom (stop : Value) : List Operation := [.mapGetByKeyRange "m" (.string "a") stop .count]

/-- A closed range is what it was after it has been sent; an open one lacks its end. -/
theorem sent_operations_evaluate_ranges :
    (∃ decoded : List Operation, unpack? (pack (countFrom (.string "c"))) = some decoded ∧
      ∀ bins, run bins decoded = run bins (countFrom (.string "c"))) ∧
    ∃ decoded : List Operation, unpack? (pack (countFrom .nil)) = some decoded ∧
      run [("m", .map [("b", .int 7)])] decoded
        = .error (.new .requestInvalid "missing operation field 'end'") ∧
      run [("m", .map [("b", .int 7)])] (countFrom .nil)
        = .ok ⟨[("m", .map [("b", .int 7)])], [("m", .int 1)], none⟩ := by
  constructor
  · obtain ⟨decoded, hd, h⟩ := sent_operations_evaluate (countFrom (.string "c")) (by decide)
      (by decide) (by decide) (by decide)
    refine ⟨decoded, hd, fun bins => (h bins).resolve_right ?_⟩
    rintro ⟨before, op, after, p, name, hsplit, -, hname, -⟩
    have hop : op ∈ countFrom (.string "c") := by
      rw [hsplit]
      exact List.mem_append_right _ List.mem_cons_self
    rw [countFrom, List.mem_singleton] at hop
    rw [hop] at hname
    cases hname
  · exact ⟨_, Codec.unpack?_pack (countFrom .nil) (by decide) (by decide) (by decide), rfl, rfl⟩

end RecordDb
