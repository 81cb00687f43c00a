import RecordDb.Operation.Evaluation
import RecordDb.Proofs.Dict.Ascending

/-!
# Sequences of writes

Writes inside the collection of one bin, one after the other. Each finds what the one before it
has left, so that they come to one write that takes all their steps.
-/
namespace RecordDb.Evaluation

open Evaluated

/-- A step inside a collection whose result, if it has one, is made of what it leaves. -/
def finishing {α : Type} (result? : Option (α → Value)) (next : α → Evaluated α) (a : α) :
    Evaluated (α × Option Value) :=
  (next a).map fun left => (left, result?.map (· left))

/-- What a write inside a collection starts from. -/
def contents {α : Type} (bins : Bins) (bin : String) (empty : α) (inside? : Value → Option α) :
    Evaluated α :=
  match Dict.get? bins bin with
  | none => .ok empty
  | some v =>
    match inside? v with
    | none => incompatible bin
    | some a => .ok a

theorem eq_of_contents_eq_ok {α : Type} {bins : Bins} {bin : String} {empty a : α}
    {inside? : Value → Option α} (h : contents bins bin empty inside? = .ok a) :
    (Dict.get? bins bin = none ∧ a = empty) ∨
      ∃ v, Dict.get? bins bin = some v ∧ inside? v = some a := by
  rw [contents] at h
  cases hget : Dict.get? bins bin with
  | none =>
    rw [hget] at h
    cases h
    exact .inl ⟨rfl, rfl⟩
  | some v =>
    rw [hget] at h
    dsimp only at h
    cases hinside : inside? v with
    | none =>
      rw [hinside] at h
      cases h
    | some b =>
      rw [hinside] at h
      cases h
      exact .inr ⟨v, rfl, hinside⟩

section Progress

variable {v v' : Value} {result result' : Option Value}

theorem bins_written (p : Progress) (bin : String) (v : Value) (result : Option Value) :
    (p.written bin v result).bins = Dict.insert p.bins bin v := by
  cases result <;> rfl

/-- The second write of a bin hides the first, if both or none have a result. -/
theorem written_written (p : Progress) (bin : String) (h : result = none ↔ result' = none) :
    (p.written bin v result).written bin v' result' = p.written bin v' result' := by
  cases result with
  | none =>
    cases h.mp rfl
    simp only [Progress.written, Progress.record, Dict.insert_insert]
  | some r =>
    cases result' with
    | none => cases h.mpr rfl
    | some r' => simp only [Progress.written, Progress.record, Dict.insert_insert]

end Progress

section Collections

variable {α β : Type} {bin : String} {empty : α} {inside? : Value → Option α} {wrap : α → Value}
  {result? : Option (α → Value)} {next : β → α → Evaluated α}

theorem collection_write (p : Progress) (run : α → Evaluated (α × Option Value)) :
    (collection bin true empty inside? wrap run).outcome p =
      contents p.bins bin empty inside? >>= fun a =>
        (run a).map fun done => p.written bin (wrap done.1) done.2 := by
  rw [outcome_collection, contents]
  cases Dict.get? p.bins bin with
  | none => rfl
  | some v =>
    dsimp only
    cases inside? v <;> rfl

variable (hinside : ∀ a, inside? (wrap a) = some a)
include hinside

/-- Two steps inside a collection, each as a write of its own. -/
theorem collection_bind (p : Progress) (first second : α → Evaluated α) :
    ((collection bin true empty inside? wrap (finishing result? first)).outcome p >>= fun p =>
      (collection bin true empty inside? wrap (finishing result? second)).outcome p) =
    (collection bin true empty inside? wrap
      (finishing result? fun a => first a >>= second)).outcome p := by
  simp only [collection_write]
  cases contents p.bins bin empty inside? with
  | error e => rfl
  | ok a =>
    simp only [bind, Except.bind, finishing]
    cases first a with
    | error e => rfl
    | ok b =>
      have hcontents : contents (p.written bin (wrap b) (result?.map (· b))).bins bin empty inside?
          = .ok b := by
        rw [contents, bins_written, Dict.get?_insert_self]
        dsimp only
        rw [hinside]
      simp only [Except.map, hcontents]
      cases second b with
      | error e => rfl
      | ok c =>
        refine congrArg Except.ok (written_written p bin ?_)
        simp

/-- Steps inside a collection, each as a write of its own, by induction on the later ones. -/
theorem collection_foldlM (p : Progress) (first : α → Evaluated α) (rest : List β) :
    ((collection bin true empty inside? wrap (finishing result? first)).outcome p >>= fun p =>
      rest.foldlM (fun p b =>
        (collection bin true empty inside? wrap (finishing result? (next b))).outcome p) p) =
    (collection bin true empty inside? wrap (finishing result? fun a =>
      first a >>= fun a => rest.foldlM (fun a b => next b a) a)).outcome p := by
  induction rest generalizing first with
  | nil =>
    simp only [List.foldlM_nil, bind_pure]
  | cons b rest ih =>
    simp only [List.foldlM_cons, ← bind_assoc]
    rw [collection_bind hinside]
    exact ih fun a => first a >>= next b

/-- An operation does what a sequence of others does, if inside the collection it does what their
steps do. -/
theorem run_eq_sequence {bulk : Operation} {single : β → Operation}
    {whole : α → Evaluated (α × Option Value)} {bins : Bins} {items : List β} (hne : items ≠ [])
    (hbulk : perform bulk = collection bin true empty inside? wrap whole)
    (hsingle : ∀ b, perform (single b)
      = collection bin true empty inside? wrap (finishing result? (next b)))
    (hwhole : ∀ a, contents bins bin empty inside? = .ok a →
      whole a = finishing result? (fun a => items.foldlM (fun a b => next b a) a) a) :
    run bins [bulk] = run bins (items.map single) := by
  obtain ⟨b, rest, rfl⟩ := List.exists_cons_of_ne_nil hne
  have hsequence : run bins ((b :: rest).map single) =
      (collection bin true empty inside? wrap (finishing result? fun a =>
        (b :: rest).foldlM (fun a b => next b a) a)).outcome ⟨bins, [], none⟩ := by
    rw [run_eq_foldlM, List.foldlM_map, List.foldlM_cons]
    simp only [step, hsingle]
    exact collection_foldlM hinside _ (next b) rest
  have hone : run bins [bulk]
      = (collection bin true empty inside? wrap whole).outcome ⟨bins, [], none⟩ := by
    rw [run_eq_foldlM, List.foldlM_cons]
    simp only [List.foldlM_nil, bind_pure, step, hbulk]
  rw [hone, hsequence, collection_write, collection_write]
  cases hstart : contents bins bin empty inside? with
  | error e => rfl
  | ok a =>
    simp only [bind, Except.bind]
    rw [hwhole a hstart]

end Collections

section Sequences

variable {β : Type} {bins : Bins} (bin : String) {items : List β}

/-- An operation inside a list does what a sequence of others does. -/
theorem run_lists (op : ListOperation) (single : β → ListOperation)
    (next : β → List Value → Evaluated (List Value)) {result? : Option (List Value → Value)}
    (hne : items ≠ []) (hop : op.bin = bin ∧ op.kind.isWrite)
    (hsingle : ∀ b, (single b).bin = bin ∧ (single b).kind.isWrite)
    (hnext : ∀ b xs, list xs (single b) = finishing result? (next b) xs)
    (hwhole : ∀ xs, contents bins bin [] Value.asList? = .ok xs →
      list xs op = finishing result? (fun xs => items.foldlM (fun xs b => next b xs) xs) xs) :
    run bins [.list op] = run bins (items.map fun b => .list (single b)) := by
  have hinside : ∀ xs, Value.asList? (.list xs) = some xs := fun _ => rfl
  apply run_eq_sequence hinside hne _ _ hwhole
  · rw [perform, hop.1, hop.2]
  · intro b
    rw [perform, (hsingle b).1, (hsingle b).2]
    exact congrArg (collection bin true [] Value.asList? .list) (funext (hnext b))

/-- An operation inside a map does what a sequence of others does. -/
theorem run_maps (op : MapOperation) (single : β → MapOperation)
    (next : β → Dict String Value → Evaluated (Dict String Value))
    {result? : Option (Dict String Value → Value)}
    (hne : items ≠ []) (hop : op.bin = bin ∧ op.kind.isWrite)
    (hsingle : ∀ b, (single b).bin = bin ∧ (single b).kind.isWrite)
    (hnext : ∀ b entries, map entries (single b) = finishing result? (next b) entries)
    (hwhole : ∀ entries, contents bins bin [] mapEntries? = .ok entries → map entries op
      = finishing result? (fun entries => items.foldlM (fun entries b => next b entries) entries)
        entries) :
    run bins [.map op] = run bins (items.map fun b => .map (single b)) := by
  have hinside : ∀ entries, mapEntries? (.map entries) = some entries := fun _ => rfl
  apply run_eq_sequence hinside hne _ _ hwhole
  · rw [perform, hop.1, hop.2]
  · intro b
    rw [perform, (hsingle b).1, (hsingle b).2]
    exact congrArg (collection bin true [] mapEntries? .map) (funext (hnext b))

end Sequences

end RecordDb.Evaluation
