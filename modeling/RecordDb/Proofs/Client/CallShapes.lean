import Mathlib.Data.List.Forall2
import RecordDb.Client.Arguments

/-!
# Which argument lists fit a call

An argument takes the first slot that is left and fits it, and never gives one back; since this
leaves more slots than any other choice, it finds a place for all arguments whenever there is one.
-/
namespace RecordDb.CallArgument
variable {π κ : Type}

/-- A slot that an argument may take: one of its own kind, or any slot for an absent one. -/
def Fits : CallArgument π κ → Slot → Prop
  | absent, _ => True
  | metadata _, slot => slot = .metadata
  | policy _, slot => slot = .policy
  | callback _, _ => False

/-- The arguments can be given places in a shape, each one further on than the one before. -/
def Seated (shape : Shape) (args : List (CallArgument π κ)) : Prop :=
  ∃ places : List (Fin shape.length), places.Pairwise (· < ·) ∧
    List.Forall₂ (fun arg place => arg.Fits shape[place]) args places

def metadata? : CallArgument π κ → Option Metadata
  | metadata m => some m
  | _ => none

def policy? : CallArgument π κ → Option π
  | policy p => some p
  | _ => none

theorem seated_iff_sublist {shape : Shape} {args : List (CallArgument π κ)} :
    Seated shape args ↔ ∃ taken : Shape, taken.Sublist shape ∧ List.Forall₂ Fits args taken := by
  constructor
  · rintro ⟨places, hplaces, hfits⟩
    refine ⟨places.map fun place => shape[place], List.map_getElem_sublist hplaces, ?_⟩
    exact List.forall₂_map_right_iff.mpr hfits
  · rintro ⟨taken, htaken, hfits⟩
    obtain ⟨places, rfl, hplaces⟩ := List.sublist_eq_map_getElem htaken
    exact ⟨places, hplaces, List.forall₂_map_right_iff.mp hfits⟩

theorem skipTo?_of_sublist {slot : Slot} {taken shape : Shape}
    (h : (slot :: taken).Sublist shape) :
    ∃ left, skipTo? slot shape = some left ∧ taken.Sublist left := by
  induction shape with
  | nil => cases h
  | cons s rest ih =>
    rw [skipTo?]
    split
    · exact ⟨rest, rfl, h.tail⟩
    · rename_i hs
      cases h with
      | cons _ h => exact ih h
      | cons_cons => exact absurd rfl hs

theorem sublist_of_skipTo? {slot : Slot} {left shape : Shape}
    (h : skipTo? slot shape = some left) : (slot :: left).Sublist shape := by
  induction shape with
  | nil => cases h
  | cons s rest ih =>
    rw [skipTo?] at h
    split at h
    · rename_i hs
      cases h
      rw [hs]
    · exact (ih h).cons s

/-- Whatever slot an argument could take, the one that it does take is no later, so all that could
be taken after the one is left after the other. -/
theorem take?_of_sublist {arg : CallArgument π κ} {slot : Slot} {taken shape : Shape}
    (hfits : arg.Fits slot) (h : (slot :: taken).Sublist shape) :
    ∃ left, take? shape arg = some left ∧ taken.Sublist left := by
  cases arg with
  | absent =>
    cases shape with
    | nil => cases h
    | cons s rest => exact ⟨rest, rfl, h.tail⟩
  | metadata m =>
    cases hfits
    exact skipTo?_of_sublist h
  | policy p =>
    cases hfits
    exact skipTo?_of_sublist h
  | callback c => cases hfits

theorem fits_of_take? {arg : CallArgument π κ} {left shape : Shape}
    (h : take? shape arg = some left) : ∃ slot, arg.Fits slot ∧ (slot :: left).Sublist shape := by
  cases arg with
  | absent =>
    cases shape with
    | nil => cases h
    | cons s rest =>
      cases h
      exact ⟨s, trivial, .refl _⟩
  | metadata m => exact ⟨.metadata, rfl, sublist_of_skipTo? h⟩
  | policy p => exact ⟨.policy, rfl, sublist_of_skipTo? h⟩
  | callback c => cases h

theorem seated_nil (shape : Shape) : Seated shape ([] : List (CallArgument π κ)) :=
  ⟨[], .nil, .nil⟩

theorem seated_cons {shape : Shape} {arg : CallArgument π κ} {rest : List (CallArgument π κ)} :
    Seated shape (arg :: rest) ↔ ∃ left, take? shape arg = some left ∧ Seated left rest := by
  simp only [seated_iff_sublist]
  constructor
  · rintro ⟨_, hsub, hfits⟩
    obtain ⟨slot, taken, harg, hrest, rfl⟩ := List.forall₂_cons_left_iff.mp hfits
    obtain ⟨left, hleft, htaken⟩ := take?_of_sublist harg hsub
    exact ⟨left, hleft, taken, htaken, hrest⟩
  · rintro ⟨left, hleft, taken, htaken, hrest⟩
    obtain ⟨slot, harg, hsub⟩ := fits_of_take? hleft
    exact ⟨slot :: taken, (htaken.cons_cons slot).trans hsub, .cons harg hrest⟩

theorem callback_not_mem_of_seated {shape : Shape} {args : List (CallArgument π κ)}
    (h : Seated shape args) (c : κ) : callback c ∉ args := by
  induction args generalizing shape with
  | nil => exact List.not_mem_nil
  | cons arg rest ih =>
    obtain ⟨left, hleft, hrest⟩ := seated_cons.mp h
    rw [List.mem_cons, not_or]
    refine ⟨?_, ih hrest⟩
    rintro rfl
    cases hleft

/-- A call with some more arguments taken in, of which the last of each kind counts. -/
def supplied (done : CallArguments π κ) (args : List (CallArgument π κ)) : CallArguments π κ :=
  ⟨(args.filterMap metadata?).getLast?.or done.metadata,
    (args.filterMap policy?).getLast?.or done.policy, done.callback⟩

theorem supplied_metadata (done : CallArguments π κ) (m : Metadata)
    (rest : List (CallArgument π κ)) :
    supplied done (metadata m :: rest) = supplied { done with metadata := some m } rest := by
  cases h : (rest.filterMap metadata?).getLast? <;>
    simp [supplied, metadata?, policy?, List.getLast?_cons, h]

theorem supplied_policy (done : CallArguments π κ) (p : π) (rest : List (CallArgument π κ)) :
    supplied done (policy p :: rest) = supplied { done with policy := some p } rest := by
  cases h : (rest.filterMap policy?).getLast? <;>
    simp [supplied, metadata?, policy?, List.getLast?_cons, h]

theorem fill_eq_ok_iff {shape : Shape} {args : List (CallArgument π κ)}
    {done n : CallArguments π κ} :
    fill done shape args = .ok n ↔ Seated shape args ∧ n = supplied done args := by
  induction args generalizing shape done with
  | nil => simp [fill, seated_nil, supplied, eq_comm]
  | cons arg rest ih =>
    rw [fill, seated_cons]
    cases h : take? shape arg with
    | none => simp
    | some left =>
      cases arg with
      | absent => simp [ih, supplied, metadata?, policy?]
      | metadata m => simp [ih, supplied_metadata]
      | policy p => simp [ih, supplied_policy]
      | callback c => cases h

theorem fill_eq_error {done : CallArguments π κ} {slots : Shape} {args : List (CallArgument π κ)}
    {e : Error} (h : fill done slots args = .error e) : ∃ message, e = .callShape message := by
  induction args generalizing done slots with
  | nil => cases h
  | cons arg rest ih =>
    rw [fill] at h
    split at h
    · cases h
      exact ⟨_, rfl⟩
    · split at h <;> exact ih h

theorem normalize_eq_error {shape : Shape} {args : List (CallArgument π κ)} {e : Error}
    (h : normalize shape args = .error e) : ∃ message, e = .callShape message := by
  rw [normalize] at h
  split at h
  · cases h
    exact ⟨_, rfl⟩
  · exact fill_eq_error h
  · cases h
    exact ⟨_, rfl⟩

theorem eq_absent_of_isAbsent {arg : CallArgument π κ} (h : arg.isAbsent = true) :
    arg = absent := by
  cases arg with
  | absent => rfl
  | _ => cases h

theorem reverse_dropTrailingAbsent (args : List (CallArgument π κ)) :
    (dropTrailingAbsent args).reverse = args.reverse.dropWhile isAbsent := by
  rw [dropTrailingAbsent, List.reverse_reverse]

/-- All that comes after the last argument that is not absent is absent. -/
theorem eq_of_reverse_dropTrailingAbsent {args before : List (CallArgument π κ)}
    {last : CallArgument π κ} (h : (dropTrailingAbsent args).reverse = last :: before) :
    ∃ holes, args = before.reverse ++ last :: List.replicate holes absent := by
  rw [reverse_dropTrailingAbsent] at h
  have hholes : args.reverse.takeWhile isAbsent =
      List.replicate (args.reverse.takeWhile isAbsent).length absent :=
    List.eq_replicate_of_mem fun arg harg =>
      eq_absent_of_isAbsent (List.all_eq_true.mp List.all_takeWhile arg harg)
  refine ⟨(args.reverse.takeWhile isAbsent).length, ?_⟩
  calc args
      = (args.reverse.takeWhile isAbsent ++ last :: before).reverse := by
        rw [← h, List.takeWhile_append_dropWhile, List.reverse_reverse]
    _ = before.reverse ++ last :: (args.reverse.takeWhile isAbsent).reverse := by
        rw [List.reverse_append, List.reverse_cons, List.append_assoc, List.singleton_append]
    _ = before.reverse ++
          last :: List.replicate (args.reverse.takeWhile isAbsent).length absent := by
        rw [congrArg List.reverse hholes, List.reverse_replicate]

theorem reverse_dropTrailingAbsent_append (before : List (CallArgument π κ)) (c : κ)
    (holes : Nat) :
    (dropTrailingAbsent (before ++ callback c :: List.replicate holes absent)).reverse =
      callback c :: before.reverse := by
  have hholes : ∀ arg ∈ List.replicate holes (absent : CallArgument π κ), arg.isAbsent = true := by
    intro arg harg
    rw [List.eq_of_mem_replicate harg]
    rfl
  rw [reverse_dropTrailingAbsent, List.reverse_append, List.reverse_cons, List.reverse_replicate,
    List.append_assoc, List.dropWhile_append_of_pos hholes]
  rfl

theorem normalize_append (shape : Shape) (before : List (CallArgument π κ)) (c : κ) (holes : Nat) :
    normalize shape (before ++ callback c :: List.replicate holes absent) =
      fill ⟨none, none, c⟩ shape before := by
  rw [normalize, reverse_dropTrailingAbsent_append]
  dsimp only
  rw [List.reverse_reverse]

/-- The arguments of a call fit its shape exactly if they are, absent ones at the end apart, a
callback after arguments that can be given places in the shape. The last metadata and the last
policy among those count then, and in any other case the caller gets a type error. -/
theorem normalize_accepts_exactly (shape : Shape) (args : List (CallArgument π κ)) :
    (∀ n, normalize shape args = .ok n ↔
      ∃ before holes, args = before ++ callback n.callback :: List.replicate holes absent ∧
        (∀ c, callback c ∉ before) ∧ Seated shape before ∧
        n.metadata = (before.filterMap metadata?).getLast? ∧
        n.policy = (before.filterMap policy?).getLast?) ∧
    ((∃ n, normalize shape args = .ok n) ∨
      ∃ message, normalize shape args = .error (.callShape message)) := by
  refine ⟨fun n => ⟨fun h => ?_, ?_⟩, ?_⟩
  · rw [normalize] at h
    split at h
    · cases h
    · rename_i c before hlast
      obtain ⟨hseated, rfl⟩ := fill_eq_ok_iff.mp h
      obtain ⟨holes, hargs⟩ := eq_of_reverse_dropTrailingAbsent hlast
      exact ⟨before.reverse, holes, hargs, callback_not_mem_of_seated hseated, hseated,
        Option.or_none, Option.or_none⟩
    · cases h
  · rintro ⟨before, holes, rfl, -, hseated, hm, hp⟩
    rw [normalize_append, fill_eq_ok_iff]
    refine ⟨hseated, ?_⟩
    rw [supplied, Option.or_none, Option.or_none, ← hm, ← hp]
  · cases h : normalize shape args with
    | ok n => exact .inl ⟨n, rfl⟩
    | error e =>
      obtain ⟨message, rfl⟩ := normalize_eq_error h
      exact .inr ⟨message, rfl⟩

end RecordDb.CallArgument
