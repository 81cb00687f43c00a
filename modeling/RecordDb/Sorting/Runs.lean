import RecordDb.Sorting.Short

/-!
# Sorting by runs

A list is cut into stretches that are already in order, or short enough to be put in order, and
neighbouring stretches are merged, the smaller ones first.
-/
namespace RecordDb.Sorting

variable {α : Type} (before : α → α → Bool)

/-- A stretch of a list; one that is not sorted yet waits for a neighbour that is. -/
structure Run (α : Type) where
  items : List α
  sorted : Bool

/-- The elements that carry on a chain after its last one. -/
def chain (next : α → α → Bool) : α → List α → List α
  | a, b :: rest => if next a b then b :: chain next b rest else []
  | _, [] => []

/-- The longest start of a list that is in order, put upright if it strictly descends. -/
def ordered : List α → List α
  | a :: b :: rest =>
    if before b a then (a :: chain (fun x y => before y x) a (b :: rest)).reverse
    else a :: chain (fun x y => !before y x) a (b :: rest)
  | xs => xs

/-- The length from which a stretch of a list of `n` elements is kept as it is found: at
most 64 for a moderate list, about the square root for a long one. -/
def leastRun (n : Nat) : Nat :=
  if n ≤ 4096 then min (n - n / 2) 64
  else
    let k := (1 + n.log2) / 2
    ((1 <<< k) + (n >>> k)) / 2

/-- The first run of a list. Where none is found, `eager` sorts a short one at once. -/
def firstRun (eager : Bool) (least : Nat) (xs : List α) : Run α :=
  let found := ordered before xs
  if least ≤ found.length then ⟨found, true⟩
  else if eager then ⟨sortShort before (xs.take shortLength), true⟩
  else ⟨xs.take least, false⟩

def runs (eager : Bool) (least : Nat) : List α → List (Run α)
  | [] => []
  | a :: rest =>
    let run := firstRun before eager least (a :: rest)
    run :: runs eager least (rest.drop (run.items.length - 1))
termination_by xs => xs.length
decreasing_by simp only [List.length_drop, List.length_cons]; omega

/-- The level of the border between two neighbouring runs of a list of `n` elements: the
depth of the first point of a repeated halving that separates their middles. -/
def level (n start middle stop : Nat) : Nat :=
  let scale := (0x4000000000000000 + n - 1) / n
  63 - ((scale * (start + middle)) ^^^ (scale * (middle + stop))).log2

section Merging
variable (finish : List α → List α)

/-- The elements of a run in order; `finish` sorts what is not sorted yet. -/
def Run.settle (run : Run α) : List α := if run.sorted then run.items else finish run.items

/-- Two neighbours as one run. The merge starts at the end of the shorter one. -/
def Run.join (left right : Run α) : Run α :=
  if left.sorted || right.sorted then
    let l := left.settle finish
    let r := right.settle finish
    ⟨weave before (if l.length ≤ r.length then l.length + r.length else 0) l r, true⟩
  else ⟨left.items ++ right.items, false⟩

/-- Joins a run with the pending ones before it whose border has at least this level. -/
def collapse (level : Nat) : List (Run α × Nat) → Run α → List (Run α × Nat) × Run α
  | [], run => ([], run)
  | (left, border) :: pending, run =>
    if level ≤ border then collapse level pending (left.join before finish run)
    else ((left, border) :: pending, run)

/-- Joins the runs of a list of `n` elements, the last of which starts at `start`. -/
def joinRuns (n : Nat) (pending : List (Run α × Nat)) (last : Run α) (start : Nat) :
    List (Run α) → List α
  | [] => (collapse before finish 0 pending last).2.settle finish
  | next :: rest =>
    let middle := start + last.items.length
    let border := level n start middle (middle + next.items.length)
    let (pending, joined) := collapse before finish border pending last
    joinRuns n ((joined, border) :: pending) next middle rest

def sortRuns (eager : Bool) (xs : List α) : List α :=
  match runs before eager (leastRun xs.length) xs with
  | [] => []
  | first :: rest => joinRuns before finish xs.length [] first 0 rest

end Merging

/-- Sorts by runs that are each sorted at once. -/
def sortEagerly : List α → List α := sortRuns before (sortShort before) true

end RecordDb.Sorting
