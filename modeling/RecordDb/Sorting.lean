import RecordDb.Sorting.Runs

/-!
# Stable sorting

The sort of any list is stable: short ones are sorted by insertion, middling ones by runs that are
each sorted at once, long ones by runs, where the stretches without order are sorted by splitting.
-/
namespace RecordDb.Sorting

variable {α : Type} (before : α → α → Bool)

def median (a b c : α) : α :=
  if before a b == before a c then
    if before b c == before a b then b else c
  else a

/-- A likely middle of the first `n` elements of a list: the median of three samples, each
taken from an eighth of them in the same way. -/
def sample (n : Nat) (xs : List α) : Option α :=
  if _few : n < 8 then xs.head?
  else do
    let eighth := n / 8
    let a ← sample eighth xs
    let b ← sample eighth (xs.drop (4 * eighth))
    let c ← sample eighth (xs.drop (7 * eighth))
    return median before a b c
termination_by n

/-- Sorts by splitting at a sample. Where nothing comes before the sample, or the last
sample on the left, `floor`, does not, its equals are split off and done with. After too
many splits the rest is sorted by runs. -/
def sortSplitting : Nat → Option α → List α → List α
  | depth, floor, xs =>
    if xs.length ≤ shortLength then sortShort before xs
    else
      match depth, sample before xs.length xs with
      | 0, _ | _, none => sortEagerly before xs
      | depth + 1, some pivot =>
        let (lower, upper) := xs.partition fun x => before x pivot
        if lower.isEmpty || floor.any fun f => !before f pivot then
          let (same, above) := xs.partition fun x => !before pivot x
          same ++ sortSplitting depth none above
        else sortSplitting depth floor lower ++ sortSplitting depth (some pivot) upper

def sort (xs : List α) : List α :=
  if xs.length ≤ 20 then insertAll before [] xs
  else if xs.length ≤ 64 then sortEagerly before xs
  else sortRuns before (fun part => sortSplitting before (2 * part.length.log2) none part) false xs

end RecordDb.Sorting
