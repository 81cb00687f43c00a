/-!
# Sorting short lists

Sorting by a test of two elements that says whether the first has to come before the second;
elements of which neither has to keep their order. For a consistent test every stable sort has one
result. For one that is not, as with a value equal to all others, the result depends on which pairs
are tested, so each step here fixes its pairs. This module sorts short lists.
-/
namespace RecordDb.Sorting

variable {α : Type} (before : α → α → Bool)

/-- Puts an element into a descending list, in front of the first one that it does not
come before. -/
def place (a : α) : List α → List α
  | [] => [a]
  | b :: rest => if before a b then b :: place a rest else a :: b :: rest

/-- Puts the elements of a list into a sorted one, one after the other. -/
def insertAll (done rest : List α) : List α :=
  (rest.foldl (fun descending a => place before a descending) done.reverse).reverse

/-- Merges two sorted lists, the first `n` elements from the front and the rest from the
back. -/
def weave : Nat → List α → List α → List α
  | 0, left, right => (left.reverse.merge right.reverse fun a b => before b a).reverse
  | _ + 1, [], right => right
  | _ + 1, left, [] => left
  | n + 1, a :: left, b :: right =>
    if before b a then b :: weave n (a :: left) right else a :: weave n left (b :: right)

/-- Sorts four elements with five tests. -/
def sortFour : List α → List α
  | [p, q, r, s] =>
    let (a, b) := if before q p then (q, p) else (p, q)
    let (c, d) := if before s r then (s, r) else (r, s)
    match before c a, before d b with
    | false, false => if before c b then [a, c, b, d] else [a, b, c, d]
    | false, true => [a, c, d, b]
    | true, false => [c, a, b, d]
    | true, true => if before d a then [c, d, a, b] else [c, a, d, b]
  | xs => xs

def sortEight (xs : List α) : List α :=
  weave before 4 (sortFour before (xs.take 4)) (sortFour before (xs.drop 4))

/-- Sorts one half of a list of `n` elements: its first four or eight together, if `n` is
large enough for that, and the others by insertion. -/
def sortHalf (n : Nat) (half : List α) : List α :=
  if n < 8 then insertAll before [] half
  else if n < 16 then insertAll before (sortFour before (half.take 4)) (half.drop 4)
  else insertAll before (sortEight before (half.take 8)) (half.drop 8)

/-- The most elements that are sorted as a short list. -/
def shortLength : Nat := 32

/-- Sorts a short list by its halves, which are merged from both ends at once. -/
def sortShort (xs : List α) : List α :=
  let middle := xs.length / 2
  weave before middle (sortHalf before xs.length (xs.take middle))
    (sortHalf before xs.length (xs.drop middle))

end RecordDb.Sorting
