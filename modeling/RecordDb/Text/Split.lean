/-!
# Cutting texts

A text is cut at all separators, at the first one, at the last one or into lines.
-/
namespace RecordDb.Text

/-- The parts between the separators, one more than there are separators. -/
def splitAll (sep : Char) : List Char → List (List Char)
  | [] => [[]]
  | c :: rest =>
    if c = sep then [] :: splitAll sep rest
    else match splitAll sep rest with
      | [] => [[c]]
      | part :: parts => (c :: part) :: parts

theorem splitAll_ne_nil (sep : Char) (cs : List Char) : splitAll sep cs ≠ [] := by
  induction cs with
  | nil => simp [splitAll]
  | cons c rest ih =>
    by_cases h : c = sep
    · simp [splitAll, h]
    · cases hs : splitAll sep rest with
      | nil => exact absurd hs ih
      | cons part parts => simp [splitAll, h, hs]

/-- The text before and after the first separator. -/
def splitFirst? (sep : Char) : List Char → Option (List Char × List Char)
  | [] => none
  | c :: rest =>
    if c = sep then some ([], rest)
    else (splitFirst? sep rest).map fun (before, after) => (c :: before, after)

/-- The text before and after the last separator. -/
def splitLast? (sep : Char) : List Char → Option (List Char × List Char)
  | [] => none
  | c :: rest =>
    match splitLast? sep rest with
    | some (before, after) => some (c :: before, after)
    | none => if c = sep then some ([], rest) else none

/-- A line ending loses its carriage return. -/
def dropReturn : List Char → List Char
  | [] => []
  | ['\r'] => []
  | c :: rest => c :: dropReturn rest

/-- The parts at newlines; a carriage return before a newline belongs to the ending, one
at the end of the text does not. -/
def lines (cs : List Char) : List (List Char) :=
  let parts := splitAll '\n' cs
  parts.dropLast.map dropReturn ++ parts.getLast?.toList

end RecordDb.Text
