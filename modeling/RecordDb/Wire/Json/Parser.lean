import RecordDb.Wire.Json.Number

/-!
# Reading JSON texts

Texts are read as wire documents. What the grammar admits but no reader can take (a number out of
range, too deep a nesting) becomes an alien, which is an error only where it is needed. A string
with a lone surrogate or an unescaped control character is read as bytes alone, and with a control
it may not stand anywhere else.
-/
namespace RecordDb.Wire.Json

def isBlank (c : Char) : Bool := c = ' ' || c = '\n' || c = '\t' || c = '\r'

def skipBlanks (cs : List Char) : List Char := cs.dropWhile isBlank

def hexValue? (c : Char) : Option Nat :=
  if '0' ≤ c ∧ c ≤ '9' then some (c.toNat - '0'.toNat)
  else if 'a' ≤ c ∧ c ≤ 'f' then some (c.toNat - 'a'.toNat + 10)
  else if 'A' ≤ c ∧ c ≤ 'F' then some (c.toNat - 'A'.toNat + 10)
  else none

def hex4? (a b c d : Char) : Option Nat := do
  return (((← hexValue? a) * 16 + (← hexValue? b)) * 16 + (← hexValue? c)) * 16 + (← hexValue? d)

/-- The character that a one-letter escape stands for. -/
def escaped? : Char → Option Char
  | '"' => some '"'
  | '\\' => some '\\'
  | '/' => some '/'
  | 'b' => some '\x08'
  | 'f' => some '\x0c'
  | 'n' => some '\n'
  | 'r' => some '\r'
  | 't' => some '\t'
  | _ => none

/-- The code units of a string, and whether no control character stands in it unescaped. -/
structure StringText where
  units : List Nat
  clean : Bool

def StringText.cons (n : Nat) (t : StringText) : StringText := { t with units := n :: t.units }

/-- A string after its opening quote, and the text after it. -/
def string? : List Char → Option (StringText × List Char)
  | [] => none
  | '"' :: rest => some (⟨[], true⟩, rest)
  | '\\' :: 'u' :: a :: b :: c :: d :: rest =>
    match hex4? a b c d, string? rest with
    | some n, some (t, rest) => some (t.cons n, rest)
    | _, _ => none
  | '\\' :: e :: rest =>
    match escaped? e, string? rest with
    | some c, some (t, rest) => some (t.cons c.toNat, rest)
    | _, _ => none
  | c :: rest =>
    (string? rest).map fun (t, rest) =>
      (⟨c.toNat :: t.units, t.clean && 0x20 ≤ c.toNat⟩, rest)

def isHighSurrogate (n : Nat) : Bool := 0xd800 ≤ n && n < 0xdc00

def isLowSurrogate (n : Nat) : Bool := 0xdc00 ≤ n && n < 0xe000

/-- A high surrogate with a low one after it is one code point. -/
def codePoints : List Nat → List Nat
  | n :: m :: rest =>
    if isHighSurrogate n && isLowSurrogate m then
      (0x10000 + (n - 0xd800) * 0x400 + (m - 0xdc00)) :: codePoints rest
    else n :: codePoints (m :: rest)
  | units => units

/-- The bytes of a code point by the rule of UTF-8, also for a lone surrogate. -/
def codePointBytes (n : Nat) : List UInt8 :=
  let tail (n : Nat) : UInt8 := UInt8.ofNat (0x80 + n % 0x40)
  if n < 0x80 then [UInt8.ofNat n]
  else if n < 0x800 then [UInt8.ofNat (0xc0 + n / 0x40), tail n]
  else if n < 0x10000 then [UInt8.ofNat (0xe0 + n / 0x1000), tail (n / 0x40), tail n]
  else [UInt8.ofNat (0xf0 + n / 0x40000), tail (n / 0x1000), tail (n / 0x40), tail n]

def StringText.doc (t : StringText) : Doc :=
  let points := codePoints t.units
  if t.clean && points.all fun n => !isHighSurrogate n && !isLowSurrogate n then
    .text (String.ofList (points.map Char.ofNat))
  else .rawText (points.flatMap codePointBytes) t.clean

def isDigit (c : Char) : Bool := '0' ≤ c && c ≤ '9'

def digits (cs : List Char) : List Nat × List Char :=
  ((cs.takeWhile isDigit).map fun c => c.toNat - '0'.toNat, cs.dropWhile isDigit)

/-- The integer part: one zero, or digits that start with another one. -/
def whole? : List Char → Option (List Nat × List Char)
  | '0' :: rest => some ([0], rest)
  | cs =>
    match digits cs with
    | ([], _) => none
    | found => some found

/-- A point needs a digit after it. -/
def fraction? : List Char → Option (Option (List Nat) × List Char)
  | '.' :: rest =>
    match digits rest with
    | ([], _) => none
    | (ds, rest) => some (some ds, rest)
  | cs => some (none, cs)

def exponentDigits? (negative : Bool) (cs : List Char) :
    Option (Option (Bool × List Nat) × List Char) :=
  match digits cs with
  | ([], _) => none
  | (ds, rest) => some (some (negative, ds), rest)

def exponent? : List Char → Option (Option (Bool × List Nat) × List Char)
  | c :: rest =>
    if c = 'e' || c = 'E' then
      match rest with
      | '-' :: rest => exponentDigits? true rest
      | '+' :: rest => exponentDigits? false rest
      | rest => exponentDigits? false rest
    else some (none, c :: rest)
  | [] => some (none, [])

def number? (cs : List Char) : Option (NumberText × List Char) := do
  let (negative, cs) := match cs with
    | '-' :: rest => (true, rest)
    | cs => (false, cs)
  let (whole, cs) ← whole? cs
  let (fraction, cs) ← fraction? cs
  let (exponent, cs) ← exponent? cs
  return (⟨negative, whole, fraction, exponent⟩, cs)

/-- One or more items with commas between them, up to the closing character. -/
def items? {α : Type} (item : List Char → Option (α × List Char)) (close : Char) :
    (fuel : Nat) → List Char → Option (List α × List Char)
  | 0, _ => none
  | fuel + 1, cs =>
    match item cs with
    | none => none
    | some (a, rest) =>
      match skipBlanks rest with
      | [] => none
      | c :: rest =>
        if c = ',' then (items? item close fuel rest).map fun (as, rest) => (a :: as, rest)
        else if c = close then some ([a], rest)
        else none

/-- Items up to the closing character, none if it comes first. -/
def list? {α : Type} (item : List Char → Option (α × List Char)) (close : Char) (fuel : Nat)
    (cs : List Char) : Option (List α × List Char) :=
  match skipBlanks cs with
  | [] => none
  | c :: rest => if c = close then some ([], rest) else items? item close fuel (c :: rest)

/-- A name and its value. A name cannot hold a control character. -/
def field? (value : List Char → Option (Doc × List Char)) (cs : List Char) :
    Option ((Option String × Doc) × List Char) :=
  match skipBlanks cs with
  | '"' :: rest =>
    match string? rest with
    | none => none
    | some (name, rest) =>
      match name.clean, skipBlanks rest with
      | true, ':' :: rest => (value rest).map fun (d, rest) => ((name.doc.text?, d), rest)
      | _, _ => none
  | _ => none

/-- No reader accepts an object with a name that is no proper text. -/
def objDoc (fields : List (Option String × Doc)) : Option Doc :=
  match fields.mapM fun (k, d) => k.map (·, d) with
  | some fields => some (.obj fields)
  | none => if fields.all fun f => f.2.passable then some .alien else none

def limited (depth : Nat) (d : Doc) : Option Doc :=
  if 0 < depth then some d else if d.passable then some .alien else none

/-- One value in which `depth` containers may be nested; the fuel bounds the length of
the text. -/
def value? : (fuel depth : Nat) → List Char → Option (Doc × List Char)
  | 0, _, _ => none
  | fuel + 1, depth, cs =>
    match skipBlanks cs with
    | 'n' :: 'u' :: 'l' :: 'l' :: rest => some (.null, rest)
    | 't' :: 'r' :: 'u' :: 'e' :: rest => some (.bool true, rest)
    | 'f' :: 'a' :: 'l' :: 's' :: 'e' :: rest => some (.bool false, rest)
    | '"' :: rest => (string? rest).map fun (t, rest) => (t.doc, rest)
    | '[' :: rest =>
      (list? (value? fuel (depth - 1)) ']' fuel rest).bind fun (items, rest) =>
        (limited depth (.arr items)).map (·, rest)
    | '\x7b' :: rest =>
      (list? (field? (value? fuel (depth - 1))) '\x7d' fuel rest).bind fun (fields, rest) =>
        ((objDoc fields).bind (limited depth)).map (·, rest)
    | cs => (number? cs).map fun (n, rest) => (n.doc, rest)

/-- Containers that may be nested in one text. -/
def depthLimit : Nat := 127

/-- The document that a text holds, with nothing but blanks around it. -/
def parse? (text : String) : Option Doc :=
  let cs := text.toList
  match value? (cs.length + 1) depthLimit cs with
  | some (d, rest) => if (skipBlanks rest).isEmpty then some d else none
  | none => none

end RecordDb.Wire.Json
