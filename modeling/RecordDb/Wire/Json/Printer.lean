import RecordDb.Binary64.Text
import RecordDb.Wire.Doc

/-!
# Writing JSON texts

The textual encoding of wire documents: compact, fields in their order.
-/
namespace RecordDb.Wire.Json

def hexDigit (n : Nat) : Char := Nat.digitChar n

/-- Inside quotes, a quote, a backslash and the controls below space are escaped. -/
def escape (c : Char) : List Char :=
  match c with
  | '"' => ['\\', '"']
  | '\\' => ['\\', '\\']
  | '\x08' => ['\\', 'b']
  | '\t' => ['\\', 't']
  | '\n' => ['\\', 'n']
  | '\x0c' => ['\\', 'f']
  | '\r' => ['\\', 'r']
  | c =>
    if c.toNat < 0x20 then
      ['\\', 'u', '0', '0', hexDigit (c.toNat / 16), hexDigit (c.toNat % 16)]
    else [c]

def quoted (s : String) : List Char := '"' :: s.toList.flatMap escape ++ ['"']

def intText (i : Int) : List Char :=
  if i < 0 then '-' :: Nat.toDigits 10 i.natAbs else Nat.toDigits 10 i.natAbs

/-- A double that is no number has no text of its own. -/
def floatText (x : Binary64) : List Char :=
  if x.isFinite then (x.text .data).toList else ['n', 'u', 'l', 'l']

/-- Parts with a comma between each two. -/
def commaList : List (List Char) → List Char
  | [] => []
  | [part] => part
  | part :: rest => part ++ ',' :: commaList rest

mutual

def print : Doc → List Char
  | .null => ['n', 'u', 'l', 'l']
  | .bool true => ['t', 'r', 'u', 'e']
  | .bool false => ['f', 'a', 'l', 's', 'e']
  | .int i => intText i
  | .float x => floatText x
  | .text s => quoted s
  | .bytes b => '[' :: commaList (b.map fun n => intText n.toNat) ++ [']']
  | .arr items => '[' :: commaList (printItems items) ++ [']']
  | .obj fields => '\x7b' :: commaList (printFields fields) ++ ['\x7d']
  | _ => []

def printItems : List Doc → List (List Char)
  | [] => []
  | d :: rest => print d :: printItems rest

def printFields : List (String × Doc) → List (List Char)
  | [] => []
  | (k, d) :: rest => (quoted k ++ ':' :: print d) :: printFields rest

end

def render (d : Doc) : String := String.ofList (print d)

end RecordDb.Wire.Json
