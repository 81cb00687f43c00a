import RecordDb.Wire.Doc

/-!
# The packed encoding

A document is packed as a tag byte, then a length or a number in big-endian bytes, then the
contents. Writing takes the shortest form; reading takes every form and leaves the bytes that follow
the first document alone.
-/
namespace RecordDb.Wire.Packed

def bigEndian : (width : Nat) → Nat → List UInt8
  | 0, _ => []
  | w + 1, n => bigEndian w (n / 256) ++ [UInt8.ofNat n]

@[simp] theorem length_bigEndian (width n : Nat) : (bigEndian width n).length = width := by
  induction width generalizing n with
  | zero => rfl
  | succ w ih => simp [bigEndian, ih]

def ofBigEndian (bytes : List UInt8) : Nat :=
  bytes.foldl (fun n b => n * 256 + b.toNat) 0

theorem ofBigEndian_append (bytes : List UInt8) (b : UInt8) :
    ofBigEndian (bytes ++ [b]) = ofBigEndian bytes * 256 + b.toNat := by
  simp [ofBigEndian]

/-- The number that `n` is in two's complement, where `half` is the bit of the sign. -/
def signed (half n : Nat) : Int := if n < half then n else (n : Int) - 2 * half

def tagged (tag : UInt8) (width n : Nat) : List UInt8 := tag :: bigEndian width n

/-- Numbers from zero up take the unsigned forms. -/
def encodeInt (i : Int) : List UInt8 :=
  if 0 ≤ i then
    let n := i.toNat
    if n < 0x80 then [UInt8.ofNat n]
    else if n < 0x100 then tagged 0xcc 1 n
    else if n < 0x10000 then tagged 0xcd 2 n
    else if n < 0x100000000 then tagged 0xce 4 n
    else tagged 0xcf 8 n
  else if -0x20 ≤ i then [UInt8.ofNat (0x100 + i).toNat]
  else if -0x80 ≤ i then tagged 0xd0 1 (0x100 + i).toNat
  else if -0x8000 ≤ i then tagged 0xd1 2 (0x10000 + i).toNat
  else if -0x80000000 ≤ i then tagged 0xd2 4 (0x100000000 + i).toNat
  else tagged 0xd3 8 (0x10000000000000000 + i).toNat

def textHead (n : Nat) : List UInt8 :=
  if n < 0x20 then [UInt8.ofNat (0xa0 + n)]
  else if n < 0x100 then tagged 0xd9 1 n
  else if n < 0x10000 then tagged 0xda 2 n
  else tagged 0xdb 4 n

def bytesHead (n : Nat) : List UInt8 :=
  if n < 0x100 then tagged 0xc4 1 n
  else if n < 0x10000 then tagged 0xc5 2 n
  else tagged 0xc6 4 n

def arrHead (n : Nat) : List UInt8 :=
  if n < 0x10 then [UInt8.ofNat (0x90 + n)]
  else if n < 0x10000 then tagged 0xdc 2 n
  else tagged 0xdd 4 n

def objHead (n : Nat) : List UInt8 :=
  if n < 0x10 then [UInt8.ofNat (0x80 + n)]
  else if n < 0x10000 then tagged 0xde 2 n
  else tagged 0xdf 4 n

def utf8 (s : String) : List UInt8 := s.toUTF8.data.toList

def encodeText (s : String) : List UInt8 :=
  let bytes := utf8 s
  textHead bytes.length ++ bytes

mutual

def encode : Doc → List UInt8
  | .null => [0xc0]
  | .bool false => [0xc2]
  | .bool true => [0xc3]
  | .int i => encodeInt i
  | .float x => tagged 0xcb 8 x.bits.toNat
  | .text s => encodeText s
  | .bytes b => bytesHead b.length ++ b
  | .arr items => arrHead items.length ++ encodeItems items
  | .obj fields => objHead fields.length ++ encodeFields fields
  | _ => []

def encodeItems : List Doc → List UInt8
  | [] => []
  | d :: rest => encode d ++ encodeItems rest

def encodeFields : List (String × Doc) → List UInt8
  | [] => []
  | (k, d) :: rest => encodeText k ++ encode d ++ encodeFields rest

end

/-- The first `n` bytes and the rest. -/
def takeBytes? : (n : Nat) → List UInt8 → Option (List UInt8 × List UInt8)
  | 0, bytes => some ([], bytes)
  | _ + 1, [] => none
  | n + 1, b :: rest => (takeBytes? n rest).map fun (front, back) => (b :: front, back)

def number? (width : Nat) (bytes : List UInt8) : Option (Nat × List UInt8) :=
  (takeBytes? width bytes).map fun (front, back) => (ofBigEndian front, back)

/-- What a tag announces: a finished document, or contents of some length. -/
inductive Head where
  | done (d : Doc)
  | text (length : Nat)
  | bytes (length : Nat)
  | arr (length : Nat)
  | obj (length : Nat)
  | extension (length : Nat)

/-- A number, with its form when there is a shorter one. -/
def intDoc (width : Nat) (signed : Bool) (i : Int) : Doc :=
  if i < 0 then .int i
  else if signed || (encodeInt i).length ≠ width + 1 then .longInt i.toNat width signed
  else .int i

/-- The head of a document. One tag, 0xc1, is never used. -/
def head? : List UInt8 → Option (Head × List UInt8)
  | [] => none
  | tag :: rest =>
    let t := tag.toNat
    let done (d : Doc) : Option (Head × List UInt8) := some (.done d, rest)
    let sized (width : Nat) (make : Nat → Head) : Option (Head × List UInt8) :=
      (number? width rest).map fun (n, rest) => (make n, rest)
    if t < 0x80 then done (.int t)
    else if t < 0x90 then some (.obj (t - 0x80), rest)
    else if t < 0xa0 then some (.arr (t - 0x90), rest)
    else if t < 0xc0 then some (.text (t - 0xa0), rest)
    else if 0xe0 ≤ t then done (.int ((t : Int) - 0x100))
    else match t with
      | 0xc0 => done .null
      | 0xc2 => done (.bool false)
      | 0xc3 => done (.bool true)
      | 0xc4 => sized 1 .bytes
      | 0xc5 => sized 2 .bytes
      | 0xc6 => sized 4 .bytes
      | 0xc7 => sized 1 .extension
      | 0xc8 => sized 2 .extension
      | 0xc9 => sized 4 .extension
      | 0xca => sized 4 fun n => .done (.float (.ofSingle (UInt32.ofNat n)))
      | 0xcb => sized 8 fun n => .done (.float ⟨UInt64.ofNat n⟩)
      | 0xcc => sized 1 fun n => .done (intDoc 1 false n)
      | 0xcd => sized 2 fun n => .done (intDoc 2 false n)
      | 0xce => sized 4 fun n => .done (intDoc 4 false n)
      | 0xcf => sized 8 fun n => .done (intDoc 8 false n)
      | 0xd0 => sized 1 fun n => .done (intDoc 1 true (signed 0x80 n))
      | 0xd1 => sized 2 fun n => .done (intDoc 2 true (signed 0x8000 n))
      | 0xd2 => sized 4 fun n => .done (intDoc 4 true (signed 0x80000000 n))
      | 0xd3 => sized 8 fun n => .done (intDoc 8 true (signed 0x8000000000000000 n))
      | 0xd4 => some (.extension 1, rest)
      | 0xd5 => some (.extension 2, rest)
      | 0xd6 => some (.extension 4, rest)
      | 0xd7 => some (.extension 8, rest)
      | 0xd8 => some (.extension 16, rest)
      | 0xd9 => sized 1 .text
      | 0xda => sized 2 .text
      | 0xdb => sized 4 .text
      | 0xdc => sized 2 .arr
      | 0xdd => sized 4 .arr
      | 0xde => sized 2 .obj
      | 0xdf => sized 4 .obj
      | _ => none

/-- `count` items one after the other. -/
def repeated? {α : Type} (read : List UInt8 → Option (α × List UInt8)) :
    (count : Nat) → List UInt8 → Option (List α × List UInt8)
  | 0, bytes => some ([], bytes)
  | n + 1, bytes =>
    match read bytes with
    | none => none
    | some (a, rest) => (repeated? read n rest).map fun (as, rest) => (a :: as, rest)

/-- Two items one after the other. -/
def pair? {α : Type} (read : List UInt8 → Option (α × List UInt8)) (bytes : List UInt8) :
    Option ((α × α) × List UInt8) :=
  match read bytes with
  | none => none
  | some (a, rest) => (read rest).map fun (b, rest) => ((a, b), rest)

/-- Text contents that are not valid UTF-8 are kept as bytes. -/
def textDoc (bytes : List UInt8) : Doc :=
  match utf8Text? bytes with
  | some s => .text s
  | none => .rawText bytes true

/-- A document of named fields, when all its keys are texts. -/
def mapDoc (entries : List (Doc × Doc)) : Doc :=
  match entries.mapM fun (k, d) => k.text?.map (·, d) with
  | some fields => .obj fields
  | none => .table entries

/-- One document in which at most `depth` containers are nested; an extension is one. -/
def read? (depth : Nat) (bytes : List UInt8) : Option (Doc × List UInt8) :=
  match head? bytes with
  | none => none
  | some (head, rest) =>
    match head, depth with
    | .done d, _ => some (d, rest)
    | .text n, _ => (takeBytes? n rest).map fun (front, rest) => (textDoc front, rest)
    | .bytes n, _ => (takeBytes? n rest).map fun (front, rest) => (.bytes front, rest)
    | .extension n, _ + 1 => (takeBytes? (n + 1) rest).map fun (_, rest) => (.alien, rest)
    | .arr n, depth + 1 =>
      (repeated? (read? depth) n rest).map fun (items, rest) => (.arr items, rest)
    | .obj n, depth + 1 =>
      (repeated? (pair? (read? depth)) n rest).map fun (entries, rest) => (mapDoc entries, rest)
    | _, 0 => none

/-- Containers that may be nested in one document. -/
def depthLimit : Nat := 1023

def decode? (bytes : List UInt8) : Option Doc := (read? depthLimit bytes).map Prod.fst

end RecordDb.Wire.Packed
