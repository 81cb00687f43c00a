import RecordDb.Proofs.Packed.Heads

/-!
# Packed documents

Packing a document loses nothing: whatever can be written, in sizes that a head can announce and a
nesting that a reader admits, is read back as it was.
-/
namespace RecordDb.Wire

namespace Doc

mutual

/-- The documents that writers make. Numbers have 64 bits, signed or not. -/
def isWritten : Doc → Bool
  | .int i => decide (-0x8000000000000000 ≤ i ∧ i < 0x10000000000000000)
  | .arr items => isWrittenItems items
  | .obj fields => isWrittenFields fields
  | .longInt .. | .rawText .. | .table _ | .alien => false
  | _ => true

def isWrittenItems : List Doc → Bool
  | [] => true
  | d :: rest => isWritten d && isWrittenItems rest

def isWrittenFields : List (String × Doc) → Bool
  | [] => true
  | (_, d) :: rest => isWritten d && isWrittenFields rest

end

def isShortText (s : String) : Bool := (Packed.utf8 s).length < 0x100000000

mutual

/-- Every text, byte string, list and map is shorter than 2^32. -/
def isShort : Doc → Bool
  | .text s => isShortText s
  | .bytes b => b.length < 0x100000000
  | .arr items => items.length < 0x100000000 && isShortItems items
  | .obj fields => fields.length < 0x100000000 && isShortFields fields
  | _ => true

def isShortItems : List Doc → Bool
  | [] => true
  | d :: rest => isShort d && isShortItems rest

def isShortFields : List (String × Doc) → Bool
  | [] => true
  | (k, d) :: rest => isShortText k && isShort d && isShortFields rest

end

mutual

/-- How many lists and maps lie around one another. -/
def nesting : Doc → Nat
  | .arr items => nestingItems items + 1
  | .obj fields => nestingFields fields + 1
  | _ => 0

def nestingItems : List Doc → Nat
  | [] => 0
  | d :: rest => max (nesting d) (nestingItems rest)

def nestingFields : List (String × Doc) → Nat
  | [] => 0
  | (_, d) :: rest => max (nesting d) (nestingFields rest)

end

end Doc

namespace Packed
open Doc

theorem mapM_map_eq_some {α β γ : Type} {f : β → Option γ} {g : α → β} {k : α → γ} {as : List α}
    (h : ∀ a ∈ as, f (g a) = some (k a)) : (as.map g).mapM f = some (as.map k) := by
  induction as with
  | nil => rfl
  | cons a rest ih =>
    obtain ⟨ha, hrest⟩ := List.forall_mem_cons.mp h
    rw [List.map_cons, List.mapM_cons, ha, ih hrest]
    rfl

/-- Names that were written are texts, so the map is one of named fields. -/
theorem mapDoc_texts (fields : List (String × Doc)) :
    mapDoc (fields.map fun e => (.text e.1, e.2)) = .obj fields := by
  rw [mapDoc, mapM_map_eq_some (k := id), List.map_id]
  exact fun _ _ => rfl

theorem read?_encodeText (depth : Nat) (s : String) (hs : isShortText s) (rest : List UInt8) :
    read? depth (encodeText s ++ rest) = some (.text s, rest) := by
  have hl : (utf8 s).length < 0x100000000 := by simpa [isShortText] using hs
  rw [read?, encodeText]
  simp only [List.append_assoc, head?_textHead _ hl, takeBytes?_append, Option.map_some, textDoc,
    utf8Text?_utf8]

mutual

theorem read?_encode (d : Doc) (depth : Nat) (hw : d.isWritten) (hs : d.isShort)
    (hn : d.nesting ≤ depth) (rest : List UInt8) :
    read? depth (encode d ++ rest) = some (d, rest) := by
  cases d with
  | null => simp [encode, read?, head?]
  | bool b => cases b <;> simp [encode, read?, head?]
  | int i =>
    have hb : -0x8000000000000000 ≤ i ∧ i < 0x10000000000000000 := by
      simpa [isWritten] using hw
    have hh : head? (encodeInt i ++ rest) = some (.done (.int i), rest) := by
      by_cases hi : i < 0
      · exact head?_encodeInt_neg i hb.1 hi rest
      · have := head?_encodeInt_natCast i.toNat (by omega) rest
        rwa [Int.toNat_of_nonneg (by omega)] at this
    rw [read?, encode]
    simp only [hh]
  | float x =>
    have hb : x.bits.toNat < 256 ^ 8 := x.bits.toNat_lt
    simp [encode, read?, head?, tagged, number?_bigEndian 8 _ hb]
  | text s =>
    rw [isShort] at hs
    rw [encode, read?_encodeText depth s hs]
  | bytes b =>
    have hl : b.length < 0x100000000 := by simpa [isShort] using hs
    rw [read?, encode]
    simp only [List.append_assoc, head?_bytesHead _ hl, takeBytes?_append, Option.map_some]
  | arr items =>
    simp only [isWritten] at hw
    simp only [isShort, Bool.and_eq_true, decide_eq_true_eq] at hs
    rw [nesting] at hn
    obtain ⟨depth, rfl⟩ : ∃ k, depth = k + 1 := ⟨depth - 1, by omega⟩
    have hi := repeated?_encodeItems items depth hw hs.2 (by omega) rest
    rw [read?, encode]
    simp only [List.append_assoc, head?_arrHead _ hs.1, hi, Option.map_some]
  | obj fields =>
    simp only [isWritten] at hw
    simp only [isShort, Bool.and_eq_true, decide_eq_true_eq] at hs
    rw [nesting] at hn
    obtain ⟨depth, rfl⟩ : ∃ k, depth = k + 1 := ⟨depth - 1, by omega⟩
    have hi := repeated?_encodeFields fields depth hw hs.2 (by omega) rest
    rw [read?, encode]
    simp only [List.append_assoc, head?_objHead _ hs.1, hi, Option.map_some, mapDoc_texts]
  | longInt | rawText | table | alien => simp [isWritten] at hw

theorem repeated?_encodeItems (items : List Doc) (depth : Nat) (hw : isWrittenItems items)
    (hs : isShortItems items) (hn : nestingItems items ≤ depth) (rest : List UInt8) :
    repeated? (read? depth) items.length (encodeItems items ++ rest) = some (items, rest) := by
  cases items with
  | nil => simp [encodeItems, repeated?]
  | cons d items =>
    simp only [isWrittenItems, Bool.and_eq_true] at hw
    simp only [isShortItems, Bool.and_eq_true] at hs
    rw [nestingItems] at hn
    have hd := read?_encode d depth hw.1 hs.1 (by omega) (encodeItems items ++ rest)
    have hi := repeated?_encodeItems items depth hw.2 hs.2 (by omega) rest
    simp only [encodeItems, List.append_assoc, List.length_cons, repeated?, hd, hi, Option.map_some]

theorem repeated?_encodeFields (fields : List (String × Doc)) (depth : Nat)
    (hw : isWrittenFields fields) (hs : isShortFields fields)
    (hn : nestingFields fields ≤ depth) (rest : List UInt8) :
    repeated? (pair? (read? depth)) fields.length (encodeFields fields ++ rest)
      = some (fields.map (fun e => (.text e.1, e.2)), rest) := by
  match fields with
  | [] => simp [encodeFields, repeated?]
  | (k, d) :: fields =>
    simp only [isWrittenFields, Bool.and_eq_true] at hw
    simp only [isShortFields, Bool.and_eq_true] at hs
    rw [nestingFields] at hn
    have hk := read?_encodeText depth k hs.1.1 (encode d ++ (encodeFields fields ++ rest))
    have hd := read?_encode d depth hw.1 hs.1.2 (by omega) (encodeFields fields ++ rest)
    have hf := repeated?_encodeFields fields depth hw.2 hs.2 (by omega) rest
    simp only [encodeFields, List.append_assoc, List.length_cons, repeated?, pair?, hk, hd, hf,
      Option.map_some, List.map_cons]

end

theorem decode?_encode (d : Doc) (hw : d.isWritten) (hs : d.isShort)
    (hn : d.nesting ≤ depthLimit) : decode? (encode d) = some d := by
  have h := read?_encode d depthLimit hw hs hn []
  rw [List.append_nil] at h
  rw [decode?, h, Option.map_some]

/-- Different documents are packed into different bytes, however deep they are nested. -/
theorem eq_of_encode_eq {d d' : Doc} (hw : d.isWritten) (hw' : d'.isWritten) (hs : d.isShort)
    (hs' : d'.isShort) (h : encode d = encode d') : d = d' := by
  have hd := read?_encode d (max d.nesting d'.nesting) hw hs (Nat.le_max_left _ _) []
  have hd' := read?_encode d' (max d.nesting d'.nesting) hw' hs' (Nat.le_max_right _ _) []
  rw [h, hd', Option.some.injEq, Prod.mk.injEq] at hd
  exact hd.1.symm

end Packed

end RecordDb.Wire
