import Mathlib.Data.List.Forall2
import RecordDb.Proofs.Json.Numbers
import RecordDb.Proofs.Json.Texts
import RecordDb.Proofs.Packed.Documents

/-!
# Documents as JSON texts

A document without floats, written as a JSON text, is read back as it was, but for bytes, which come
back as a list of their numbers. What is proved of a value holds whatever may follow it.
-/
namespace RecordDb.Wire

namespace Doc

mutual

/-- Whether no float is in a document, and bytes only if they are admitted. -/
def isTextual (bytes : Bool) : Doc → Bool
  | .float _ => false
  | .bytes _ => bytes
  | .arr items => isTextualItems bytes items
  | .obj fields => isTextualFields bytes fields
  | _ => true

def isTextualItems (bytes : Bool) : List Doc → Bool
  | [] => true
  | d :: rest => isTextual bytes d && isTextualItems bytes rest

def isTextualFields (bytes : Bool) : List (String × Doc) → Bool
  | [] => true
  | (_, d) :: rest => isTextual bytes d && isTextualFields bytes rest

end

/-- Bytes as a list of numbers. -/
def numbers (b : List UInt8) : List Doc := b.map fun n => .int n.toNat

mutual

/-- The document with each byte string as a list of numbers. -/
def listed : Doc → Doc
  | .bytes b => .arr (numbers b)
  | .arr items => .arr (listedItems items)
  | .obj fields => .obj (listedFields fields)
  | d => d

def listedItems : List Doc → List Doc
  | [] => []
  | d :: rest => listed d :: listedItems rest

def listedFields : List (String × Doc) → List (String × Doc)
  | [] => []
  | (k, d) :: rest => (k, listed d) :: listedFields rest

end

theorem listedItems_eq_map (items : List Doc) : listedItems items = items.map listed := by
  induction items with
  | nil => rfl
  | cons d rest ih => rw [listedItems, ih, List.map_cons]

theorem listedFields_eq_map (fields : List (String × Doc)) :
    listedFields fields = fields.map fun e => (e.1, e.2.listed) := by
  induction fields with
  | nil => rfl
  | cons e rest ih => rw [listedFields, ih, List.map_cons]

mutual

theorem listed_of_isTextual (d : Doc) (h : d.isTextual false) : d.listed = d := by
  cases d with
  | arr items => rw [listed, listedItems_of_isTextual items h]
  | obj fields => rw [listed, listedFields_of_isTextual fields h]
  | bytes => cases h
  | _ => rfl

theorem listedItems_of_isTextual (items : List Doc) (h : isTextualItems false items) :
    listedItems items = items := by
  cases items with
  | nil => rfl
  | cons d rest =>
    rw [isTextualItems, Bool.and_eq_true] at h
    rw [listedItems, listed_of_isTextual d h.1, listedItems_of_isTextual rest h.2]

theorem listedFields_of_isTextual (fields : List (String × Doc))
    (h : isTextualFields false fields) : listedFields fields = fields := by
  match fields with
  | [] => rfl
  | (k, d) :: rest =>
    rw [isTextualFields, Bool.and_eq_true] at h
    rw [listedFields, listed_of_isTextual d h.1, listedFields_of_isTextual rest h.2]

end

theorem isWritten_numbers (b : List UInt8) : isWrittenItems (numbers b) := by
  induction b with
  | nil => rfl
  | cons n rest ih =>
    have hn := n.toNat_lt
    rw [numbers, List.map_cons, isWrittenItems, isWritten, Bool.and_eq_true, decide_eq_true_eq]
    exact ⟨by omega, ih⟩

mutual

theorem isWritten_listed (d : Doc) (h : d.isWritten) : d.listed.isWritten := by
  cases d with
  | bytes b => exact isWritten_numbers b
  | arr items =>
    rw [listed, isWritten]
    exact isWrittenItems_listedItems items h
  | obj fields =>
    rw [listed, isWritten]
    exact isWrittenFields_listedFields fields h
  | _ => exact h

theorem isWrittenItems_listedItems (items : List Doc) (h : isWrittenItems items) :
    isWrittenItems (listedItems items) := by
  cases items with
  | nil => rfl
  | cons d rest =>
    rw [isWrittenItems, Bool.and_eq_true] at h
    rw [listedItems, isWrittenItems, Bool.and_eq_true]
    exact ⟨isWritten_listed d h.1, isWrittenItems_listedItems rest h.2⟩

theorem isWrittenFields_listedFields (fields : List (String × Doc)) (h : isWrittenFields fields) :
    isWrittenFields (listedFields fields) := by
  match fields with
  | [] => rfl
  | (k, d) :: rest =>
    rw [isWrittenFields, Bool.and_eq_true] at h
    rw [listedFields, isWrittenFields, Bool.and_eq_true]
    exact ⟨isWritten_listed d h.1, isWrittenFields_listedFields rest h.2⟩

end

end Doc

namespace Json
open Doc

theorem skipBlanks_cons {c : Char} (h : isBlank c = false) (cs : List Char) :
    skipBlanks (c :: cs) = c :: cs := by
  rw [skipBlanks, List.dropWhile_cons, h]
  rfl

section Lists
variable {α : Type}

/-- An item is read from its text, whatever comes after it. -/
def Reads (item : List Char → Option (α × List Char)) (part : List Char) (a : α) : Prop :=
  ∀ rest, Ends rest → item (part ++ rest) = some (a, rest)

/-- Characters that close a list of items. -/
structure Closes (close : Char) : Prop where
  ends (rest : List Char) : Ends (close :: rest)
  notBlank : isBlank close = false
  notComma : close ≠ ','

theorem closes_bracket : Closes ']' := ⟨Ends.list, rfl, by decide⟩

theorem closes_brace : Closes '\x7d' := ⟨Ends.record, rfl, by decide⟩

/-- A text that is not taken for the end of a list. -/
def Opens (close : Char) (part : List Char) : Prop :=
  ∃ c cs, part = c :: cs ∧ isBlank c = false ∧ c ≠ close

variable {item : List Char → Option (α × List Char)} {close : Char} {parts : List (List Char)}
  {as : List α}

theorem commaList_cons (part part' : List Char) (parts : List (List Char)) :
    commaList (part :: part' :: parts) = part ++ ',' :: commaList (part' :: parts) := rfl

theorem length_le_commaList (part : List Char) (parts : List (List Char)) :
    part.length ≤ (commaList (part :: parts)).length ∧
      (commaList parts).length ≤ (commaList (part :: parts)).length := by
  cases parts with
  | nil => simp [commaList]
  | cons part' parts =>
    rw [commaList_cons, List.length_append, List.length_cons]
    omega

theorem length_parts_le (parts : List (List Char)) :
    parts.length ≤ (commaList parts).length + 1 := by
  induction parts with
  | nil => exact Nat.zero_le _
  | cons part parts ih =>
    cases parts with
    | nil => exact Nat.le_add_left 1 _
    | cons part' parts =>
      simp only [commaList_cons, List.length_append, List.length_cons] at ih ⊢
      omega

/-- Parts that are read one by one are read with commas between them. -/
theorem items?_commaList (hc : Closes close) (h : List.Forall₂ (Reads item) parts as)
    (hne : parts ≠ []) {fuel : Nat} (hf : parts.length ≤ fuel) (rest : List Char) :
    items? item close fuel (commaList parts ++ close :: rest) = some (as, rest) := by
  induction h generalizing fuel with
  | nil => exact absurd rfl hne
  | @cons part a parts as hpart hparts ih =>
    cases fuel with
    | zero => cases hf
    | succ fuel =>
      -- the last part is ended by the closing character, any other one by its comma
      cases hparts with
      | nil =>
        rw [commaList, items?, hpart _ (hc.ends rest)]
        dsimp only
        rw [skipBlanks_cons hc.notBlank]
        dsimp only
        rw [if_neg hc.notComma, if_pos rfl]
      | cons hpart' hparts' =>
        have hrest := ih (List.cons_ne_nil _ _) (Nat.le_of_succ_le_succ hf)
        rw [commaList_cons, List.append_assoc, items?, List.cons_append, hpart _ (Ends.comma _)]
        dsimp only
        rw [skipBlanks_cons (by decide)]
        dsimp only
        rw [if_pos rfl, hrest]
        rfl

theorem list?_commaList (hc : Closes close) (h : List.Forall₂ (Reads item) parts as)
    (ho : ∀ part ∈ parts, Opens close part) {fuel : Nat} (hf : (commaList parts).length < fuel)
    (rest : List Char) :
    list? item close fuel (commaList parts ++ close :: rest) = some (as, rest) := by
  cases h with
  | nil =>
    rw [commaList, List.nil_append, list?, skipBlanks_cons hc.notBlank]
    exact if_pos rfl
  | @cons part a parts as hpart hparts =>
    obtain ⟨c, cs, hcs, hb, hclose⟩ := ho part List.mem_cons_self
    have hlist := items?_commaList hc (.cons hpart hparts) (List.cons_ne_nil _ _)
      (Nat.le_trans (length_parts_le _) hf) rest
    have hfirst : ∃ cs', commaList (part :: parts) = c :: cs' := by
      cases parts with
      | nil => exact ⟨cs, hcs⟩
      | cons part' parts => exact ⟨_, by rw [commaList_cons, hcs, List.cons_append]⟩
    obtain ⟨cs', hcs'⟩ := hfirst
    rw [hcs', List.cons_append] at hlist ⊢
    rw [list?, skipBlanks_cons hb]
    dsimp only
    rw [if_neg hclose, hlist]

end Lists

theorem isBlank_of_beginsNumber {c : Char} (h : beginsNumber c = true) : isBlank c = false := by
  cases hb : isBlank c with
  | false => rfl
  | true =>
    simp only [isBlank, Bool.or_eq_true, decide_eq_true_eq] at hb
    obtain ((rfl | rfl) | rfl) | rfl := hb <;> cases h

/-- All the other branches begin with a character that begins no number. -/
theorem value?_number {c : Char} (h : beginsNumber c = true) (fuel depth : Nat) (cs : List Char) :
    value? (fuel + 1) depth (c :: cs)
      = (number? (c :: cs)).map fun (n, rest) => (n.doc, rest) := by
  rw [value?, skipBlanks_cons (isBlank_of_beginsNumber h)]
  split
  case h_7 => rfl
  all_goals
    rename_i he
    cases he
    cases h

theorem reads_quoted (fuel depth : Nat) (s : String) :
    Reads (value? (fuel + 1) depth) (quoted s) (.text s) := by
  intro rest _
  rw [quoted_append]
  change (string? _).map _ = _
  rw [string?_text, Option.map_some]
  dsimp only
  rw [doc_text]

theorem reads_intText (fuel depth : Nat) {i : Int}
    (h : -0x8000000000000000 ≤ i ∧ i < 0x10000000000000000) :
    Reads (value? (fuel + 1) depth) (intText i) (.int i) := by
  intro rest hr
  obtain ⟨c, cs, hcs, hc⟩ := intText_eq_cons i
  have hnumber := number?_intText i hr
  rw [hcs, List.cons_append] at hnumber ⊢
  rw [value?_number hc, hnumber, Option.map_some]
  dsimp only
  rw [doc_integer h]

theorem reads_field {value : List Char → Option (Doc × List Char)} {part : List Char} {d : Doc}
    (h : Reads value part d) (name : String) :
    Reads (field? value) (quoted name ++ ':' :: part) (some name, d) := by
  intro rest hr
  have hquote : ∀ cs, skipBlanks ('"' :: cs) = '"' :: cs := skipBlanks_cons rfl
  have hcolon : ∀ cs, skipBlanks (':' :: cs) = ':' :: cs := skipBlanks_cons rfl
  simp only [List.append_assoc, List.cons_append, quoted_append, field?, hquote, string?_text,
    hcolon, h rest hr, Option.map_some, doc_text, Doc.text?]

theorem objDoc_names (fields : List (String × Doc)) :
    objDoc (fields.map fun e => (some e.1, e.2)) = some (.obj fields) := by
  rw [objDoc, Packed.mapM_map_eq_some (k := id), List.map_id]
  exact fun _ _ => rfl

section Containers
variable {fuel depth : Nat} {parts : List (List Char)} (hd : 0 < depth)
  (hl : (commaList parts).length < fuel)
include hd hl

theorem reads_arr {items : List Doc}
    (h : List.Forall₂ (Reads (value? fuel (depth - 1))) parts items)
    (ho : ∀ part ∈ parts, Opens ']' part) :
    Reads (value? (fuel + 1) depth) ('[' :: commaList parts ++ [']']) (.arr items) := by
  intro rest _
  rw [List.append_assoc, List.singleton_append]
  change (list? _ _ _ (commaList parts ++ ']' :: rest)).bind _ = _
  rw [list?_commaList closes_bracket h ho hl, Option.bind_some]
  dsimp only
  rw [limited, if_pos hd, Option.map_some]

theorem reads_obj {fields : List (String × Doc)}
    (h : List.Forall₂ (Reads (field? (value? fuel (depth - 1)))) parts
      (fields.map fun e => (some e.1, e.2)))
    (ho : ∀ part ∈ parts, Opens '\x7d' part) :
    Reads (value? (fuel + 1) depth) ('\x7b' :: commaList parts ++ ['\x7d']) (.obj fields) := by
  intro rest _
  rw [List.append_assoc, List.singleton_append]
  change (list? _ _ _ (commaList parts ++ '\x7d' :: rest)).bind _ = _
  rw [list?_commaList closes_brace h ho hl, Option.bind_some]
  dsimp only
  rw [objDoc_names, Option.bind_some, limited, if_pos hd, Option.map_some]

end Containers

theorem opens_intText (i : Int) : Opens ']' (intText i) := by
  obtain ⟨c, cs, hcs, hc⟩ := intText_eq_cons i
  refine ⟨c, cs, hcs, isBlank_of_beginsNumber hc, ?_⟩
  rintro rfl
  cases hc

/-- What is written begins neither as a blank nor as the end of a list. -/
theorem opens_print {d : Doc} (h : d.isWritten) (ht : d.isTextual true) : Opens ']' (print d) := by
  cases d with
  | int i => exact opens_intText i
  | bool b => cases b <;> exact ⟨_, _, rfl, rfl, by decide⟩
  | null | text | bytes | arr | obj => exact ⟨_, _, rfl, rfl, by decide⟩
  | float => cases ht
  | longInt | rawText | table | alien => cases h

theorem opens_printItems {items : List Doc} (h : isWrittenItems items)
    (ht : isTextualItems true items) : ∀ part ∈ printItems items, Opens ']' part := by
  induction items with
  | nil => nofun
  | cons d rest ih =>
    rw [isWrittenItems, Bool.and_eq_true] at h
    rw [isTextualItems, Bool.and_eq_true] at ht
    rw [printItems]
    exact List.forall_mem_cons.mpr ⟨opens_print h.1 ht.1, ih h.2 ht.2⟩

theorem opens_printFields (fields : List (String × Doc)) :
    ∀ part ∈ printFields fields, Opens '\x7d' part := by
  induction fields with
  | nil => nofun
  | cons e rest ih =>
    rw [printFields]
    exact List.forall_mem_cons.mpr ⟨⟨'"', _, quoted_append _ _, rfl, by decide⟩, ih⟩

theorem reads_numbers (fuel depth : Nat) (b : List UInt8) :
    List.Forall₂ (Reads (value? (fuel + 1) depth)) (b.map fun n => intText n.toNat)
      (numbers b) := by
  rw [numbers, List.forall₂_map_left_iff, List.forall₂_map_right_iff, List.forall₂_same]
  intro n _
  have hn := n.toNat_lt
  exact reads_intText fuel depth (by omega)

/-! The induction is on the document. The fuel has to exceed the length of its text, and the depth
is spent on the lists and maps of what the text tells, which are one more for each byte string. -/

mutual

theorem reads_print (d : Doc) (hw : d.isWritten) (ht : d.isTextual true) {depth fuel : Nat}
    (hn : d.listed.nesting ≤ depth) (hl : (print d).length < fuel) :
    Reads (value? fuel depth) (print d) d.listed := by
  obtain ⟨fuel, rfl⟩ := Nat.exists_eq_add_one_of_ne_zero (Nat.ne_zero_of_lt hl)
  cases d with
  | null => exact fun _ _ => rfl
  | bool b =>
    cases b with
    | true => exact fun _ _ => rfl
    | false => exact fun _ _ => rfl
  | int i => exact reads_intText fuel depth (by simpa [isWritten] using hw)
  | text s => exact reads_quoted fuel depth s
  | bytes b =>
    rw [listed, nesting] at hn
    rw [print, List.length_append, List.length_cons, List.length_singleton] at hl
    obtain ⟨fuel, rfl⟩ := Nat.exists_eq_add_one_of_ne_zero (n := fuel) (by omega)
    rw [print, listed]
    refine reads_arr (by omega) (by omega) (reads_numbers fuel _ b) ?_
    exact List.forall_mem_map.mpr fun n _ => opens_intText n.toNat
  | arr items =>
    rw [listed, nesting] at hn
    rw [print, List.length_append, List.length_cons, List.length_singleton] at hl
    rw [print, listed]
    exact reads_arr (by omega) (by omega)
      (reads_printItems items hw ht (by omega) (by omega)) (opens_printItems hw ht)
  | obj fields =>
    rw [listed, nesting] at hn
    rw [print, List.length_append, List.length_cons, List.length_singleton] at hl
    rw [print, listed]
    exact reads_obj (by omega) (by omega)
      (reads_printFields fields hw ht (by omega) (by omega)) (opens_printFields fields)
  | float => cases ht
  | longInt | rawText | table | alien => cases hw

theorem reads_printItems (items : List Doc) (hw : isWrittenItems items)
    (ht : isTextualItems true items) {depth fuel : Nat}
    (hn : nestingItems (listedItems items) ≤ depth)
    (hl : (commaList (printItems items)).length < fuel) :
    List.Forall₂ (Reads (value? fuel depth)) (printItems items) (listedItems items) := by
  cases items with
  | nil => exact .nil
  | cons d rest =>
    rw [isWrittenItems, Bool.and_eq_true] at hw
    rw [isTextualItems, Bool.and_eq_true] at ht
    rw [listedItems, nestingItems] at hn
    rw [printItems] at hl
    have hlength := length_le_commaList (print d) (printItems rest)
    rw [printItems, listedItems]
    exact .cons (reads_print d hw.1 ht.1 (by omega) (by omega))
      (reads_printItems rest hw.2 ht.2 (by omega) (by omega))

theorem reads_printFields (fields : List (String × Doc)) (hw : isWrittenFields fields)
    (ht : isTextualFields true fields) {depth fuel : Nat}
    (hn : nestingFields (listedFields fields) ≤ depth)
    (hl : (commaList (printFields fields)).length < fuel) :
    List.Forall₂ (Reads (field? (value? fuel depth))) (printFields fields)
      ((listedFields fields).map fun e => (some e.1, e.2)) := by
  match fields with
  | [] => exact .nil
  | (k, d) :: rest =>
    rw [isWrittenFields, Bool.and_eq_true] at hw
    rw [isTextualFields, Bool.and_eq_true] at ht
    rw [listedFields, nestingFields] at hn
    rw [printFields] at hl
    have hlength := length_le_commaList (quoted k ++ ':' :: print d) (printFields rest)
    rw [List.length_append, List.length_cons] at hlength
    rw [printFields, listedFields, List.map_cons]
    exact .cons (reads_field (reads_print d hw.1 ht.1 (by omega) (by omega)) k)
      (reads_printFields rest hw.2 ht.2 (by omega) (by omega))

end

/-- A document that is not nested too deeply is parsed from its own text. -/
theorem parse?_render {d : Doc} (hw : d.isWritten) (ht : d.isTextual true)
    (hn : d.listed.nesting ≤ depthLimit) : parse? (render d) = some d.listed := by
  have hread := reads_print d hw ht hn (Nat.lt_succ_self _) [] .nothing
  rw [List.append_nil] at hread
  rw [parse?, render, String.toList_ofList, hread]
  rfl

end Json

end RecordDb.Wire
