import RecordDb.Proofs.Packed.Documents
import RecordDb.Wire.Codec

/-!
# Reading documents back

Documents that are written can be read back, in every way of reading. A record is written with the
names of its fields in the declared order, so each field is found again under its name; a field that
was left out has no value.
-/
namespace RecordDb

open Codec
open Wire (Doc Reading Fields)

/-- Types whose elements survive as documents: the ones that are ordered, that is, whose
dictionaries ascend, are read as `asRead` says. -/
class ReadsBack (α : Type) [Codec α] (ordered : outParam (α → Prop))
    (asRead : outParam (α → α)) : Prop where
  ofDoc?_toDoc (r : Reading) (a : α) : ordered a → ofDoc? r (toDoc a) = some (asRead a)
  isWritten_toDoc (a : α) : (toDoc a).isWritten

attribute [simp] ReadsBack.ofDoc?_toDoc ReadsBack.isWritten_toDoc

/-- Types that are read back as they were. -/
abbrev ReadsExactly (α : Type) [Codec α] : Prop := ReadsBack α (fun _ => True) id

/-- Types with no element whose document is the empty one, which stands for an absent field. -/
class NeverNull (α : Type) [Codec α] : Prop where
  toDoc_ne_null (a : α) : toDoc a ≠ .null

namespace Wire

namespace Doc

mutual

theorem storable_of_isWritten (d : Doc) (h : d.isWritten) : d.storable := by
  cases d with
  | arr items =>
    rw [isWritten] at h
    rw [storable]
    exact storableItems_of_isWritten items h
  | obj fields =>
    rw [isWritten] at h
    rw [storable]
    exact storableFields_of_isWritten fields h
  | rawText | alien => simp [isWritten] at h
  | _ => simp [storable]

theorem storableItems_of_isWritten (items : List Doc) (h : isWrittenItems items) :
    storableItems items := by
  cases items with
  | nil => rfl
  | cons d rest =>
    simp only [isWrittenItems, Bool.and_eq_true] at h
    simp only [storableItems, Bool.and_eq_true]
    exact ⟨storable_of_isWritten d h.1, storableItems_of_isWritten rest h.2⟩

theorem storableFields_of_isWritten (fields : List (String × Doc)) (h : isWrittenFields fields) :
    storableFields fields := by
  match fields with
  | [] => rfl
  | (k, d) :: rest =>
    simp only [isWrittenFields, Bool.and_eq_true] at h
    simp only [storableFields, Bool.and_eq_true]
    exact ⟨storable_of_isWritten d h.1, storableFields_of_isWritten rest h.2⟩

end

@[simp] theorem isWrittenItems_map {α : Type} (f : α → Doc) (items : List α)
    (h : ∀ a, (f a).isWritten) : isWrittenItems (items.map f) := by
  induction items with
  | nil => rfl
  | cons a rest ih => simp [isWrittenItems, h, ih]

@[simp] theorem isWrittenFields_nil : isWrittenFields [] := rfl

@[simp] theorem isWrittenFields_cons (name : String) (d : Doc) (rest : List (String × Doc)) :
    isWrittenFields ((name, d) :: rest) = (d.isWritten && isWrittenFields rest) := by
  rw [isWrittenFields]

@[simp] theorem isWrittenFields_append (fs gs : List (String × Doc)) :
    isWrittenFields (fs ++ gs) = (isWrittenFields fs && isWrittenFields gs) := by
  induction fs with
  | nil => simp [isWrittenFields]
  | cons e rest ih => simp [isWrittenFields, ih, Bool.and_assoc]

end Doc

theorem Label.among?_name {names : List String} {s : String} (h : s ∈ names) :
    (Label.name s).among? names = some s := by
  have hs : (names.find? (· = s)).isSome := by
    rw [List.find?_isSome]
    exact ⟨s, h, by simp⟩
  obtain ⟨t, ht⟩ := Option.isSome_iff_exists.mp hs
  have he : t = s := by simpa using List.find?_some ht
  rw [Label.among?, ht, he]

namespace Fields
variable {α : Type} [Codec α]

/-- The fields come in the order of some names, each at most once. -/
def Follow (fields : List (String × Doc)) (names : List String) : Prop :=
  (fields.map Prod.fst).Sublist names

@[simp] theorem follow_nil (names : List String) : Follow [] names := List.nil_sublist _

@[simp] theorem follow_cons (name : String) (d : Doc) (fields : List (String × Doc))
    (names : List String) : Follow ((name, d) :: fields) (name :: names) ↔ Follow fields names :=
  List.cons_sublist_cons

@[simp] theorem follow_ofOption (name : String) (o : Option α) (names : List String) :
    Follow (ofOption name o) (name :: names) := by
  cases o with
  | none => simp [ofOption]
  | some a => simp [ofOption]

@[simp] theorem follow_ofOption_append (name : String) (o : Option α)
    {fields : List (String × Doc)} {names : List String} (h : Follow fields names) :
    Follow (ofOption name o ++ fields) (name :: names) := by
  cases o with
  | none => exact h.cons name
  | some a => exact (follow_cons name _ _ _).mpr h

@[simp] theorem follow_ofItems_append (name : String) (items : List α)
    {fields : List (String × Doc)} {names : List String} (h : Follow fields names) :
    Follow (ofItems name items ++ fields) (name :: names) := by
  rw [ofItems]
  split
  · exact h.cons name
  · exact (follow_cons name _ _ _).mpr h

theorem Follow.mem {fields : List (String × Doc)} {names : List String} (h : Follow fields names)
    {e : String × Doc} (he : e ∈ fields) : e.1 ∈ names :=
  h.subset (List.mem_map_of_mem he)

/-- Names that differ from one another occur at most once among fields that follow them. -/
theorem Follow.length_filter_le {fields : List (String × Doc)} {names : List String}
    (h : Follow fields names) (hn : names.Nodup) (name : String) :
    (fields.filter fun e => e.1 = name).length ≤ 1 := by
  have hc : (fields.map Prod.fst).count name ≤ 1 := List.nodup_iff_count.mp (h.nodup hn) name
  rw [List.count, List.countP_map, List.countP_eq_length_filter] at hc
  exact hc

/-- Fields that follow the known names are taken as they are. -/
theorem Follow.fields? {fields : List (String × Doc)} {known : List String}
    (h : Follow fields known) (hn : known.Nodup) (r : Reading) :
    (Doc.obj fields).fields? r known = some ⟨r, fields⟩ := by
  rw [Doc.fields?, ofEntries?, if_pos]
  rw [Bool.and_eq_true, List.all_eq_true, List.all_eq_true]
  constructor
  · intro name _
    simpa using h.length_filter_le hn name
  · intro e he
    simp [h.mem he]

/-- A field beside the known ones is passed over, such as the tag that has been read before. -/
theorem Follow.fields?_cons {fields : List (String × Doc)} {known : List String}
    (h : Follow fields known) (hn : known.Nodup) (r : Reading) {tag : String} (ht : tag ∉ known)
    (s : String) : (Doc.obj ((tag, .text s) :: fields)).fields? r known
      = some ⟨r, (tag, .text s) :: fields⟩ := by
  rw [Doc.fields?, ofEntries?, if_pos]
  rw [Bool.and_eq_true, List.all_eq_true, List.all_eq_true]
  constructor
  · intro name hname
    have hne : tag ≠ name := fun he => ht (he ▸ hname)
    simpa [hne] using h.length_filter_le hn name
  · intro e he
    rcases List.mem_cons.mp he with rfl | he
    · simp [Doc.passable]
    · simp [h.mem he]

/-- The tag in front of fields that have other names tells the kind. -/
theorem Follow.tagged? {fields : List (String × Doc)} {known : List String}
    (h : Follow fields known) (r : Reading) {tag : String} (ht : tag ∉ known) {kinds : List String}
    {kind : String} (hk : kind ∈ kinds) (hw : Doc.isWrittenFields fields) :
    (Doc.obj ((tag, .text kind) :: fields)).tagged? r tag kinds
      = some (kind, .obj ((tag, .text kind) :: fields)) := by
  have hs : (Doc.obj ((tag, .text kind) :: fields)).storable := by
    apply Doc.storable_of_isWritten
    simpa [Doc.isWritten, Doc.isWrittenFields] using hw
  have hf : (fields.filter fun e => e.1 = tag) = [] := by
    rw [List.filter_eq_nil_iff]
    intro e he
    have hne : e.1 ≠ tag := fun heq => ht (heq ▸ h.mem he)
    simpa using hne
  simp [Doc.tagged?, Doc.holdable, hs, hf, Doc.name?, Doc.label?, Label.among?_name hk]

/-! Reading a field under its name. -/

@[simp] theorem get?_nil (name : String) : Dict.get? ([] : List (String × Doc)) name = none := rfl

@[simp] theorem get?_cons (written name : String) (d : Doc) (rest : List (String × Doc)) :
    Dict.get? ((written, d) :: rest) name
      = if written = name then some d else Dict.get? rest name := by
  rw [Dict.get?]

@[simp] theorem get?_append (fs gs : List (String × Doc)) (name : String) :
    Dict.get? (fs ++ gs) name = (Dict.get? fs name).or (Dict.get? gs name) := by
  induction fs with
  | nil => rfl
  | cons e rest ih =>
    by_cases h : e.1 = name
    · simp [Dict.get?, h]
    · simp [Dict.get?, h, ih]

@[simp] theorem get?_ofOption (written name : String) (o : Option α) :
    Dict.get? (ofOption written o) name = if written = name then o.map toDoc else none := by
  cases o with
  | none => simp [ofOption]
  | some a => simp [ofOption]

/-- What stands under the name of items. -/
def itemsDoc? (items : List α) : Option Doc := if items.isEmpty then none else some (toDoc items)

@[simp] theorem get?_ofItems (written name : String) (items : List α) :
    Dict.get? (ofItems written items) name
      = if written = name then itemsDoc? items else none := by
  cases items with
  | nil => simp [ofItems, itemsDoc?]
  | cons a rest => simp [ofItems, itemsDoc?]

/-- An optional field, from the document that stands under its name if there is one. -/
def ofField? (r : Reading) : Option Doc → Option (Option α)
  | none => some none
  | some .null => some none
  | some d => (ofDoc? r d).map some

@[simp] theorem optional?_eq_ofField? (fields : Fields) (name : String) :
    (fields.optional? name : Option (Option α)) = ofField? fields.reading (fields.get? name) :=
  rfl

/-- A field with a default. -/
def ofFieldOr? (r : Reading) (default : α) : Option Doc → Option α
  | none => some default
  | some d => ofDoc? r d

@[simp] theorem orElse?_eq_ofFieldOr? (fields : Fields) (name : String) (default : α) :
    fields.orElse? name default = ofFieldOr? fields.reading default (fields.get? name) :=
  rfl

@[simp] theorem ofFieldOr?_some (r : Reading) (default : α) (d : Doc) :
    ofFieldOr? r default (some d) = ofDoc? r d :=
  rfl

theorem ofField?_of_ne_null (r : Reading) {d : Doc} (hd : d ≠ .null) :
    (ofField? r (some d) : Option (Option α)) = (ofDoc? r d).map some := by
  cases d with
  | null => exact absurd rfl hd
  | _ => rfl

@[simp] theorem ofField?_toDoc {P : α → Prop} {f : α → α} [ReadsBack α P f] [NeverNull α]
    (r : Reading) (o : Option α) (h : ∀ a, o = some a → P a) :
    ofField? r (o.map toDoc) = some (o.map f) := by
  cases o with
  | none => rfl
  | some a =>
    rw [Option.map_some, ofField?_of_ne_null r (NeverNull.toDoc_ne_null a),
      ReadsBack.ofDoc?_toDoc r a (h a rfl), Option.map_some, Option.map_some]

@[simp] theorem isWrittenFields_ofOption {P : α → Prop} {f : α → α} [ReadsBack α P f]
    (name : String) (o : Option α) : Doc.isWrittenFields (ofOption name o) := by
  cases o with
  | none => rfl
  | some a => simp [ofOption, Doc.isWrittenFields, ReadsBack.isWritten_toDoc a]

end Fields

end Wire

end RecordDb
