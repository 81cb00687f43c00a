import RecordDb.Proofs.Wire.Messages

/-!
# What documents tell apart

A geographic text has the document of a text, and there is no other loss, nils included: whoever
knows which of the texts are geographic has the whole from its document.
-/
namespace RecordDb

open Codec
open Wire (Doc)
open Wire.Fields

namespace Value

mutual

@[simp] theorem toDoc_asRead (v : Value) : toDoc v.asRead = toDoc v := by
  cases v with
  | list items => rw [asRead, toDoc, toDoc, toDocs_asReadItems items]
  | map entries => rw [asRead, toDoc, toDoc, toFields_asReadEntries entries]
  | _ => rfl

theorem toDocs_asReadItems (items : List Value) : toDocs (asReadItems items) = toDocs items := by
  cases items with
  | nil => rfl
  | cons v rest => rw [asReadItems, toDocs, toDocs, toDoc_asRead v, toDocs_asReadItems rest]

theorem toFields_asReadEntries (entries : List (String × Value)) :
    toFields (asReadEntries entries) = toFields entries := by
  match entries with
  | [] => rfl
  | (k, v) :: rest =>
    rw [asReadEntries, toFields, toFields, toDoc_asRead v, toFields_asReadEntries rest]

end

mutual

/-- Whether two texts in the same place are geographic both or neither, in every place. -/
def textsAlike : Value → Value → Bool
  | string _, geo _ | geo _, string _ => false
  | list items, list items' => itemsAlike items items'
  | map entries, map entries' => entriesAlike entries entries'
  | _, _ => true

def itemsAlike : List Value → List Value → Bool
  | v :: rest, w :: rest' => textsAlike v w && itemsAlike rest rest'
  | _, _ => true

def entriesAlike : List (String × Value) → List (String × Value) → Bool
  | (_, v) :: rest, (_, w) :: rest' => textsAlike v w && entriesAlike rest rest'
  | _, _ => true

end

mutual

theorem eq_of_toDoc_eq (v w : Value) (ha : v.textsAlike w) (h : toDoc v = toDoc w) : v = w := by
  cases v with
  | int i =>
    cases w with
    | int j =>
      rw [toDoc, toDoc, Doc.int.injEq] at h
      rw [Int64.toInt_inj.mp h]
    | _ => cases h
  | string s =>
    cases w with
    | string t =>
      cases h
      rfl
    | geo t => simp [textsAlike] at ha
    | _ => cases h
  | geo s =>
    cases w with
    | geo t =>
      cases h
      rfl
    | string t => simp [textsAlike] at ha
    | _ => cases h
  | list items =>
    cases w with
    | list items' =>
      rw [toDoc, toDoc, Doc.arr.injEq] at h
      rw [textsAlike] at ha
      rw [eq_of_toDocs_eq items items' ha h]
    | _ => cases h
  | map entries =>
    cases w with
    | map entries' =>
      rw [toDoc, toDoc, Doc.obj.injEq] at h
      rw [textsAlike] at ha
      rw [eq_of_toFields_eq entries entries' ha h]
    | _ => cases h
  | _ => cases w <;> first | rfl | (cases h; rfl) | cases h

theorem eq_of_toDocs_eq (vs ws : List Value) (ha : itemsAlike vs ws) (h : toDocs vs = toDocs ws) :
    vs = ws := by
  match vs, ws with
  | [], [] => rfl
  | [], _ :: _ => cases h
  | _ :: _, [] => cases h
  | v :: vs, w :: ws =>
    rw [toDocs, toDocs, List.cons.injEq] at h
    rw [itemsAlike, Bool.and_eq_true] at ha
    rw [eq_of_toDoc_eq v w ha.1 h.1, eq_of_toDocs_eq vs ws ha.2 h.2]

theorem eq_of_toFields_eq (vs ws : List (String × Value)) (ha : entriesAlike vs ws)
    (h : toFields vs = toFields ws) : vs = ws := by
  match vs, ws with
  | [], [] => rfl
  | [], _ :: _ => cases h
  | _ :: _, [] => cases h
  | (j, v) :: vs, (k, w) :: ws =>
    rw [toFields, toFields, List.cons.injEq, Prod.mk.injEq] at h
    rw [entriesAlike, Bool.and_eq_true] at ha
    obtain ⟨⟨hk, hv⟩, hrest⟩ := h
    rw [hk, eq_of_toDoc_eq v w ha.1 hv, eq_of_toFields_eq vs ws ha.2 hrest]

end

mutual

theorem textsAlike_asRead (v w : Value) : v.asRead.textsAlike w.asRead := by
  cases v with
  | list items =>
    cases w with
    | list items' =>
      rw [asRead, asRead, textsAlike]
      exact itemsAlike_asRead items items'
    | _ => rfl
  | map entries =>
    cases w with
    | map entries' =>
      rw [asRead, asRead, textsAlike]
      exact entriesAlike_asRead entries entries'
    | _ => rfl
  | _ => cases w <;> rfl

theorem itemsAlike_asRead (vs ws : List Value) :
    itemsAlike (asReadItems vs) (asReadItems ws) := by
  match vs, ws with
  | [], [] | [], _ :: _ | _ :: _, [] => rfl
  | v :: vs, w :: ws =>
    rw [asReadItems, asReadItems, itemsAlike, Bool.and_eq_true]
    exact ⟨textsAlike_asRead v w, itemsAlike_asRead vs ws⟩

theorem entriesAlike_asRead (vs ws : List (String × Value)) :
    entriesAlike (asReadEntries vs) (asReadEntries ws) := by
  match vs, ws with
  | [], [] | [], _ :: _ | _ :: _, [] => rfl
  | (_, v) :: vs, (_, w) :: ws =>
    rw [asReadEntries, asReadEntries, entriesAlike, Bool.and_eq_true]
    exact ⟨textsAlike_asRead v w, entriesAlike_asRead vs ws⟩

end

/-- Values have the same document when they differ in nothing but whether their texts are
geographic. -/
theorem toDoc_eq_iff (v w : Value) : toDoc v = toDoc w ↔ v.asRead = w.asRead := by
  constructor
  · intro h
    refine eq_of_toDoc_eq _ _ (textsAlike_asRead v w) ?_
    rw [toDoc_asRead, toDoc_asRead, h]
  · intro h
    rw [← toDoc_asRead v, h, toDoc_asRead]

mutual

theorem display_asRead (v : Value) : v.asRead.display = v.display := by
  cases v with
  | list items => rw [asRead, display, display, displayItems_asReadItems items]
  | map entries => rw [asRead, display, display, displayEntries_asReadEntries entries]
  | _ => rfl

theorem displayItems_asReadItems (items : List Value) :
    displayItems (asReadItems items) = displayItems items := by
  cases items with
  | nil => rfl
  | cons v rest =>
    rw [asReadItems, displayItems, displayItems, display_asRead v, displayItems_asReadItems rest]

theorem displayEntries_asReadEntries (entries : List (String × Value)) :
    displayEntries (asReadEntries entries) = displayEntries entries := by
  match entries with
  | [] => rfl
  | (k, v) :: rest =>
    rw [asReadEntries, displayEntries, displayEntries, display_asRead v,
      displayEntries_asReadEntries rest]

end

theorem display_eq_of_toDoc_eq {v w : Value} (h : toDoc v = toDoc w) : v.display = w.display := by
  rw [← display_asRead v, (toDoc_eq_iff v w).mp h, display_asRead]

/-- The same for operands, which may be absent. -/
def fieldsAlike : Option Value → Option Value → Bool
  | some v, some w => v.textsAlike w
  | _, _ => true

/-- An operand that is a nil is not one that is absent. -/
theorem operand_eq {o o' : Option Value} (ha : fieldsAlike o o')
    (h : o.map Codec.toDoc = o'.map Codec.toDoc) : o = o' := by
  cases o with
  | none =>
    cases o' with
    | none => rfl
    | some w => cases h
  | some v =>
    cases o' with
    | none => cases h
    | some w => rw [eq_of_toDoc_eq v w ha (Option.some.inj h)]

end Value

/-- Types whose elements are determined by their documents, as far as they are alike. -/
class ToldApart (α : Type) [Codec α] (alike : outParam (α → α → Bool)) : Prop where
  eq_of_toDoc_eq {a b : α} : alike a b → toDoc a = toDoc b → a = b

instance : ToldApart Value Value.textsAlike := ⟨fun {v w} => v.eq_of_toDoc_eq w⟩

section Exact
variable {α : Type} [Codec α] [ReadsExactly α]

@[simp] theorem toDoc_inj {a b : α} : toDoc a = toDoc b ↔ a = b := by
  refine ⟨fun h => ?_, fun h => h ▸ rfl⟩
  have ha := ReadsBack.ofDoc?_toDoc .packed a trivial
  rw [h, ReadsBack.ofDoc?_toDoc .packed b trivial] at ha
  exact (Option.some.inj ha).symm

@[simp] theorem map_toDoc_inj {o o' : Option α} : o.map toDoc = o'.map toDoc ↔ o = o' :=
  (Option.map_injective fun _ _ => toDoc_inj.mp).eq_iff

instance : ToldApart α (fun _ _ => true) := ⟨fun _ => toDoc_inj.mp⟩

end Exact

section Items
variable {α : Type} [Codec α] {alike : α → α → Bool}

/-- Lists are alike if the items in the same places are. -/
def zipAlike (alike : α → α → Bool) (as bs : List α) : Bool :=
  (as.zip bs).all fun p => alike p.1 p.2

variable [ToldApart α alike]

instance : ToldApart (List α) (zipAlike alike) where
  eq_of_toDoc_eq {as bs} ha h := by
    replace h : as.map toDoc = bs.map toDoc := Doc.arr.inj h
    induction as generalizing bs with
    | nil => exact (List.map_eq_nil_iff.mp h.symm).symm
    | cons a as ih =>
      cases bs with
      | nil => cases h
      | cons b bs =>
        rw [List.map_cons, List.map_cons, List.cons.injEq] at h
        rw [zipAlike, List.zip_cons_cons, List.all_cons, Bool.and_eq_true] at ha
        have hab : a = b := ToldApart.eq_of_toDoc_eq ha.1 h.1
        rw [hab, ih ha.2 h.2]

/-- Items that are left out when there are none. -/
theorem ToldApart.items_eq {as bs : List α} (ha : zipAlike alike as bs)
    (h : itemsDoc? as = itemsDoc? bs) : as = bs := by
  cases as with
  | nil =>
    cases bs with
    | nil => rfl
    | cons b bs => cases h
  | cons a as =>
    cases bs with
    | nil => cases h
    | cons b bs => exact ToldApart.eq_of_toDoc_eq ha (Option.some.inj h)

end Items

@[simp] theorem toDoc_list_inj {α : Type} [Codec α] [ReadsExactly α] {as bs : List α} :
    toDoc as = toDoc bs ↔ as = bs := by
  refine ⟨ToldApart.eq_of_toDoc_eq ?_, fun h => h ▸ rfl⟩
  simp [zipAlike]

/-- What stands under a name is the same in the same documents. -/
theorem get?_eq_of_obj_eq {fields fields' : List (String × Doc)}
    (h : Doc.obj fields = .obj fields') (name : String) :
    Dict.get? fields name = Dict.get? fields' name := by
  rw [Doc.obj.inj h]

namespace ScalarOperation

def textsAlike (op op' : ScalarOperation) : Bool := Value.fieldsAlike op.value op'.value

theorem eq_of_toFields_eq {op op' : ScalarOperation} (ha : op.textsAlike op')
    (hf : op.toFields = op'.toFields) : op = op' := by
  have hget := get?_eq_of_obj_eq (congrArg Doc.obj hf)
  have hkind : op.kind = op'.kind := by simpa [toFields] using hget "op"
  have hbin : op.bin = op'.bin := by simpa [toFields] using hget "bin"
  have hvalue := Value.operand_eq ha (by simpa [toFields] using hget "value")
  have httl : op.ttl = op'.ttl := by simpa [toFields] using hget "ttl"
  cases op
  cases op'
  rw [mk.injEq]
  exact ⟨hkind, hbin, hvalue, httl⟩

end ScalarOperation

namespace ListOperation

def textsAlike (op op' : ListOperation) : Bool := Value.fieldsAlike op.value op'.value

theorem eq_of_toFields_eq {op op' : ListOperation} (ha : op.textsAlike op')
    (hf : op.toFields = op'.toFields) : op = op' := by
  have hget := get?_eq_of_obj_eq (congrArg Doc.obj hf)
  have hkind : op.kind = op'.kind := by simpa [toFields] using hget "op"
  have hbin : op.bin = op'.bin := by simpa [toFields] using hget "bin"
  have hindex : op.index = op'.index := by simpa [toFields] using hget "index"
  have hcount : op.count = op'.count := by simpa [toFields] using hget "count"
  have hvalue := Value.operand_eq ha (by simpa [toFields] using hget "value")
  cases op
  cases op'
  rw [mk.injEq]
  exact ⟨hkind, hbin, hindex, hcount, hvalue⟩

end ListOperation

namespace MapOperation

def textsAlike (op op' : MapOperation) : Bool :=
  Value.fieldsAlike op.key op'.key && Value.fieldsAlike op.value op'.value
    && Value.fieldsAlike op.start op'.start && Value.fieldsAlike op.stop op'.stop

theorem eq_of_toFields_eq {op op' : MapOperation} (ha : op.textsAlike op')
    (hf : op.toFields = op'.toFields) : op = op' := by
  simp only [textsAlike, Bool.and_eq_true] at ha
  obtain ⟨⟨⟨hakey, havalue⟩, hastart⟩, hastop⟩ := ha
  have hget := get?_eq_of_obj_eq (congrArg Doc.obj hf)
  have hkind : op.kind = op'.kind := by simpa [toFields] using hget "op"
  have hbin : op.bin = op'.bin := by simpa [toFields] using hget "bin"
  have hkey := Value.operand_eq hakey (by simpa [toFields] using hget "key")
  have hvalue := Value.operand_eq havalue (by simpa [toFields] using hget "value")
  have hstart := Value.operand_eq hastart (by simpa [toFields] using hget "begin")
  have hstop := Value.operand_eq hastop (by simpa [toFields] using hget "end")
  have hindex : op.index = op'.index := by simpa [toFields] using hget "index"
  have hrank : op.rank = op'.rank := by simpa [toFields] using hget "rank"
  have hcount : op.count = op'.count := by simpa [toFields] using hget "count"
  have hreturn : op.returnType = op'.returnType := by simpa [toFields] using hget "return_type"
  have hpolicy : op.policy = op'.policy := by simpa [toFields] using hget "policy"
  cases op
  cases op'
  rw [mk.injEq]
  exact ⟨hkind, hbin, hkey, hvalue, hstart, hstop, hindex, hrank, hcount, hreturn, hpolicy⟩

end MapOperation

def Operation.textsAlike : Operation → Operation → Bool
  | scalar op, scalar op' => op.textsAlike op'
  | list op, list op' => op.textsAlike op'
  | map op, map op' => op.textsAlike op'
  | _, _ => true

instance : ToldApart Operation Operation.textsAlike where
  eq_of_toDoc_eq {op op'} ha hd := by
    -- the family comes first, so it is the same and the other fields are
    cases op with
    | scalar op =>
      cases op' with
      | scalar op' =>
        have hf := (List.cons.inj (Doc.obj.inj hd)).2
        rw [ScalarOperation.eq_of_toFields_eq ha hf]
      | _ => simp [toDoc] at hd
    | list op =>
      cases op' with
      | list op' =>
        have hf := (List.cons.inj (Doc.obj.inj hd)).2
        rw [ListOperation.eq_of_toFields_eq ha hf]
      | _ => simp [toDoc] at hd
    | map op =>
      cases op' with
      | map op' =>
        have hf := (List.cons.inj (Doc.obj.inj hd)).2
        rw [MapOperation.eq_of_toFields_eq ha hf]
      | _ => simp [toDoc] at hd

def UdfCall.textsAlike (c c' : UdfCall) : Bool := zipAlike Value.textsAlike c.args c'.args

instance : ToldApart UdfCall UdfCall.textsAlike where
  eq_of_toDoc_eq {c c'} ha hd := by
    have hget := get?_eq_of_obj_eq hd
    have hmodule : c.module = c'.module := by simpa using hget "module"
    have hfunction : c.function = c'.function := by simpa using hget "funcname"
    have hargs : c.args = c'.args := ToldApart.eq_of_toDoc_eq ha (by simpa using hget "args")
    cases c
    cases c'
    rw [UdfCall.mk.injEq]
    exact ⟨hmodule, hfunction, hargs⟩

def Filter.textsAlike (f f' : Filter) : Bool := Value.fieldsAlike f.operand f'.operand

instance : ToldApart Filter Filter.textsAlike where
  eq_of_toDoc_eq {f f'} ha hd := by
    have hget := get?_eq_of_obj_eq hd
    have hpredicate : f.predicate = f'.predicate := by simpa using hget "predicate"
    have hbin : f.bin = f'.bin := by simpa using hget "bin"
    have htype : f.indexType = f'.indexType := by simpa using hget "type"
    have hoperand := Value.operand_eq ha (by simpa using hget "val")
    have hmin : f.min = f'.min := by simpa using hget "min"
    have hmax : f.max = f'.max := by simpa using hget "max"
    cases f
    cases f'
    rw [Filter.mk.injEq]
    exact ⟨hpredicate, hbin, htype, hoperand, hmin, hmax⟩

def QueryMode.textsAlike : QueryMode → QueryMode → Bool
  | aggregate call, aggregate call' | background call, background call' => call.textsAlike call'
  | _, _ => true

instance : ToldApart QueryMode QueryMode.textsAlike where
  eq_of_toDoc_eq {m m'} ha hd := by
    cases m with
    | foreach =>
      cases m' with
      | foreach => rfl
      | _ => simp [toDoc] at hd
    | aggregate call =>
      cases m' with
      | aggregate call' =>
        have hudf : some (toDoc call) = some (toDoc call') := get?_eq_of_obj_eq hd "udf"
        have hcall : call = call' := ToldApart.eq_of_toDoc_eq ha (Option.some.inj hudf)
        rw [hcall]
      | _ => simp [toDoc] at hd
    | background call =>
      cases m' with
      | background call' =>
        have hudf : some (toDoc call) = some (toDoc call') := get?_eq_of_obj_eq hd "udf"
        have hcall : call = call' := ToldApart.eq_of_toDoc_eq ha (Option.some.inj hudf)
        rw [hcall]
      | _ => simp [toDoc] at hd

def QuerySpec.textsAlike (s s' : QuerySpec) : Bool :=
  zipAlike Filter.textsAlike s.filters s'.filters && s.mode.textsAlike s'.mode

instance : ToldApart QuerySpec QuerySpec.textsAlike where
  eq_of_toDoc_eq {s s'} ha hd := by
    rw [QuerySpec.textsAlike, Bool.and_eq_true] at ha
    have hget := get?_eq_of_obj_eq hd
    have hfilters := ToldApart.items_eq ha.1 (by simpa using hget "filters")
    have hselect : s.select = s'.select :=
      ToldApart.items_eq (by simp [zipAlike]) (by simpa using hget "select")
    have hmode : s.mode = s'.mode := ToldApart.eq_of_toDoc_eq ha.2 (by simpa using hget "mode")
    cases s
    cases s'
    rw [QuerySpec.mk.injEq]
    exact ⟨hfilters, hselect, hmode⟩

end RecordDb
