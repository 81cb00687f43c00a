import RecordDb.Proofs.Wire.Listed

/-!
# The packed and the textual form of messages

They are written and read by different rules, and what they hold is the same as long as no value has
a form of its own in one of them.
-/
namespace RecordDb

open Codec

/-- What a text was written from is read back from it. -/
theorem Codec.ofJson?_toJson {α : Type} [Codec α] {P Q : α → Prop} {f : α → α} [ReadsBack α Q f]
    [ReadsListed α P f] (a : α) (h : P a)
    (hn : (toDoc a).listed.nesting ≤ Wire.Json.depthLimit) : ofJson? (toJson a) = some (f a) := by
  have hw : (toDoc a).isWritten := ReadsBack.isWritten_toDoc a
  have ht : (toDoc a).isTextual true := ReadsListed.isTextual_toDoc a h
  rw [ofJson?, toJson, Wire.Json.parse?_render hw ht hn, Option.bind_some,
    ReadsListed.ofDoc?_listed .json a h]

/-- The plain elements of a type that are nested no deeper than either reader admits come back from
their text, and as the same from their bytes. A digest is a list of numbers in a text, which counts
as nested, and what is packed has to be short, since no head announces `2 ^ 32` bytes or more. -/
def FormsAgree (α : Type) [Codec α] (plain : α → Prop) (asRead : α → α) : Prop :=
  ∀ a : α, plain a → (toDoc a).nesting ≤ Wire.Packed.depthLimit →
    (toDoc a).listed.nesting ≤ Wire.Json.depthLimit →
    ofJson? (toJson a) = some (asRead a) ∧
      ((toDoc a).isShort → unpack? (pack a) = some (asRead a))

theorem formsAgree_of_ordered {α : Type} [Codec α] {P Q : α → Prop} {f : α → α}
    [ReadsBack α P f] [ReadsListed α (fun a => P a ∧ Q a) f] :
    FormsAgree α (fun a => P a ∧ Q a) f :=
  fun a h hp hj => ⟨ofJson?_toJson a h hj, fun hs => unpack?_pack a h.1 hs hp⟩

theorem formsAgree_exactly {α : Type} [Codec α] [ReadsExactly α] [AlwaysTextual α] :
    FormsAgree α (fun _ => True) id :=
  fun a _ => formsAgree_of_ordered a ⟨trivial, trivial⟩

/-- Everything that goes over the wire, with any texts and numbers in it but without blobs and
floats, is read alike from its bytes and from its text. Its dictionaries have to ascend, as all do
that were built by insertion. -/
theorem json_and_packed_forms_agree :
    FormsAgree Operation (fun op => op.isOrdered ∧ op.isTextual) Operation.asRead ∧
    FormsAgree Filter (fun f => f.isOrdered ∧ f.isTextual) Filter.asRead ∧
    FormsAgree Key (fun k => k.isOrdered ∧ k.isTextual) Key.asRead ∧
    FormsAgree Record (fun r => r.isOrdered ∧ r.isTextual) Record.asRead ∧
    FormsAgree BatchRecord (fun r => r.isOrdered ∧ r.isTextual) BatchRecord.asRead ∧
    FormsAgree Request (fun q => q.isOrdered ∧ q.isTextual) Request.asRead ∧
    FormsAgree Response (fun a => a.isOrdered ∧ a.isTextual) Response.asRead ∧
    FormsAgree Policies (fun _ => True) id ∧
    FormsAgree ReadPolicy (fun _ => True) id ∧ FormsAgree WritePolicy (fun _ => True) id ∧
    FormsAgree RemovePolicy (fun _ => True) id ∧ FormsAgree OperatePolicy (fun _ => True) id ∧
    FormsAgree ApplyPolicy (fun _ => True) id ∧ FormsAgree BatchPolicy (fun _ => True) id ∧
    FormsAgree InfoPolicy (fun _ => True) id ∧ FormsAgree QueryPolicy (fun _ => True) id ∧
    FormsAgree UdfPolicy (fun _ => True) id ∧ FormsAgree IndexPolicy (fun _ => True) id :=
  ⟨formsAgree_of_ordered, formsAgree_of_ordered, formsAgree_of_ordered, formsAgree_of_ordered,
    formsAgree_of_ordered, formsAgree_of_ordered, formsAgree_of_ordered, formsAgree_exactly,
    formsAgree_exactly, formsAgree_exactly, formsAgree_exactly, formsAgree_exactly,
    formsAgree_exactly, formsAgree_exactly, formsAgree_exactly, formsAgree_exactly,
    formsAgree_exactly, formsAgree_exactly⟩

/-- A write with a digest, of the least integer and of texts that are escaped or not ASCII. -/
def noteWrite : Request :=
  .put ⟨"test", "notes", some (.string "a\"b"), some [0, 255]⟩
    [("at", .geo "here"), ("n", .int Int64.minValue),
      ("t", .list [.string "\t\x01\\", .string "é😀"])]
    (some ⟨some 0xffffffff, none⟩) none

theorem json_and_packed_forms_agree_note :
    let read := Request.put ⟨"test", "notes", some (.string "a\"b"), some [0, 255]⟩
      [("at", .string "here"), ("n", .int Int64.minValue),
        ("t", .list [.string "\t\x01\\", .string "é😀"])]
      (some ⟨some 0xffffffff, none⟩) none
    unpack? (pack noteWrite) = some read ∧ ofJson? (toJson noteWrite) = some read := by
  obtain ⟨-, -, -, -, -, hrequest, -⟩ := json_and_packed_forms_agree
  obtain ⟨hjson, hpacked⟩ := hrequest noteWrite (by decide) (by decide) (by decide)
  exact ⟨hpacked (by decide), hjson⟩

end RecordDb
