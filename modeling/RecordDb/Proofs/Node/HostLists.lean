import RecordDb.Node.Host
import RecordDb.Proofs.Text.Cuts

/-!
# Lists of hosts

A list may be cut at any comma, the blanks around an entry do not count, and the last colon of an
entry starts its port. So hosts that are written between commas are read back in their order, unless
an address among them is cut at a comma or starts with a blank.
-/
namespace RecordDb

namespace Host

open Text

/-- A host that comes back out of a list of hosts as it was: its address is not cut and not
trimmed. -/
structure Legible (h : Host) : Prop where
  comma : ',' ∉ h.addr.toList
  start : trimStart h.addr.toList = h.addr.toList

/-- Entries that stand for hosts: every host as it is displayed, with any blanks on both sides, and
any number of entries of blanks alone. -/
inductive Listing : List String → List Host → Prop where
  | nil : Listing [] []
  | blank {entry : String} {entries : List String} {hosts : List Host}
      (hentry : Blank entry) (hrest : Listing entries hosts) : Listing (entry :: entries) hosts
  | host {entry : String} {entries : List String} {host : Host} {hosts : List Host}
      (before after : String) (hentry : entry = before ++ host.display ++ after)
      (hbefore : Blank before) (hafter : Blank after) (hrest : Listing entries hosts) :
      Listing (entry :: entries) (host :: hosts)

/-- Hosts may be written without blanks and empty entries. -/
theorem listing_displays (hosts : List Host) : Listing (hosts.map display) hosts := by
  induction hosts with
  | nil => exact .nil
  | cons host rest ih =>
    have hentry : host.display = "" ++ host.display ++ "" := by
      rw [String.empty_append, String.append_empty]
    exact .host "" "" hentry (List.forall_mem_nil _) (List.forall_mem_nil _) ih

section Displays

theorem digitsValue?_toDigits (n : Nat) : digitsValue? (Nat.toDigits 10 n) = some n := by
  have hdigits : (Nat.toDigits 10 n).all Char.isDigit = true :=
    List.all_eq_true.mpr fun _ hc => Nat.isDigit_of_mem_toDigits (by decide) (by decide) hc
  have hne : (Nat.toDigits 10 n).isEmpty = false :=
    List.isEmpty_eq_false_iff.mpr Nat.toDigits_ne_nil
  have hvalue : (Nat.toDigits 10 n).foldl (fun n c => n * 10 + (c.toNat - '0'.toNat)) 0 = n := by
    conv_rhs => rw [← Nat.ofDigitChars_ten_toDigits (n := n), Nat.ofDigitChars]
    simp only [Nat.mul_comm]
  rw [digitsValue?, hdigits, hne, hvalue]
  rfl

/-- Every port is read back: no digits start with a plus sign. -/
theorem port?_toDigits (port : UInt16) : port? (Nat.toDigits 10 port.toNat) = some port := by
  have hfits : port.toNat ≤ 65535 := Nat.le_of_lt_succ port.toNat_lt
  rw [port?, digitsValue?_toDigits]
  · rw [Option.bind_some, if_pos hfits, UInt16.ofNat_toNat]
  · intro rest hplus
    exact not_mem_toDigits rfl port.toNat (hplus ▸ List.mem_cons_self)

theorem toList_display (h : Host) :
    h.display.toList = h.addr.toList ++ ':' :: Nat.toDigits 10 h.port.toNat := by
  rw [display, toList_joined ":" ':' rfl, Nat.toString_eq_repr, Nat.toList_repr]

/-- A host is what its display is read as, whatever its address holds. -/
theorem ofEntry?_display (h : Host) : ofEntry? h.display.toList = some h := by
  rw [ ofEntry?, toList_display, splitLast?_append _ (not_mem_toDigits rfl _)]
  dsimp only
  rw [port?_toDigits, Option.map_some, String.ofList_toList]

theorem trim_display {h : Host} (hlegible : h.Legible) :
    trim h.display.toList = h.display.toList := by
  rw [toList_display]
  apply trim_eq_self hlegible.start rfl
  intro c hc
  exact isBlank_of_isDigit (Nat.isDigit_of_mem_toDigits (by decide) (by decide) hc)

theorem comma_not_mem_display {h : Host} (hlegible : h.Legible) : ',' ∉ h.display.toList := by
  rw [toList_display, List.mem_append, List.mem_cons, not_or, not_or]
  exact ⟨hlegible.comma, by decide, not_mem_toDigits rfl _⟩

end Displays

section Lists

/-- A list may be cut at any comma. -/
theorem parseList_append (before after : String) :
    parseList (before ++ "," ++ after) = parseList before ++ parseList after := by
  rw [parseList, toList_joined "," ',' rfl, splitAll_append, List.map_append, List.filter_append,
    List.filterMap_append]
  rfl

theorem comma_not_mem_blank {text : String} (h : Blank text) : ',' ∉ text.toList :=
  fun hc => absurd (h ',' hc) (by decide)

theorem parseList_of_not_mem {entry : String} (h : ',' ∉ entry.toList) :
    parseList entry = ([trim entry.toList].filter (!·.isEmpty)).filterMap ofEntry? := by
  rw [parseList, splitAll_of_not_mem h, List.map_singleton]

theorem parseList_blank {entry : String} (h : Blank entry) : parseList entry = [] := by
  have htrim : trim entry.toList = [] := by
    have hall := trim_padded h (List.forall_mem_nil _) []
    rwa [List.append_nil, List.append_nil] at hall
  rw [parseList_of_not_mem (comma_not_mem_blank h), htrim]
  rfl

theorem parseList_display {h : Host} (hlegible : h.Legible) {before after : String}
    (hbefore : Blank before) (hafter : Blank after) :
    parseList (before ++ h.display ++ after) = [h] := by
  have htext : (before ++ h.display ++ after).toList =
      before.toList ++ h.display.toList ++ after.toList := by
    rw [String.toList_append, String.toList_append]
  have hcomma : ',' ∉ (before ++ h.display ++ after).toList := by
    rw [htext, List.mem_append, List.mem_append, not_or, not_or]
    exact ⟨⟨comma_not_mem_blank hbefore, comma_not_mem_display hlegible⟩,
      comma_not_mem_blank hafter⟩
  have hfull : ∀ part ∈ [h.display.toList], (!part.isEmpty) = true := by
    rw [List.forall_mem_singleton, toList_display, Bool.not_eq_true', List.isEmpty_eq_false_iff]
    exact List.append_ne_nil_of_right_ne_nil _ (List.cons_ne_nil _ _)
  rw [parseList_of_not_mem hcomma, htext, trim_padded hbefore hafter, trim_display hlegible,
    List.filter_eq_self.mpr hfull, List.filterMap_cons, ofEntry?_display]
  rfl

theorem parseList_of_listing {entries : List String} {hosts : List Host} (h : Listing entries hosts)
    (hlegible : ∀ host ∈ hosts, host.Legible) : parseList (",".intercalate entries) = hosts := by
  rw [flatMap_of_append rfl parseList_append]
  induction h with
  | nil => rfl
  | blank hentry _ ih =>
    rw [List.flatMap_cons, parseList_blank hentry, ih hlegible]
    rfl
  | host before after hentry hbefore hafter _ ih =>
    rw [List.forall_mem_cons] at hlegible
    rw [List.flatMap_cons, hentry, parseList_display hlegible.1 hbefore hafter, ih hlegible.2]
    rfl

/-- An address is the start of a trimmed entry. -/
theorem starts_of_ofEntry? {entry : List Char} {host : Host} (h : ofEntry? entry = some host) :
    host.addr.toList <+: entry := by
  rw [ ofEntry?] at h
  cases hcut : splitLast? ':' entry with
  | none =>
    rw [hcut] at h
    cases h
    exact ⟨[], by rw [List.append_nil, String.toList_ofList]⟩
  | some cut =>
    rw [hcut] at h
    obtain ⟨port, -, rfl⟩ := Option.map_eq_some_iff.mp h
    rw [String.toList_ofList]
    exact starts_of_splitLast? hcut

/-- Whatever the text, its hosts are legible. -/
theorem legible_of_mem_parseList {text : String} {host : Host} (h : host ∈ parseList text) :
    host.Legible := by
  obtain ⟨entry, hentry, hread⟩ := List.mem_filterMap.mp h
  obtain ⟨part, hpart, rfl⟩ := List.mem_map.mp (List.mem_of_mem_filter hentry)
  have hstarts := starts_of_ofEntry? hread
  exact ⟨fun hc => not_mem_of_mem_splitAll hpart ((trim_sublist part).subset (hstarts.subset hc)),
    trimStart_of_starts (trimStart_trim part) hstarts⟩

end Lists

/-- Hosts that are written between commas are read back in their order, with any blanks around them
and any number of empty entries, exactly if no address holds a comma or starts with a blank. -/
theorem listed_hosts_are_read_back_iff {entries : List String} {hosts : List Host}
    (h : Listing entries hosts) :
    parseList (",".intercalate entries) = hosts ↔ ∀ host ∈ hosts, host.Legible := by
  refine ⟨fun hread host hhost => ?_, parseList_of_listing h⟩
  rw [← hread] at hhost
  exact legible_of_mem_parseList hhost

/-- Colons, brackets and inner blanks stay, a blank at the start of an address does not. -/
theorem listed_hosts_are_read_back_iff_colons :
    parseList " ::1:0\t,,[a b]: :65535,\n,:3000" =
      [⟨"::1", 0⟩, ⟨"[a b]: ", 65535⟩, ⟨"", 3000⟩] ∧
    parseList " a:1,b:2" ≠ [⟨" a", 1⟩, ⟨"b", 2⟩] := by
  have hcolons : Listing [" ::1:0\t", "", "[a b]: :65535", "\n", ":3000"]
      [⟨"::1", 0⟩, ⟨"[a b]: ", 65535⟩, ⟨"", 3000⟩] := by
    apply Listing.host " " "\t" (by decide) (by decide) (by decide)
    apply Listing.blank (by decide)
    apply Listing.host "" "" (by decide) (by decide) (by decide)
    apply Listing.blank (by decide)
    exact Listing.host "" "" (by decide) (by decide) (by decide) Listing.nil
  have hlegible : ∀ host ∈ ([⟨"::1", 0⟩, ⟨"[a b]: ", 65535⟩, ⟨"", 3000⟩] : List Host),
      host.Legible := by
    simp only [List.forall_mem_cons]
    exact ⟨⟨by decide, by decide⟩, ⟨by decide, by decide⟩, ⟨by decide, by decide⟩, nofun⟩
  have hblank := listing_displays [⟨" a", 1⟩, ⟨"b", 2⟩]
  refine ⟨(listed_hosts_are_read_back_iff hcolons).mpr hlegible, fun hread => ?_⟩
  have hstart := ((listed_hosts_are_read_back_iff hblank).mp hread _ List.mem_cons_self).start
  exact absurd hstart (by decide)

end Host

end RecordDb
