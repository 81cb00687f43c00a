import RecordDb.Proofs.Session.Guard
import RecordDb.Proofs.Session.Polls
import RecordDb.Proofs.Store.Modules

/-!
# Waits for a module

A node lists the names of its modules between commas and semicolons, as they are, and a name is
looked for among what is found between them, trimmed. So a wait sees a module if its name has
nothing in it at which the list is cut or trimmed, and misses it for good otherwise.
-/
namespace RecordDb

open Text

namespace UdfModule

/-- The entry of a module in a list of modules. -/
def entry (module : String) : String := "filename=" ++ module ++ ",hash=0,type=LUA"

/-- A name that comes back out of a list of modules as it was. -/
structure Legible (module : String) : Prop where
  comma : ',' ∉ module.toList
  semicolon : ';' ∉ module.toList
  line : '\n' ∉ module.toList
  trimmed : trim module.toList = module.toList

theorem toList_entry (module : String) :
    (entry module).toList =
      ("filename".toList ++ '=' :: module.toList) ++ ',' :: "hash=0,type=LUA".toList := by
  rw [entry, String.toList_append, String.toList_append]
  rfl

theorem not_mem_entry {c : Char} {module : String} (hentry : c ∉ (entry "").toList)
    (h : c ∉ module.toList) : c ∉ (entry module).toList := by
  simp only [toList_entry, List.mem_append, List.mem_cons, not_or] at hentry ⊢
  exact ⟨⟨hentry.1.1, hentry.1.2.1, h⟩, hentry.2⟩

theorem isListed_append (list rest module : String) :
    isListed (list ++ ";" ++ rest) module = (isListed list module || isListed rest module) := by
  rw [isListed, toList_joined ";" ';' rfl, splitAll_append, List.any_append]
  rfl

theorem isListed_intercalate (lists : List String) (module : String) :
    isListed (";".intercalate lists) module = lists.any (isListed · module) := by
  induction lists with
  | nil =>
    rw [String.intercalate_nil]
    rfl
  | cons list rest ih =>
    cases rest with
    | nil => rw [String.intercalate_singleton, List.any_cons, List.any_nil, Bool.or_false]
    | cons next rest =>
      rw [String.intercalate_cons_cons, isListed_append, ih]
      rfl

/-- An entry whose name is not cut lists that name, trimmed, and no other. -/
theorem isListed_entry {module : String} (hcomma : ',' ∉ module.toList)
    (hsemicolon : ';' ∉ module.toList) (other : String) :
    isListed (entry module) other = (String.ofList (trim module.toList) == other) := by
  have hfield : ',' ∉ "filename".toList ++ '=' :: module.toList := by
    rw [List.mem_append, List.mem_cons, not_or, not_or]
    exact ⟨by decide, by decide, hcomma⟩
  have hentry : ';' ∉ (entry module).toList := not_mem_entry (by decide) hsemicolon
  have hpairs : Info.pairs ',' (entry module).toList =
      ("filename", String.ofList (trim module.toList)) :: [("hash", "0"), ("type", "LUA")] := by
    rw [toList_entry, Info.pairs_append, Info.pairs_pair hfield (by decide)]
    exact congrArg₂ (· ++ ·) rfl (by decide)
  rw [isListed, splitAll_of_not_mem hentry, List.any_cons, List.any_nil, Bool.or_false, hpairs]
  simp

theorem of_isListed {list module : String} (h : isListed list module = true) :
    ',' ∉ module.toList ∧ ';' ∉ module.toList ∧ trim module.toList = module.toList ∧
      module.toList.Sublist list.toList := by
  obtain ⟨part, hpart, hnamed⟩ := List.any_eq_true.mp h
  obtain ⟨⟨name, value⟩, hpair, hvalue⟩ := List.any_eq_true.mp hnamed
  rw [← eq_of_beq (Bool.and_eq_true_iff.mp hvalue).2]
  obtain ⟨htrim, hcomma, hsub⟩ := Info.of_mem_pairs hpair
  exact ⟨hcomma, fun hs => not_mem_of_mem_splitAll hpart (hsub.subset hs), htrim,
    hsub.trans (sublist_of_mem_splitAll hpart)⟩

theorem isListed_entry_of_legible {module : String} (h : Legible module) (other : String) :
    isListed (entry module) other = true ↔ module = other := by
  rw [isListed_entry h.comma h.semicolon, h.trimmed, String.ofList_toList, beq_iff_eq]

end UdfModule

namespace Store

theorem moduleList_eq (s : Store) :
    s.moduleList = ";".intercalate ((Dict.keys s.modules).map UdfModule.entry) := rfl

/-- A list of modules names what one of its entries names. -/
theorem isListed_moduleList (s : Store) (module : String) :
    UdfModule.isListed s.moduleList module = true ↔
      ∃ registered, Dict.contains s.modules registered = true ∧
        UdfModule.isListed (UdfModule.entry registered) module = true := by
  rw [moduleList_eq, UdfModule.isListed_intercalate, List.any_map, List.any_eq_true]
  simp only [Dict.mem_keys_iff, Function.comp_apply]

theorem newline_not_mem_moduleList {s : Store}
    (h : ∀ module, Dict.contains s.modules module = true → '\n' ∉ module.toList) :
    '\n' ∉ s.moduleList.toList := by
  have hentries : ∀ entry ∈ (Dict.keys s.modules).map UdfModule.entry, '\n' ∉ entry.toList := by
    intro entry hentry
    obtain ⟨module, hmodule, rfl⟩ := List.mem_map.mp hentry
    have hline := h module ((Dict.mem_keys_iff _ _).mp hmodule)
    exact UdfModule.not_mem_entry (by decide) hline
  rw [moduleList_eq]
  exact not_mem_intercalate (by decide) hentries

/-- A list of one line is what its answer says. -/
theorem reported_udfList {s : Store}
    (h : ∀ module, Dict.contains s.modules module = true → '\n' ∉ module.toList) :
    s.reported "udf-list" = some s.moduleList := by
  have hvalue : s.infoValue "udf-list" = s.moduleList := rfl
  rw [← hvalue]
  exact reported_eq (by decide) (hvalue ▸ newline_not_mem_moduleList h)

theorem legible_of_reported {s : Store} {module : String}
    (h : (s.reported "udf-list").any (UdfModule.isListed · module) = true) :
    UdfModule.Legible module := by
  obtain ⟨list, hlist, hlisted⟩ := (Option.any_eq_true _ _).mp h
  obtain ⟨hcomma, hsemicolon, htrimmed, hsub⟩ := UdfModule.of_isListed hlisted
  exact ⟨hcomma, hsemicolon, fun hline => (of_reported hlist).2 (hsub.subset hline), htrimmed⟩

/-- Other modules do not hide one whose name is legible. -/
theorem reported_of_legible {s : Store} {module : String}
    (h : ∀ module, Dict.contains s.modules module = true → '\n' ∉ module.toList)
    (hthere : Dict.contains s.modules module = true) (hlegible : UdfModule.Legible module) :
    (s.reported "udf-list").any (UdfModule.isListed · module) = true := by
  rw [reported_udfList h, Option.any_some, isListed_moduleList]
  exact ⟨module, hthere, (UdfModule.isListed_entry_of_legible hlegible module).mpr rfl⟩

theorem reported_iff_contains {s : Store}
    (h : ∀ module, Dict.contains s.modules module = true → UdfModule.Legible module)
    (module : String) :
    (s.reported "udf-list").any (UdfModule.isListed · module) = true ↔
      Dict.contains s.modules module = true := by
  have hlines := fun module hthere => (h module hthere).line
  refine ⟨fun hlisted => ?_, fun hthere => reported_of_legible hlines hthere (h module hthere)⟩
  rw [reported_udfList hlines, Option.any_some, isListed_moduleList] at hlisted
  obtain ⟨registered, hthere, hentry⟩ := hlisted
  rwa [← (UdfModule.isListed_entry_of_legible (h registered hthere) module).mp hentry]

end Store

namespace Session

/-- One poll of a wait for the module of a path. -/
def pollModule (s : Session) (c : Nat) (path : String) : Session × Except Error Bool :=
  s.poll c "udf-list" (UdfModule.isListed · (UdfModule.fileName path))

theorem Serves.pollModule_eq_true {s : Session} {c : Nat} (h : s.Serves c) (path : String) :
    (s.pollModule c path).2 = .ok true ↔
      (s.transport.store.reported "udf-list").any
        (UdfModule.isListed · (UdfModule.fileName path)) = true := by
  rw [pollModule, h.poll_eq]
  dsimp only
  rw [Except.ok.injEq]

/-- The first poll for a module decides the wait. While the names of all modules are of one line, a
registered module is reported as listed exactly if its name is legible, whatever others there are;
and the reports are right for all paths exactly if all registered names are legible. -/
theorem registered_modules_are_seen_iff {s : Session} {c : Nat} (h : s.Serves c)
    {run : List (Cluster × Request)} (hs : s.transport.store = Store.empty.after run) :
    (∀ path, ∃ listed, (s.pollModule c path).2 = .ok listed ∧
      ∀ polls, (s.pollUntil c "udf-list" (UdfModule.isListed · (UdfModule.fileName path))
        (polls + 1)).2 = if listed then some (.ok ()) else none) ∧
    ((∀ module, Registered run module → '\n' ∉ module.toList) →
      ∀ path, Registered run (UdfModule.fileName path) →
        ((s.pollModule c path).2 = .ok true ↔ UdfModule.Legible (UdfModule.fileName path))) ∧
    ((∀ path, (s.pollModule c path).2 = .ok true ↔ Registered run (UdfModule.fileName path)) ↔
      ∀ module, Registered run module → UdfModule.Legible module) := by
  have hthere (module : String) :
      Dict.contains s.transport.store.modules module = true ↔ Registered run module :=
    hs ▸ Store.contains_modules_after run module
  simp only [h.pollModule_eq_true, ← hthere]
  refine ⟨fun path => ⟨_, congrArg Prod.snd (h.poll_eq _ _), h.pollUntil_snd _ _⟩, ?_, ?_⟩
  · intro hlines path hregistered
    exact ⟨Store.legible_of_reported, Store.reported_of_legible hlines hregistered⟩
  · refine ⟨fun hseen module hregistered => ?_, fun hlegible path =>
      Store.reported_iff_contains hlegible _⟩
    obtain ⟨path, rfl⟩ := ((hthere module).mp hregistered).exists_path
    exact Store.legible_of_reported ((hseen path).mpr hregistered)

def commaRun : List (Cluster × Request) :=
  [(.sample, .udfRegister "/opt/udf/a,b.lua" .lua none),
    (.sample, .udfRegister "/opt/udf/agg.lua" .lua none)]

/-- A store with a module that has a comma in its name, and another one. -/
def commaModules : Session :=
  halfConnected.after [.command 0 (.udfRegister "/opt/udf/a,b.lua" none none),
    .command 0 (.udfRegister "/opt/udf/agg.lua" none none)]

theorem serves_commaModules : commaModules.Serves 0 where
  connected := rfl
  prepared := rfl
  nodes := List.cons_ne_nil _ _

theorem registered_commaRun_iff (module : String) :
    Registered commaRun module ↔ module ∈ ["a,b.lua", "agg.lua"] := by
  have hkeys : Dict.keys (Store.empty.after commaRun).modules = ["a,b.lua", "agg.lua"] := by decide
  rw [← Store.contains_modules_after, ← Dict.mem_keys_iff, hkeys]

/-- The module with a comma is waited for in vain. -/
theorem registered_modules_are_seen_iff_comma :
    (commaModules.pollModule 0 "/opt/udf/agg.lua").2 = .ok true ∧
    Registered commaRun "a,b.lua" ∧
    ∀ polls, (commaModules.pollUntil 0 "udf-list" (UdfModule.isListed · "a,b.lua")
      (polls + 1)).2 = none := by
  have hrun : commaModules.transport.store = Store.empty.after commaRun := rfl
  obtain ⟨hpolls, hseen, -⟩ := registered_modules_are_seen_iff serves_commaModules hrun
  have hlines (module : String) (h : Registered commaRun module) : '\n' ∉ module.toList := by
    have hline : ∀ module ∈ ["a,b.lua", "agg.lua"], '\n' ∉ module.toList := by decide
    exact hline module ((registered_commaRun_iff module).mp h)
  have hcomma : Registered commaRun "a,b.lua" := (registered_commaRun_iff _).mpr (by decide)
  have hagg : Registered commaRun "agg.lua" := (registered_commaRun_iff _).mpr (by decide)
  obtain ⟨listed, hlisted, hlater⟩ := hpolls "/opt/udf/a,b.lua"
  have hunseen : listed = false := by
    refine Bool.eq_false_iff.mpr fun hl => ?_
    rw [hl] at hlisted
    exact absurd ((hseen hlines "/opt/udf/a,b.lua" hcomma).mp hlisted).comma (by decide)
  refine ⟨(hseen hlines "/opt/udf/agg.lua" hagg).mpr ?_, hcomma, fun polls => ?_⟩
  · exact ⟨by decide, by decide, by decide, by decide⟩
  · exact (hlater polls).trans (by rw [hunseen]; rfl)

end Session

end RecordDb
