import Mathlib.Algebra.Group.Nat.Defs
import Mathlib.Data.Set.Function
import Mathlib.Order.Interval.Set.Defs
import RecordDb.Proofs.Operation.Removals
import RecordDb.Proofs.Place.Spans

/-!
# What a reading answers under each return type

All answers are about the same entries in the same order, and a place that is told of an entry leads
back to it.
-/
namespace RecordDb.Selection

variable {entries found : Dict String Value} {op : MapOperation}

/-- The places that are told of the entries of a map, by their keys. -/
structure Story where
  index : String → Nat
  reverseIndex : String → Nat
  rank : String → Nat
  reverseRank : String → Nat

namespace Story

/-- The answer of a reading that has found some entries of a map, in this order. -/
def answer (s : Story) (entries found : Dict String Value) (single : Bool) :
    ReturnType → Option Value
  | .none => none
  | .index => some (reported single (found.map fun e => intOf (s.index e.1)))
  | .reverseIndex => some (reported single (found.map fun e => intOf (s.reverseIndex e.1)))
  | .rank => some (reported single (found.map fun e => intOf (s.rank e.1)))
  | .reverseRank => some (reported single (found.map fun e => intOf (s.reverseRank e.1)))
  | .count => some (intOf found.length)
  | .key => some (reported single (found.map fun e => .string e.1))
  | .value => some (reported single (found.map fun e => e.2))
  | .keyValue => some (.map (entries.filter fun e => e.1 ∈ Dict.keys found))

/-- Each entry has an index and a rank of its own, and its places from the other end. A reading by
its index or by its rank finds it. -/
structure Fits (s : Story) (entries : Dict String Value) : Prop where
  index_bijOn : Set.BijOn s.index {k | k ∈ Dict.keys entries} (Set.Iio entries.length)
  rank_bijOn : Set.BijOn s.rank {k | k ∈ Dict.keys entries} (Set.Iio entries.length)
  index_add : ∀ k ∈ Dict.keys entries, s.index k + s.reverseIndex k = entries.length - 1
  rank_add : ∀ k ∈ Dict.keys entries, s.rank k + s.reverseRank k = entries.length - 1
  byIndex : ∀ k ∈ Dict.keys entries, ∀ op : MapOperation, op.kind = .getByIndex →
    op.index = some (Int64.ofNat (s.index k)) → op.returnType = some .key →
    Evaluation.map entries op = .ok (entries, some (.string k))
  byRank : ∀ k ∈ Dict.keys entries, ∀ op : MapOperation, op.kind = .getByRank →
    op.rank = some (Int64.ofNat (s.rank k)) → op.returnType = some .key →
    Evaluation.map entries op = .ok (entries, some (.string k))

end Story

section Places

theorem bijOn_idxOf {α : Type} [DecidableEq α] {xs : List α} (h : xs.Nodup) :
    Set.BijOn xs.idxOf {x | x ∈ xs} (Set.Iio xs.length) := by
  refine ⟨fun x hx => List.idxOf_lt_length_of_mem hx, fun x hx y _ => (List.idxOf_inj hx).mp, ?_⟩
  intro i hi
  have hlt : i < xs.length := hi
  exact ⟨xs[i], List.getElem_mem hlt, h.idxOf_getElem i hlt⟩

/-- The place of a key in rank order. -/
def rankOf (entries : Dict String Value) (key : String) : Nat :=
  (rankOrder entries).idxOf (indexOf entries key)

theorem bijOn_indexOf (hasc : Dict.Ascending entries) :
    Set.BijOn (indexOf entries) {k | k ∈ Dict.keys entries} (Set.Iio entries.length) := by
  have hbij := bijOn_idxOf (Dict.nodup_keys hasc)
  rwa [Dict.keys, List.length_map] at hbij

theorem bijOn_rankOf (hasc : Dict.Ascending entries) :
    Set.BijOn (rankOf entries) {k | k ∈ Dict.keys entries} (Set.Iio entries.length) := by
  have hbij := bijOn_idxOf (addresses_rankOrder entries).nodup
  have horder : {i | i ∈ rankOrder entries} = Set.Iio entries.length := by
    ext i
    exact mem_rankOrder
  rw [horder, length_rankOrder] at hbij
  exact hbij.comp (bijOn_indexOf hasc)

theorem element?_ofNat {n i : Nat} (hi : i < n) (hn : n < 2 ^ 63) :
    Place.element? n (Int64.ofNat i) = some i := by
  apply Place.element?_eq_some_iff.mpr
  rw [Int64.toInt_ofNat_of_lt (by omega)]
  exact ⟨hi, .inl rfl⟩

/-- A reading that addresses one entry answers with its key. -/
theorem map_of_select_single (hasc : Dict.Ascending entries) {k : String}
    (hk : k ∈ Dict.keys entries) (hread : op.kind.isWrite = false) (hsingle : isSingle op.kind)
    (hreturn : op.returnType = some .key) (h : select entries op = .ok [indexOf entries k]) :
    Evaluation.map entries op = .ok (entries, some (.string k)) := by
  obtain ⟨e, he, rfl⟩ := List.mem_map.mp hk
  rw [map_of_addressed hasc h hreturn, report, ← addressed, remaining, hread, hsingle, addressed,
    List.filterMap_cons_some (getElem?_indexOf hasc he)]
  rfl

end Places

/-- The places that the answers tell. -/
def storyOf (entries : Dict String Value) : Story where
  index := indexOf entries
  reverseIndex k := entries.length - 1 - indexOf entries k
  rank := rankOf entries
  reverseRank k := entries.length - 1 - rankOf entries k

theorem storyOf_fits (hasc : Dict.Ascending entries) (hsize : entries.length < 2 ^ 63) :
    (storyOf entries).Fits entries where
  index_bijOn := bijOn_indexOf hasc
  rank_bijOn := bijOn_rankOf hasc
  index_add k hk := by
    have hlt : indexOf entries k < entries.length := (bijOn_indexOf hasc).mapsTo hk
    simp only [storyOf]
    omega
  rank_add k hk := by
    have hlt : rankOf entries k < entries.length := (bijOn_rankOf hasc).mapsTo hk
    simp only [storyOf]
    omega
  byIndex k hk op hkind hindex hreturn := by
    have hlt : indexOf entries k < entries.length := (bijOn_indexOf hasc).mapsTo hk
    have hselect : select entries op = .ok [indexOf entries k] := by
      simp only [select, hkind, hindex, Evaluated.required, storyOf, bind, Except.bind,
        element?_ofNat hlt hsize, Option.toList_some]
      rfl
    apply map_of_select_single hasc hk _ _ hreturn hselect
    · rw [hkind]
      rfl
    · rw [hkind]
      rfl
  byRank k hk op hkind hrank hreturn := by
    have hlt : rankOf entries k < entries.length := (bijOn_rankOf hasc).mapsTo hk
    have hmem : indexOf entries k ∈ rankOrder entries :=
      mem_rankOrder.mpr ((bijOn_indexOf hasc).mapsTo hk)
    have horder : (rankOrder entries)[rankOf entries k]? = some (indexOf entries k) :=
      List.getElem?_idxOf hmem
    have hselect : select entries op = .ok [indexOf entries k] := by
      simp only [select, hkind, hrank, Evaluated.required, storyOf, bind, Except.bind,
        element?_ofNat hlt hsize, Option.bind, horder, Option.toList_some]
      rfl
    apply map_of_select_single hasc hk _ _ hreturn hselect
    · rw [hkind]
      rfl
    · rw [hkind]
      rfl

section Answers

variable (hasc : Dict.Ascending entries) (hfound : ∀ e ∈ found, e ∈ entries)
include hasc hfound

theorem addressed_map_indexOf :
    addressed entries (found.map fun e => indexOf entries e.1) = found := by
  rw [addressed, List.filterMap_map]
  conv_rhs => rw [← List.filterMap_some (l := found)]
  apply List.filterMap_congr
  intro e he
  exact getElem?_indexOf hasc (hfound e he)

/-- The pairs of keys and values are the entries that were found. -/
theorem ofList_eq_filter (hnodup : (Dict.keys found).Nodup) :
    Dict.ofList found = entries.filter fun e => e.1 ∈ Dict.keys found := by
  apply Dict.eq_of_perm (Dict.ascending_insertAll Dict.ascending_nil found) (hasc.filter _)
  apply (Dict.ofList_perm hnodup).trans
  have hentries : entries.Nodup := List.Nodup.of_map Prod.fst (Dict.nodup_keys hasc)
  apply (List.perm_ext_iff_of_nodup (List.Nodup.of_map Prod.fst hnodup) (hentries.filter _)).mpr
  intro e
  rw [List.mem_filter, decide_eq_true_eq]
  constructor
  · intro he
    exact ⟨hfound e he, List.mem_map_of_mem he⟩
  · rintro ⟨he, hkey⟩
    obtain ⟨e', he', hsame⟩ := List.mem_map.mp hkey
    have heq : e' = e := List.inj_on_of_nodup_map (Dict.nodup_keys hasc) (hfound e' he') he hsame
    exact heq ▸ he'

/-- A report on entries tells each of them by the return type. -/
theorem report_eq_answer (hnodup : (Dict.keys found).Nodup) (t : ReturnType) (single : Bool) :
    report entries (found.map fun e => indexOf entries e.1) t single
      = (storyOf entries).answer entries found single t := by
  have haddressed := addressed_map_indexOf hasc hfound
  rw [addressed] at haddressed
  cases t with
  | none => rfl
  | count => exact congrArg (some ∘ intOf) (List.length_map _)
  | index | reverseIndex | rank | reverseRank =>
    simp only [report, List.map_map]
    rfl
  | key | value =>
    simp only [report, haddressed]
    rfl
  | keyValue =>
    simp only [report, haddressed, ofList_eq_filter hasc hfound hnodup]
    rfl

end Answers

theorem exists_removal? {kind : MapKind} (hread : kind.isWrite = false) (hsize : kind ≠ .size) :
    ∃ removal, kind.removal? = some removal := by
  cases kind with
  | size => exact absurd rfl hsize
  | getByKey | getByKeyRange | getByValue | getByValueRange | getByIndex | getByIndexRange
  | getByRank | getByRankRange => exact ⟨_, rfl⟩
  | _ => cases hread

/-- The return types tell one story of the entries of a map, in which each has an index and a rank of
its own. A reading fails whatever it is to return, or its answers tell of the same entries in the same
order, which are those that it has selected. (Places have 64 bits, and no map in memory has more
entries.) -/
theorem return_types_tell_one_story (hasc : Dict.Ascending entries)
    (hsize : entries.length < 2 ^ 63) :
    ∃ story : Story, story.Fits entries ∧
      ∀ op : MapOperation, op.kind.isWrite = false → op.kind ≠ .size →
        (∃ e, select entries op = .error e ∧
          ∀ t, Evaluation.map entries { op with returnType := some t } = .error e) ∨
        ∃ found : Dict String Value, found.Nodup ∧ (∀ e ∈ found, e ∈ entries) ∧
          select entries op = .ok (found.map fun e => story.index e.1) ∧
          ∀ t, Evaluation.map entries { op with returnType := some t }
            = .ok (entries, story.answer entries found (isSingle op.kind) t) := by
  refine ⟨storyOf entries, storyOf_fits hasc hsize, ?_⟩
  intro op hread hkind
  obtain ⟨removal, hremoval⟩ := exists_removal? hread hkind
  cases hselect : select entries op with
  | error e =>
    refine .inl ⟨e, rfl, ?_⟩
    intro t
    let read := { op with returnType := some t }
    have hsame : read.kind.removal? = some removal := hremoval
    exact (map_of_select_error hsame hselect).1
  | ok selected =>
    have haddresses := addresses_of_select hselect
    have hindexes := map_indexOf_addressed hasc haddresses.lt
    have hfound : ∀ e ∈ addressed entries selected, e ∈ entries := fun e => mem_of_mem_addressed
    have hnodup : (Dict.keys (addressed entries selected)).Nodup := by
      apply List.Nodup.of_map (indexOf entries)
      have hmap : (Dict.keys (addressed entries selected)).map (indexOf entries) = selected := by
        rw [Dict.keys, List.map_map]
        exact hindexes
      rw [hmap]
      exact haddresses.nodup
    refine .inr ⟨addressed entries selected, nodup_addressed hasc haddresses, hfound, ?_, ?_⟩
    · exact congrArg Except.ok hindexes.symm
    · intro t
      have hsame : select entries { op with returnType := some t } = .ok selected := hselect
      rw [← report_eq_answer hasc hfound hnodup, hindexes, map_of_addressed hasc hsame rfl]
      simp only [remaining, hread, Bool.false_eq_true, if_false]

/-- Readings of a map in which a NaN ties with the other numbers. -/
theorem return_types_tell_one_story_nan :
    let entries : Dict String Value :=
      [("a", .int 2), ("b", .float ⟨0x7ff8000000000000⟩), ("c", .int 1), ("d", .string "x")]
    let op := { MapOperation.new .getByValue "m" with value := some (.int 1) }
    Dict.Ascending entries ∧ entries.length < 2 ^ 63 ∧
    ∃ (story : Story) (found : Dict String Value), story.Fits entries ∧
      Dict.keys found = ["b", "c"] ∧
      Evaluation.map entries { op with returnType := some .rank }
        = .ok (entries, some (.list (found.map fun e => intOf (story.rank e.1)))) := by
  intro entries op
  have hasc : Dict.Ascending entries := by decide +kernel
  have hsize : entries.length < 2 ^ 63 := by decide
  have hkeys : Evaluation.map entries { op with returnType := some .key }
      = .ok (entries, some (.list [.string "b", .string "c"])) := rfl
  obtain ⟨story, hfits, hops⟩ := return_types_tell_one_story hasc hsize
  refine ⟨hasc, hsize, story, ?_⟩
  rcases hops op rfl (by decide) with ⟨e, -, herror⟩ | ⟨found, -, -, -, hanswer⟩
  · have hfailed := hkeys.symm.trans (herror .key)
    cases hfailed
  · refine ⟨found, hfits, ?_, hanswer .rank⟩
    have hlisted := hkeys.symm.trans (hanswer .key)
    simp only [Except.ok.injEq, Prod.mk.injEq, true_and, Story.answer, Option.some.injEq] at hlisted
    have hfound := congrArg listedKeys hlisted
    have hlist : isSingle op.kind = false := rfl
    rw [listedKeys_reported (by simp [hlist])] at hfound
    exact hfound.symm

end RecordDb.Selection
