import Mathlib.Data.Set.Basic
import RecordDb.Proofs.Binary64.Rounding
import RecordDb.Proofs.Dict.Ascending
import RecordDb.Value.Order

/-!
# Laws of the order of values

The order of values can be read either way round, but it is a preorder only over numbers that are
compared consistently: a NaN ties with every number, and an integer with the double that it is
rounded to, so that either may tie with two numbers of which one is the larger.
-/
namespace RecordDb

/-- How the comparisons of three elements of a total preorder go together: one that ties may be
left out, and two of the same outcome give the third. -/
structure Chained (ab bc ac : Ordering) : Prop where
  left : ab = .eq → ac = bc
  right : bc = .eq → ac = ab
  both : ab = bc → ac = ab

namespace Chained

theorem of_transCmp {α : Type} (cmp : α → α → Ordering) [Std.TransCmp cmp] (a b c : α) :
    Chained (cmp a b) (cmp b c) (cmp a c) where
  left h := Std.TransCmp.congr_left h
  right h := (Std.TransCmp.congr_right h).symm
  both h := by
    cases hab : cmp a b with
    | lt => exact Std.TransCmp.lt_trans hab (h ▸ hab)
    | eq => exact Std.TransCmp.eq_trans hab (h ▸ hab)
    | gt => exact Std.TransCmp.gt_trans hab (h ▸ hab)

theorem isLE {ab bc ac : Ordering} (h : Chained ab bc ac) (hab : ab.isLE) (hbc : bc.isLE) :
    ac.isLE := by
  cases ab with
  | eq => rwa [h.left rfl]
  | gt => cases hab
  | lt =>
    cases bc with
    | lt => rwa [h.both rfl]
    | eq => rwa [h.right rfl]
    | gt => cases hbc

/-- Where the first comparisons all tie, second ones decide. -/
theorem lexicographic {ab bc ac ab' bc' ac' : Ordering} (h : Chained ab bc ac)
    (h' : ab = .eq → bc = .eq → Chained ab' bc' ac') :
    Chained (ab.then ab') (bc.then bc') (ac.then ac') := by
  cases ab with
  | eq =>
    have hac : ac = bc := h.left rfl
    subst hac
    cases ac with
    | eq => exact h' rfl rfl
    | lt | gt => constructor <;> simp [eq_comm]
  | lt | gt =>
    cases bc with
    | eq =>
      have hac := h.right rfl
      subst hac
      constructor <;> simp
    | lt | gt =>
      have hboth := h.both
      constructor <;> simp_all

end Chained

namespace Value

section Comparisons

instance : Std.TransCmp compareInts :=
  inferInstanceAs (Std.TransCmp fun a b : Int => Ord.compare a b)

theorem compareInts_eq_iff {a b : Int} : compareInts a b = .eq ↔ a = b := by
  rw [compareInts]
  split
  · simp
    omega
  · split <;> simp [*]

theorem compareInts_swap (a b : Int) : compareInts a b = (compareInts b a).swap :=
  Std.OrientedCmp.eq_swap

variable {κ : Type} [DecidableEq κ] [KeyOrder κ]

theorem compareKeys_eq_iff {a b : κ} : compareKeys a b = .eq ↔ a = b := by
  rw [compareKeys]
  split
  · simp [*]
  · split <;> simp [*]

variable [LawfulKeyOrder κ]

theorem compareKeys_lt_iff {a b : κ} : compareKeys a b = .lt ↔ KeyOrder.before a b := by
  by_cases h : a = b
  · simp [compareKeys, h, LawfulKeyOrder.irrefl]
  · by_cases hb : KeyOrder.before a b <;> simp [compareKeys, h, hb]

theorem compareKeys_swap (a b : κ) : compareKeys a b = (compareKeys b a).swap := by
  by_cases h : a = b
  · simp [compareKeys, h]
  · have h' : b ≠ a := fun he => h he.symm
    rcases LawfulKeyOrder.total h with hb | hb
    · simp [compareKeys, h, h', hb, LawfulKeyOrder.asymm hb]
    · simp [compareKeys, h, h', hb, LawfulKeyOrder.asymm hb]

instance : Std.TransCmp (compareKeys (κ := κ)) where
  eq_swap := compareKeys_swap _ _
  isLE_trans {a b c} hab hbc := by
    rw [Ordering.isLE_iff_eq_lt_or_eq_eq, compareKeys_lt_iff, compareKeys_eq_iff] at *
    rcases hab with hab | rfl
    · rcases hbc with hbc | rfl
      · exact .inl (LawfulKeyOrder.trans hab hbc)
      · exact .inl hab
    · exact hbc

end Comparisons

section Floats

theorem compareFloats_of_keys {x y : Binary64} {k l : Int} (hx : x.orderKey? = some k)
    (hy : y.orderKey? = some l) : compareFloats x y = compareInts k l := by
  simp [compareFloats, Binary64.compare?, hx, hy, compareInts]

theorem compareFloats_of_nan {x y : Binary64} (h : x.orderKey? = none ∨ y.orderKey? = none) :
    compareFloats x y = .eq := by
  rcases h with h | h
  · simp [compareFloats, Binary64.compare?, h]
  · cases hx : x.orderKey? <;> simp [compareFloats, Binary64.compare?, h, hx]

theorem compareFloats_swap (x y : Binary64) : compareFloats x y = (compareFloats y x).swap := by
  cases hx : x.orderKey? with
  | none => rw [compareFloats_of_nan (.inl hx), compareFloats_of_nan (.inr hx), Ordering.swap]
  | some k =>
    cases hy : y.orderKey? with
    | none => rw [compareFloats_of_nan (.inr hy), compareFloats_of_nan (.inl hy), Ordering.swap]
    | some l =>
      rw [compareFloats_of_keys hx hy, compareFloats_of_keys hy hx, compareInts_swap]

end Floats

section Swap

mutual

/-- The order can be read from the other side. -/
theorem compare_swap (v w : Value) : v.compare w = (w.compare v).swap := by
  cases v with
  | list as =>
    cases w with
    | list bs => exact compareItems_swap as bs
    | _ => exact compareInts_swap _ _
  | nil | bool | map =>
    cases w <;> exact compareInts_swap _ _
  | string | blob | geo =>
    cases w <;> first
      | exact compareKeys_swap _ _
      | exact compareInts_swap _ _
  | int | float =>
    cases w <;> first
      | exact compareFloats_swap _ _
      | exact compareInts_swap _ _

theorem compareItems_swap (as bs : List Value) :
    compareItems as bs = (compareItems bs as).swap := by
  cases as with
  | nil => cases bs <;> rfl
  | cons a as =>
    cases bs with
    | nil => rfl
    | cons b bs =>
      rw [compareItems, compareItems, compare_swap a b]
      cases b.compare a with
      | eq => exact compareItems_swap as bs
      | lt | gt => rfl

end

instance : Std.OrientedCmp compare := ⟨compare_swap _ _⟩

end Swap

section Numbers

def isNumber (v : Value) : Bool := v.asFloat?.isSome

theorem isNumber_iff {v : Value} : v.isNumber ↔ (∃ i, v = int i) ∨ ∃ x, v = float x := by
  cases v <;> simp [isNumber, asFloat?]

/-- Numbers of which none ties with two that differ. -/
structure Consistent (N : Set Value) : Prop where
  nan {x : Binary64} : float x ∈ N → x.isNaN → ∀ v ∈ N, ∀ w ∈ N, v.isNumber → w.isNumber →
    v.compare w = .eq
  rounding {x : Binary64} {i j : Int64} : float x ∈ N → int i ∈ N → int j ∈ N →
    (int i).compare (float x) = .eq → (int j).compare (float x) = .eq → i = j

/-- Two integers `i` and `j` beside a double `z`, with which they are compared as the doubles `p`
and `q`, keeping their order. They chain if they do not both tie with it. -/
theorem chained_ints_double {i j p q z : Int} (hle : i ≤ j → p ≤ q) (hge : j ≤ i → q ≤ p)
    (hz : p = z → q = z → i = j) :
    Chained (compareInts i j) (compareInts q z) (compareInts p z) ∧
    Chained (compareInts p z) (compareInts z q) (compareInts i j) ∧
    Chained (compareInts z p) (compareInts i j) (compareInts z q) := by
  refine ⟨?_, ?_, ?_⟩ <;> constructor <;> simp only [compareInts] <;> split_ifs <;> simp <;> omega

section Keys
variable {x y : Binary64} {k l : Int} (hx : x.orderKey? = some k) (hy : y.orderKey? = some l)
include hx

theorem compare_int_float (i : Int64) :
    (int i).compare (float x) = compareInts (Binary64.integerKey i.toInt) k :=
  compareFloats_of_keys (Binary64.orderKey?_ofInt _) hx

theorem compare_float_int (i : Int64) :
    (float x).compare (int i) = compareInts k (Binary64.integerKey i.toInt) :=
  compareFloats_of_keys hx (Binary64.orderKey?_ofInt _)

include hy in
theorem compare_float_float : (float x).compare (float y) = compareInts k l :=
  compareFloats_of_keys hx hy

end Keys

variable {N : Set Value}

/-- Two integers that tie with one double of the set are one. -/
theorem Consistent.eq_of_integerKey (hN : Consistent N) {x : Binary64} {k : Int}
    (hk : x.orderKey? = some k) (hx : float x ∈ N) {i j : Int64} (hi : int i ∈ N) (hj : int j ∈ N)
    (hik : Binary64.integerKey i.toInt = k) (hjk : Binary64.integerKey j.toInt = k) :
    i.toInt = j.toInt := by
  have heq : i = j := by
    apply hN.rounding hx hi hj
    · rw [compare_int_float hk, compareInts_eq_iff, hik]
    · rw [compare_int_float hk, compareInts_eq_iff, hjk]
  rw [heq]

/-- Without a NaN, doubles are compared as their places and integers as they are, or as the doubles
they are rounded to. -/
theorem chained_of_no_nan (hN : Consistent N) (hnan : ∀ x, float x ∈ N → x.isNaN = false)
    {a b c : Value} (ha : a ∈ N) (hb : b ∈ N) (hc : c ∈ N) (han : a.isNumber) (hbn : b.isNumber)
    (hcn : c.isNumber) : Chained (a.compare b) (b.compare c) (a.compare c) := by
  have hplace {x : Binary64} (hx : float x ∈ N) : ∃ k, x.orderKey? = some k := by
    rw [Binary64.orderKey?, hnan x hx]
    exact ⟨_, rfl⟩
  have hmono {i j : Int64} : i.toInt ≤ j.toInt → _ := Binary64.integerKey_mono
  rcases isNumber_iff.mp han with ⟨i, rfl⟩ | ⟨x, rfl⟩
  · rcases isNumber_iff.mp hbn with ⟨j, rfl⟩ | ⟨y, rfl⟩
    · rcases isNumber_iff.mp hcn with ⟨k, rfl⟩ | ⟨z, rfl⟩
      · exact Chained.of_transCmp compareInts _ _ _
      · obtain ⟨r, hr⟩ := hplace hc
        rw [compare_int_float hr, compare_int_float hr]
        exact (chained_ints_double hmono hmono (hN.eq_of_integerKey hr hc ha hb)).1
    · obtain ⟨q, hq⟩ := hplace hb
      rcases isNumber_iff.mp hcn with ⟨k, rfl⟩ | ⟨z, rfl⟩
      · rw [compare_int_float hq, compare_float_int hq]
        exact (chained_ints_double hmono hmono (hN.eq_of_integerKey hq hb ha hc)).2.1
      · obtain ⟨r, hr⟩ := hplace hc
        rw [compare_int_float hq, compare_float_float hq hr, compare_int_float hr]
        exact Chained.of_transCmp compareInts _ _ _
  · obtain ⟨p, hp⟩ := hplace ha
    rcases isNumber_iff.mp hbn with ⟨j, rfl⟩ | ⟨y, rfl⟩
    · rcases isNumber_iff.mp hcn with ⟨k, rfl⟩ | ⟨z, rfl⟩
      · rw [compare_float_int hp, compare_float_int hp]
        exact (chained_ints_double hmono hmono (hN.eq_of_integerKey hp ha hb hc)).2.2
      · obtain ⟨r, hr⟩ := hplace hc
        rw [compare_float_int hp, compare_int_float hr, compare_float_float hp hr]
        exact Chained.of_transCmp compareInts _ _ _
    · obtain ⟨q, hq⟩ := hplace hb
      rcases isNumber_iff.mp hcn with ⟨k, rfl⟩ | ⟨z, rfl⟩
      · rw [compare_float_float hp hq, compare_float_int hq, compare_float_int hp]
        exact Chained.of_transCmp compareInts _ _ _
      · obtain ⟨r, hr⟩ := hplace hc
        rw [compare_float_float hp hq, compare_float_float hq hr, compare_float_float hp hr]
        exact Chained.of_transCmp compareInts _ _ _

theorem chained_numbers (hN : Consistent N) {a b c : Value} (ha : a ∈ N) (hb : b ∈ N) (hc : c ∈ N)
    (han : a.isNumber) (hbn : b.isNumber) (hcn : c.isNumber) :
    Chained (a.compare b) (b.compare c) (a.compare c) := by
  by_cases hnan : ∃ x, float x ∈ N ∧ x.isNaN
  · -- where there is a NaN all numbers tie
    obtain ⟨x, hx, hxn⟩ := hnan
    have htie := hN.nan hx hxn
    rw [htie a ha b hb han hbn, htie b hb c hc hbn hcn, htie a ha c hc han hcn]
    constructor <;> simp
  · apply chained_of_no_nan hN _ ha hb hc han hbn hcn
    intro x hx
    by_contra hxn
    exact hnan ⟨x, hx, by simpa using hxn⟩

end Numbers

section Values

mutual

/-- Whether the numbers of a value are among some. A map has none, for it is compared by its
size. -/
def Over (N : Set Value) : Value → Prop
  | int i => int i ∈ N
  | float x => float x ∈ N
  | list items => OverItems N items
  | _ => True

def OverItems (N : Set Value) : List Value → Prop
  | [] => True
  | v :: rest => Over N v ∧ OverItems N rest

end

variable {N : Set Value}

theorem over_iff_mem {v : Value} (hv : v.isNumber) : Over N v ↔ v ∈ N := by
  rcases isNumber_iff.mp hv with ⟨i, rfl⟩ | ⟨x, rfl⟩
  · rfl
  · rfl

theorem isNumber_of_rank {v : Value} (h : v.kindRank = 2) : v.isNumber := by
  cases v with
  | int | float => rfl
  | _ => cases h

theorem compare_of_rank_ne {v w : Value} (h : v.kindRank ≠ w.kindRank) :
    v.compare w = compareInts v.kindRank w.kindRank := by
  cases v <;> cases w <;> first | rfl | exact absurd rfl h

/-- Kinds decide first, which leaves the values of one kind. -/
theorem compare_eq_then (v w : Value) :
    v.compare w = (compareInts v.kindRank w.kindRank).then (v.compare w) := by
  by_cases h : v.kindRank = w.kindRank
  · rw [compareInts_eq_iff.mpr (by rw [h]), Ordering.eq_then]
  · rw [compare_of_rank_ne h]
    cases compareInts v.kindRank w.kindRank <;> rfl

theorem compareItems_cons (a b : Value) (as bs : List Value) :
    compareItems (a :: as) (b :: bs) = (a.compare b).then (compareItems as bs) := by
  rw [compareItems]
  cases a.compare b <;> rfl

mutual

theorem compare_chained (hN : Consistent N) (a b c : Value) (ha : Over N a) (hb : Over N b)
    (hc : Over N c) : Chained (a.compare b) (b.compare c) (a.compare c) := by
  rw [compare_eq_then a b, compare_eq_then b c, compare_eq_then a c]
  apply (Chained.of_transCmp compareInts a.kindRank b.kindRank c.kindRank).lexicographic
  intro hab hbc
  rw [compareInts_eq_iff, Int.natCast_inj] at hab hbc
  cases a with
  | nil =>
    cases b with
    | nil =>
      cases c with
      | nil => exact Chained.of_transCmp compareInts 0 0 0
      | _ => cases hbc
    | _ => cases hab
  | bool x =>
    cases b with
    | bool y =>
      cases c with
      | bool z => exact Chained.of_transCmp compareInts _ _ _
      | _ => cases hbc
    | _ => cases hab
  | int | float =>
    have hbn : b.isNumber := isNumber_of_rank hab.symm
    have hcn : c.isNumber := isNumber_of_rank (hab.trans hbc).symm
    exact chained_numbers hN ha ((over_iff_mem hbn).mp hb) ((over_iff_mem hcn).mp hc) rfl hbn hcn
  | string s =>
    cases b with
    | string t =>
      cases c with
      | string u => exact Chained.of_transCmp compareKeys s t u
      | _ => cases hbc
    | _ => cases hab
  | blob s =>
    cases b with
    | blob t =>
      cases c with
      | blob u => exact Chained.of_transCmp compareKeys s t u
      | _ => cases hbc
    | _ => cases hab
  | list as =>
    cases b with
    | list bs =>
      cases c with
      | list cs => exact compareItems_chained hN as bs cs ha hb hc
      | _ => cases hbc
    | _ => cases hab
  | map as =>
    cases b with
    | map bs =>
      cases c with
      | map cs => exact Chained.of_transCmp compareInts as.length bs.length cs.length
      | _ => cases hbc
    | _ => cases hab
  | geo s =>
    cases b with
    | geo t =>
      cases c with
      | geo u => exact Chained.of_transCmp compareKeys s t u
      | _ => cases hbc
    | _ => cases hab

theorem compareItems_chained (hN : Consistent N) (as bs cs : List Value) (ha : OverItems N as)
    (hb : OverItems N bs) (hc : OverItems N cs) :
    Chained (compareItems as bs) (compareItems bs cs) (compareItems as cs) := by
  match as, bs, cs with
  | [], [], [] | [], [], _ :: _ | [], _ :: _, [] | _ :: _, [], [] | _ :: _, [], _ :: _ =>
    constructor <;> simp [compareItems]
  | [], b :: bs, c :: cs =>
    constructor <;> simp [compareItems]
  | a :: as, b :: bs, [] => constructor <;> simp [compareItems, eq_comm]
  | a :: as, b :: bs, c :: cs =>
    rw [compareItems_cons, compareItems_cons, compareItems_cons]
    apply (compare_chained hN a b c ha.1 hb.1 hc.1).lexicographic
    intro _ _
    exact compareItems_chained hN as bs cs ha.2 hb.2 hc.2

end

/-- An order that is transitive over some numbers compares them consistently. -/
theorem consistent_of_transitive
    (h : ∀ a b c : Value, Over N a → Over N b → Over N c → (a.compare b).isLE →
      (b.compare c).isLE → (a.compare c).isLE) : Consistent N := by
  have htie {a b c : Value} (ha : Over N a) (hb : Over N b) (hc : Over N c)
      (hab : a.compare b = .eq) (hbc : b.compare c = .eq) : a.compare c = .eq := by
    have hba : b.compare a = .eq := Std.OrientedCmp.eq_symm hab
    have hcb : c.compare b = .eq := Std.OrientedCmp.eq_symm hbc
    apply Std.OrientedCmp.isLE_antisymm
    · exact h a b c ha hb hc (by simp [hab]) (by simp [hbc])
    · exact h c b a hc hb ha (by simp [hcb]) (by simp [hba])
  constructor
  · intro x hx hnan v hv w hw hvn hwn
    have hnone : x.orderKey? = none := by simp [Binary64.orderKey?, hnan]
    have hvx : v.compare (float x) = .eq := by
      rcases isNumber_iff.mp hvn with ⟨i, rfl⟩ | ⟨y, rfl⟩
      · exact compareFloats_of_nan (.inr hnone)
      · exact compareFloats_of_nan (.inr hnone)
    have hxw : (float x).compare w = .eq := by
      rcases isNumber_iff.mp hwn with ⟨i, rfl⟩ | ⟨y, rfl⟩
      · exact compareFloats_of_nan (.inl hnone)
      · exact compareFloats_of_nan (.inl hnone)
    have hdouble : Over N (float x) := (over_iff_mem rfl).mpr hx
    exact htie ((over_iff_mem hvn).mpr hv) hdouble ((over_iff_mem hwn).mpr hw) hvx hxw
  · intro x i j hx hi hj hix hjx
    have hinteger (k : Int64) (hk : int k ∈ N) : Over N (int k) := (over_iff_mem rfl).mpr hk
    have hdouble : Over N (float x) := (over_iff_mem rfl).mpr hx
    have hij : (int i).compare (int j) = .eq :=
      htie (hinteger i hi) hdouble (hinteger j hj) hix (Std.OrientedCmp.eq_symm hjx)
    exact Int64.toInt_inj.mp (compareInts_eq_iff.mp hij)

end Values

/-- The order of values is reflexive and can be read from either side. It is transitive over the
values with certain numbers in them exactly if none of these numbers ties with two that differ. -/
theorem order_is_preorder_iff (N : Set Value) :
    (∀ v : Value, v.compare v = .eq) ∧ (∀ v w : Value, w.compare v = (v.compare w).swap) ∧
    ((∀ a b c : Value, Over N a → Over N b → Over N c → (a.compare b).isLE →
      (b.compare c).isLE → (a.compare c).isLE) ↔ Consistent N) := by
  refine ⟨fun v => Std.ReflCmp.compare_self, fun v w => compare_swap w v, ?_, ?_⟩
  · exact consistent_of_transitive
  · intro hN a b c ha hb hc
    exact (compare_chained hN a b c ha hb hc).isLE

/-- All doubles but NaN, and the integers that are doubles. -/
def exactNumbers : Set Value
  | int i => i.toInt.natAbs < 2 ^ 53
  | float x => x.isNaN = false
  | _ => False

theorem consistent_exactNumbers : Consistent exactNumbers := by
  constructor
  · intro x hx hnan
    have hx : x.isNaN = false := hx
    rw [hx] at hnan
    cases hnan
  · intro x i j hx hi hj hix hjx
    have hx : x.isNaN = false := hx
    have hkey : x.orderKey? = some (if x.isNegative then -(x.pattern : Int) else x.pattern) := by
      simp [Binary64.orderKey?, hx]
    rw [compare_int_float hkey, compareInts_eq_iff] at hix hjx
    exact Int64.toInt_inj.mp (Binary64.integerKey_inj hi hj (hix.trans hjx.symm))

theorem order_is_preorder_iff_exact :
    let a := list [int 1, float ⟨0x3ff8000000000000⟩]
    let b := list [float ⟨0x3ff0000000000000⟩, int 2]
    let c := list [int 1, int 2, nil]
    Consistent exactNumbers ∧ Over exactNumbers a ∧ Over exactNumbers b ∧ Over exactNumbers c ∧
      (a.compare b).isLE ∧ (b.compare c).isLE ∧ (a.compare c).isLE := by
  intro a b c
  have hone : Over exactNumbers (int 1) := (by decide : (1 : Int64).toInt.natAbs < 2 ^ 53)
  have htwo : Over exactNumbers (int 2) := (by decide : (2 : Int64).toInt.natAbs < 2 ^ 53)
  have hdouble {x : Binary64} (hx : x.isNaN = false) : Over exactNumbers (float x) := hx
  have ha : Over exactNumbers a := ⟨hone, hdouble (by decide), trivial⟩
  have hb : Over exactNumbers b := ⟨hdouble (by decide), htwo, trivial⟩
  have hc : Over exactNumbers c := ⟨hone, htwo, trivial, trivial⟩
  have hab : (a.compare b).isLE := by decide +kernel
  have hbc : (b.compare c).isLE := by decide +kernel
  obtain ⟨-, -, htrans⟩ := order_is_preorder_iff exactNumbers
  exact ⟨consistent_exactNumbers, ha, hb, hc, hab, hbc,
    htrans.mpr consistent_exactNumbers a b c ha hb hc hab hbc⟩

/-- An integer past `2 ^ 53` and the one before it tie with the same double. -/
example :
    (int 9007199254740993).compare (float ⟨0x4340000000000000⟩) = .eq ∧
    (float ⟨0x4340000000000000⟩).compare (int 9007199254740992) = .eq ∧
    (int 9007199254740993).compare (int 9007199254740992) = .gt := by decide +kernel

end Value

end RecordDb
