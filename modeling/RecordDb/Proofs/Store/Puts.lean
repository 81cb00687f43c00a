import RecordDb.Proofs.Store.Background
import RecordDb.Proofs.Store.Locality

/-!
# What a put leaves to be read

The checks come before the write, so a put that passes all of them writes its bins over those that
stay, and a read of the key finds the outcome of that.
-/
namespace RecordDb

/-- Whether a generation is what a write that names another one asks for. -/
def GenerationPolicy.admits : GenerationPolicy → (named actual : UInt32) → Bool
  | .ignore, _, _ => true
  | .eq, named, actual => actual = named
  | .gt, named, actual => actual < named

theorem RecordId.ofKey_eq_error {key : Key} {e : Status} (h : ofKey key = .error e) :
    key.userKey = none ∧ key.digest = none ∧ e.code = .param := by
  rw [ofKey] at h
  split at h
  · cases h
  · cases h
  · rename_i hk hd
    cases h
    exact ⟨hk, hd, rfl⟩

namespace Store

/-- The grounds on which a put is refused, each with its status. The first one counts, so that
a record which must not be there is not asked for its generation. -/
inductive RefusesPut (s : Store) (key : Key) (metadata : Metadata)
    (existence : Option ExistsPolicy) (gen : Option GenerationPolicy) : StatusCode → Prop where
  | unidentified (hk : key.userKey = none) (hd : key.digest = none) :
      RefusesPut s key metadata existence gen .param
  | found {id : RecordId} {r : StoredRecord} (hid : RecordId.ofKey key = .ok id)
      (hr : Dict.get? s.records id = some r) (he : existence = some .create) :
      RefusesPut s key metadata existence gen .recordExists
  | missing {id : RecordId} (hid : RecordId.ofKey key = .ok id)
      (hr : Dict.get? s.records id = none)
      (he : existence = some .update ∨ existence = some .replace) :
      RefusesPut s key metadata existence gen .recordNotFound
  | outdated {id : RecordId} {r : StoredRecord} {policy : GenerationPolicy} {named : UInt32}
      (hid : RecordId.ofKey key = .ok id) (hr : Dict.get? s.records id = some r)
      (he : existence ≠ some .create) (hp : gen = some policy) (hn : metadata.gen = some named)
      (hc : policy.admits named r.gen = false) :
      RefusesPut s key metadata existence gen .recordGeneration

/-- The bins that a put writes over: none if it replaces the record. -/
def standing (s : Store) (id : RecordId) : Option ExistsPolicy → Bins
  | some .replace | some .createOrReplace => []
  | _ => s.bins id

section Checks
variable {key : Key} {r : StoredRecord} {named : UInt32}

theorem checkExistence_eq_ok {policy : Option ExistsPolicy} {isThere : Bool}
    (hc : isThere = true → policy ≠ some .create)
    (hu : isThere = false → ¬ (policy = some .update ∨ policy = some .replace)) :
    checkExistence key policy isThere = .ok () := by
  unfold checkExistence
  split
  · exact absurd rfl (hc rfl)
  · exact absurd (.inl rfl) (hu rfl)
  · exact absurd (.inr rfl) (hu rfl)
  · rfl

theorem checkGeneration_eq_ok {policy : Option GenerationPolicy} {expected : Option UInt32}
    {actual : UInt32} (h : ∀ p named, policy = some p → expected = some named →
      p.admits named actual = true) : checkGeneration policy expected actual = .ok () := by
  unfold checkGeneration
  split
  · rename_i named
    exact if_pos (by simpa [GenerationPolicy.admits] using h .eq named rfl rfl)
  · rename_i named
    exact if_pos (by simpa [GenerationPolicy.admits] using h .gt named rfl rfl)
  · rfl

theorem checkGeneration_eq_error {p : GenerationPolicy} {actual : UInt32}
    (h : p.admits named actual = false) :
    ∃ e, checkGeneration (some p) (some named) actual = .error e ∧ e.code = .recordGeneration := by
  cases p with
  | ignore => cases h
  | eq => exact ⟨_, if_neg (of_decide_eq_false h), rfl⟩
  | gt => exact ⟨_, if_neg (of_decide_eq_false h), rfl⟩

end Checks

section Outcome
variable {s : Store} {key : Key} {metadata : Metadata} {policy : Option WritePolicy}

/-- A put on a key with an identity: both checks, then the write. -/
theorem put_eq {id : RecordId} (hid : RecordId.ofKey key = .ok id) (bins : Bins) :
    (put key bins metadata policy).on s = (do
      checkExistence key (policy.bind WritePolicy.existence) (Dict.get? s.records id).isSome
      checkCurrent (policy.bind WritePolicy.gen) metadata.gen (Dict.get? s.records id)
      modify fun s' => (s'.commit id key
        (merged (s.standing id (policy.bind WritePolicy.existence)) bins) metadata.ttl).1
      return .written none : Effect Store Response).on s := by
  rw [put, hid]
  rfl

theorem put_of_refused {code : StatusCode}
    (h : s.RefusesPut key metadata (policy.bind WritePolicy.existence)
      (policy.bind WritePolicy.gen) code) (bins : Bins) :
    ∃ e, ((put key bins metadata policy).on s).2 = .error e ∧ e.code = code := by
  cases h with
  | unidentified hk hd =>
    refine ⟨.new .param "key has neither a user key nor a digest", ?_, rfl⟩
    rw [put, RecordId.ofKey, hk, hd]
    rfl
  | found hid hr he =>
    refine ⟨.new .recordExists ("record " ++ key.display ++ " already exists"), ?_, rfl⟩
    rw [put_eq hid, hr, he]
    rfl
  | missing hid hr he =>
    refine ⟨.new .recordNotFound ("record " ++ key.display ++ " not found"), ?_, rfl⟩
    rw [put_eq hid, hr]
    rcases he with he | he
    · rw [he]
      rfl
    · rw [he]
      rfl
  | outdated hid hr he hp hn hc =>
    obtain ⟨e, hcheck, hcode⟩ := checkGeneration_eq_error hc
    refine ⟨e, ?_, hcode⟩
    have hexistence : checkExistence key (policy.bind WritePolicy.existence) true = .ok () :=
      checkExistence_eq_ok (fun _ => he) fun hf => by cases hf
    rw [put_eq hid, hr, hp, hn, Option.isSome_some, hexistence, checkCurrent, hcheck]
    rfl

theorem put_of_not_refused
    (h : ∀ code, ¬ s.RefusesPut key metadata (policy.bind WritePolicy.existence)
      (policy.bind WritePolicy.gen) code) (bins : Bins) :
    ∃ id, RecordId.ofKey key = .ok id ∧ (put key bins metadata policy).on s =
      ((s.commit id key (merged (s.standing id (policy.bind WritePolicy.existence)) bins)
        metadata.ttl).1, .ok (.written none)) := by
  cases hid : RecordId.ofKey key with
  | error e =>
    obtain ⟨hk, hd, -⟩ := RecordId.ofKey_eq_error hid
    exact absurd (.unidentified hk hd) (h _)
  | ok id =>
    have hexistence : checkExistence key (policy.bind WritePolicy.existence)
        (Dict.get? s.records id).isSome = .ok () := by
      refine checkExistence_eq_ok (fun hs he => ?_) fun hs he => ?_
      · obtain ⟨r, hr⟩ := Option.isSome_iff_exists.mp hs
        exact h _ (.found hid hr he)
      · rw [Option.isSome_eq_false_iff, Option.isNone_iff_eq_none] at hs
        exact h _ (.missing hid hs he)
    have hgeneration : checkCurrent (policy.bind WritePolicy.gen) metadata.gen
        (Dict.get? s.records id) = .ok () := by
      cases hr : Dict.get? s.records id with
      | none => rfl
      | some r =>
        refine checkGeneration_eq_ok fun p named hp hn => ?_
        by_contra hc
        rw [Bool.not_eq_true] at hc
        by_cases he : policy.bind WritePolicy.existence = some .create
        · exact h _ (.found hid hr he)
        · exact h _ (.outdated hid hr he hp hn hc)
    refine ⟨id, rfl, ?_⟩
    rw [put_eq hid, hexistence, hgeneration]
    rfl

/-- A put fails on the listed grounds and on no other. -/
theorem put_eq_error_iff (bins : Bins) (code : StatusCode) :
    (∃ e, ((put key bins metadata policy).on s).2 = .error e ∧ e.code = code) ↔
      s.RefusesPut key metadata (policy.bind WritePolicy.existence)
        (policy.bind WritePolicy.gen) code := by
  refine ⟨?_, fun h => put_of_refused h bins⟩
  rintro ⟨e, he, rfl⟩
  by_contra hno
  -- Grounds with another code would make the put fail with that one.
  have hall : ∀ code, ¬ s.RefusesPut key metadata (policy.bind WritePolicy.existence)
      (policy.bind WritePolicy.gen) code := by
    intro code h
    obtain ⟨e', he', rfl⟩ := put_of_refused h bins
    rw [he'] at he
    cases he
    exact hno h
  obtain ⟨id, -, hput⟩ := put_of_not_refused hall bins
  rw [hput] at he
  cases he

end Outcome

/-- Each name is looked up among the new bins first, and a nil there hides the old bin. -/
theorem get?_merged {old new : Bins} (h : Dict.Ascending new) (name : String) :
    Dict.get? (merged old new) name =
      match Dict.get? new name with
      | some v => if v.isNil then none else some v
      | none => Dict.get? old name := by
  induction new generalizing old with
  | nil => rfl
  | cons e rest ih =>
    obtain ⟨he, hrest⟩ := Dict.ascending_cons.mp h
    rw [merged, List.foldl_cons]
    change Dict.get? (merged _ rest) name = _
    rw [ih hrest, Dict.get?]
    by_cases hname : e.1 = name
    · rw [if_pos hname, ← hname, Dict.get?_tail_eq_none h]
      dsimp only
      split
      · rw [Dict.get?_erase_self]
      · rw [Dict.get?_insert_self]
    · rw [if_neg hname]
      have hold : Dict.get? (if e.2.isNil then Dict.erase old e.1 else Dict.insert old e.1 e.2) name
          = Dict.get? old name := by
        split
        · exact Dict.get?_erase_of_ne _ (Ne.symm hname)
        · exact Dict.get?_insert_of_ne _ _ (Ne.symm hname)
      rw [hold]

/-- What has been filed is what a read of the key finds. -/
theorem read_commit {key : Key} {id : RecordId} (hid : RecordId.ofKey key = .ok id) (s : Store)
    (writer : Key) (bins : Bins) (ttl : Option UInt32) :
    (s.commit id writer bins ttl).1.read key [] =
      if bins.isEmpty then notFound key
      else .ok (.record bins (s.commit id writer bins ttl).2) := by
  have hr := s.get?_commit_self id writer bins ttl
  split
  · rename_i hb
    rw [if_pos hb] at hr
    rw [read, find_eq_notFound hid hr]
    rfl
  · rename_i hb
    rw [if_neg hb] at hr
    rw [read, (find_eq_ok_iff _ _ _).mpr ⟨id, hid, hr⟩]
    rfl

/-- A record that is written again is one generation further, and a new one is in the first. -/
theorem snd_commit (s : Store) (id : RecordId) (key : Key) (bins : Bins) (ttl : Option UInt32) :
    (s.commit id key bins ttl).2 =
      ⟨some (ttl.getD (((Dict.get? s.records id).map StoredRecord.ttl).getD 0)),
        some (((Dict.get? s.records id).map fun r => r.gen + 1).getD 1)⟩ := by
  rw [commit]
  cases Dict.get? s.records id with
  | none => rfl
  | some r => rfl

end Store

open Store

/-- A put followed by a get of the key. The put is refused on the grounds that are listed, and on
no other. If it is not, the get finds the bins that stood, overwritten by the given ones that are
not nil and without those given as nil, one generation further, with the time to live that was
given or else the one it had; when no bin is left, it finds nothing. -/
theorem put_then_get (c : Cluster) (s : Store) (key : Key) (bins : Bins)
    (hb : Dict.Ascending bins) (metadata : Option Metadata) (policy : Option WritePolicy) :
    let refuses := s.RefusesPut key (metadata.getD .empty) (policy.bind WritePolicy.existence)
      (policy.bind WritePolicy.gen)
    let put := c.serve s (.put key bins metadata policy)
    (∀ code, (∃ e, put.2 = .error e ∧ e.code = code) ↔ refuses code) ∧
    ((∀ code, ¬ refuses code) → put.2 = .ok (.written none) ∧
      ∃ id after, RecordId.ofKey key = .ok id ∧
        (∀ name, Dict.get? after name =
          match Dict.get? bins name with
          | some v => if v.isNil then none else some v
          | none => Dict.get? (s.standing id (policy.bind WritePolicy.existence)) name) ∧
        ∀ readPolicy, (c.serve put.1 (.get key readPolicy)).2 =
          if after.isEmpty then notFound key
          else .ok (.record after
            ⟨some ((metadata.bind Metadata.ttl).getD
                (((Dict.get? s.records id).map StoredRecord.ttl).getD 0)),
              some (((Dict.get? s.records id).map fun r => r.gen + 1).getD 1)⟩)) := by
  dsimp only [Cluster.serve]
  refine ⟨fun code => ?_, fun h => ?_⟩
  · exact put_eq_error_iff bins code
  · obtain ⟨id, hid, hput⟩ := put_of_not_refused h bins
    rw [hput]
    refine ⟨rfl, id, _, hid, get?_merged hb, fun _ => ?_⟩
    have hread := read_commit hid s key
      (merged (s.standing id (policy.bind WritePolicy.existence)) bins)
      (metadata.getD .empty).ttl
    rw [snd_commit] at hread
    cases metadata with
    | none => exact hread
    | some m => exact hread

/-- Replaces a record that has not got to the named generation. -/
def replaceOlder : WritePolicy := ⟨none, none, some .gt, some .replace, none, none⟩

/-- The record is in its first generation, so one write comes too late and one replaces it. -/
theorem put_then_get_replaced :
    (∃ e, (Cluster.sample.serve marks (.put firstMark [] (some ⟨none, some 1⟩)
        (some replaceOlder))).2 = .error e ∧ e.code = .recordGeneration) ∧
    ∃ after, (∀ name, Dict.get? after name = if "y" = name then some (.int 2) else none) ∧
      (Cluster.sample.serve (Cluster.sample.serve marks (.put firstMark
          [("x", .nil), ("y", .int 2)] (some ⟨some 60, some 2⟩) (some replaceOlder))).1
        (.get firstMark none)).2 =
          if after.isEmpty then notFound firstMark else .ok (.record after ⟨some 60, some 2⟩) := by
  have hadmitted : ∀ code, ¬ marks.RefusesPut firstMark ⟨some 60, some 2⟩ (some .replace)
      (some .gt) code := by
    intro code h
    cases h with
    | unidentified hk => cases hk
    | found _ _ he => cases he
    | missing hid hr =>
      cases hid
      cases hr
    | outdated hid hr _ hp hn hc =>
      cases hid
      cases hr
      cases hp
      cases hn
      cases hc
  refine ⟨((put_then_get .sample marks firstMark [] (by decide) (some ⟨none, some 1⟩)
    (some replaceOlder)).1 _).mpr (.outdated rfl rfl nofun rfl rfl rfl), ?_⟩
  obtain ⟨-, id, after, hid, hafter, hget⟩ := (put_then_get .sample marks firstMark
    [("x", .nil), ("y", .int 2)] (by decide) (some ⟨some 60, some 2⟩) (some replaceOlder)).2
    hadmitted
  cases hid
  refine ⟨after, fun name => ?_, hget none⟩
  rw [hafter]
  by_cases hx : "x" = name
  · subst hx
    rfl
  · by_cases hy : "y" = name
    · subst hy
      rfl
    · have hnew : Dict.get? [("x", Value.nil), ("y", .int 2)] name = none := by
        simp [Dict.get?, hx, hy]
      rw [hnew]
      exact (if_neg hy).symm

end RecordDb
