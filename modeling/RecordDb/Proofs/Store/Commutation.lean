import RecordDb.Proofs.Store.Background
import RecordDb.Proofs.Store.Locality

/-!
# Commutation of requests

Clients that work on different records do not notice each other. What a client gets from a schedule
is what it gets when it is alone, so requests for different records may be served in either order,
and all schedules of the same requests of the clients have one outcome.
-/
namespace RecordDb

open Store

variable {κ : Type}

namespace Cluster

/-- The store after the requests of several clients, in the order in which they are served. -/
def storeAfter (c : Cluster) (s : Store) (schedule : List (κ × Request)) : Store :=
  s.after (schedule.map fun e => (c, e.2))

/-- What the requests complete with, each beside its client. -/
def completions (c : Cluster) (s : Store) : List (κ × Request) → List (κ × Completion)
  | [] => []
  | (k, q) :: rest => (k, (c.serve s q).2) :: c.completions (c.serve s q).1 rest

end Cluster

/-- What belongs to one client, in order. -/
def ofClient {α : Type} [DecidableEq κ] (k : κ) (items : List (κ × α)) : List (κ × α) :=
  items.filter fun e => e.1 = k

section Selection
variable {α : Type} [DecidableEq κ]

theorem ofClient_cons_self (k : κ) (a : α) (items : List (κ × α)) :
    ofClient k ((k, a) :: items) = (k, a) :: ofClient k items := by
  simp [ofClient]

theorem ofClient_cons_of_ne {j k : κ} (h : j ≠ k) (a : α) (items : List (κ × α)) :
    ofClient k ((j, a) :: items) = ofClient k items := by
  simp [ofClient, h]

theorem mem_ofClient {k : κ} {items : List (κ × α)} {e : κ × α} :
    e ∈ ofClient k items ↔ e ∈ items ∧ e.1 = k := by
  simp [ofClient]

/-- Lists in which everyone has the same have the same elements. -/
theorem mem_of_ofClient_eq {items items' : List (κ × α)}
    (h : ∀ k, ofClient k items = ofClient k items') {e : κ × α} (he : e ∈ items') : e ∈ items := by
  have hm : e ∈ ofClient e.1 items' := mem_ofClient.mpr ⟨he, rfl⟩
  rw [← h] at hm
  exact (mem_ofClient.mp hm).1

end Selection

/-- No record is under the ids of both requests. -/
def Request.Apart (q q' : Request) : Prop := ∀ id, q.Addresses id → ¬ q'.Addresses id

theorem Request.Apart.symm {q q' : Request} (h : q.Apart q') : q'.Apart q :=
  fun id hid' hid => h id hid hid'

/-- Every request of a schedule is for a single record, and no two clients have requests for
the same one. -/
structure Separate (schedule : List (κ × Request)) : Prop where
  single : ∀ e ∈ schedule, ∃ key, e.2.key? = some key
  apart : ∀ e ∈ schedule, ∀ e' ∈ schedule, e.1 ≠ e'.1 → e.2.Apart e'.2

/-- The ids that a client's requests of a schedule are for. -/
def addressedBy [DecidableEq κ] (k : κ) (schedule : List (κ × Request)) (id : RecordId) : Prop :=
  ∃ e ∈ ofClient k schedule, e.2.Addresses id

theorem Separate.of_ofClient_eq [DecidableEq κ] {schedule schedule' : List (κ × Request)}
    (hsep : Separate schedule) (h : ∀ k, ofClient k schedule = ofClient k schedule') :
    Separate schedule' where
  single e he := hsep.single e (mem_of_ofClient_eq h he)
  apart e he e' he' := hsep.apart e (mem_of_ofClient_eq h he) e' (mem_of_ofClient_eq h he')

namespace Cluster
variable (c : Cluster)

theorem frame_storeAfter (touched : RecordId → Prop) (schedule : List (κ × Request))
    (hs : ∀ e ∈ schedule, ∃ key, e.2.key? = some key)
    (ht : ∀ e ∈ schedule, ∀ id, e.2.Addresses id → touched id) (s : Store) :
    Frame touched s (c.storeAfter s schedule) := by
  induction schedule generalizing s with
  | nil => exact Frame.refl _ _
  | cons e rest ih =>
    obtain ⟨⟨key, hq⟩, hs⟩ := List.forall_mem_cons.mp hs
    obtain ⟨hq', ht⟩ := List.forall_mem_cons.mp ht
    exact ((c.frame_serve s hq).mono hq').trans (ih hs ht _)

theorem filed_storeAfter {s : Store} (hs : s.Filed) (schedule : List (κ × Request)) :
    (c.storeAfter s schedule).Filed :=
  after_induction Cluster.filed_serve hs _

/-- One step of two stores that agree on more than the request is for. -/
theorem agreeOn_serve {mine : RecordId → Prop} {s s' : Store} (h : AgreeOn mine s s')
    {q : Request} {key : Key} (hq : q.key? = some key) (hm : ∀ id, q.Addresses id → mine id) :
    (c.serve s q).2 = (c.serve s' q).2 ∧ AgreeOn mine (c.serve s q).1 (c.serve s' q).1 := by
  obtain ⟨hr, ha⟩ := c.serve_congr hq (h.mono hm)
  refine ⟨hr, fun id hid => ?_⟩
  by_cases hi : q.Addresses id
  · exact ha id hi
  · rw [(c.frame_serve s hq).record id hi, (c.frame_serve s' hq).record id hi, h id hid]

variable [DecidableEq κ]

/-- A client whose records no other client has requests for gets the same completions and
leaves the same under its ids as in a store that agrees there and serves no one else. -/
theorem completions_ofClient (k : κ) {mine : RecordId → Prop} (schedule : List (κ × Request))
    (hs : ∀ e ∈ schedule, ∃ key, e.2.key? = some key)
    (hm : ∀ e ∈ schedule, e.1 = k → ∀ id, e.2.Addresses id → mine id)
    (ho : ∀ e ∈ schedule, e.1 ≠ k → ∀ id, e.2.Addresses id → ¬ mine id)
    {s s' : Store} (h : AgreeOn mine s s') :
    ofClient k (c.completions s schedule) = c.completions s' (ofClient k schedule) ∧
      AgreeOn mine (c.storeAfter s schedule) (c.storeAfter s' (ofClient k schedule)) := by
  induction schedule generalizing s s' with
  | nil => exact ⟨rfl, h⟩
  | cons e rest ih =>
    obtain ⟨j, q⟩ := e
    obtain ⟨⟨key, hq⟩, hs⟩ := List.forall_mem_cons.mp hs
    obtain ⟨hmq, hm⟩ := List.forall_mem_cons.mp hm
    obtain ⟨hoq, ho⟩ := List.forall_mem_cons.mp ho
    by_cases hj : j = k
    · -- a request of the client itself
      subst hj
      obtain ⟨hr, ha⟩ := c.agreeOn_serve h hq (hmq rfl)
      obtain ⟨hc, hrest⟩ := ih hs hm ho ha
      rw [ofClient_cons_self, completions, completions, ofClient_cons_self, hc, hr]
      exact ⟨rfl, hrest⟩
    · have ha : AgreeOn mine (c.serve s q).1 s' := by
        intro id hid
        rw [(c.frame_serve s hq).record id fun hi => hoq hj id hi hid, h id hid]
      rw [ofClient_cons_of_ne hj, completions, ofClient_cons_of_ne hj]
      exact ih hs hm ho ha

/-- With separate clients each is served as if it were alone. -/
theorem completions_of_separate (k : κ) {schedule : List (κ × Request)} (hsep : Separate schedule)
    (s : Store) :
    ofClient k (c.completions s schedule) = c.completions s (ofClient k schedule) ∧
      AgreeOn (addressedBy k schedule) (c.storeAfter s schedule)
        (c.storeAfter s (ofClient k schedule)) := by
  refine c.completions_ofClient k schedule hsep.single ?_ ?_ (AgreeOn.refl _ s)
  · intro e he hk id hid
    exact ⟨e, mem_ofClient.mpr ⟨he, hk⟩, hid⟩
  · rintro e he hk id hid ⟨e', he', hid'⟩
    obtain ⟨he', hk'⟩ := mem_ofClient.mp he'
    exact hsep.apart e he e' he' (fun h => hk (h.trans hk')) id hid hid'

variable {s : Store} {schedule schedule' : List (κ × Request)} (hsep : Separate schedule)
  (h : ∀ k, ofClient k schedule = ofClient k schedule')
include hsep h

theorem completions_eq_of_ofClient_eq (k : κ) :
    ofClient k (c.completions s schedule) = ofClient k (c.completions s schedule') := by
  rw [(c.completions_of_separate k hsep s).1,
    (c.completions_of_separate k (hsep.of_ofClient_eq h) s).1, h]

/-- An id is either some client's, who leaves the same under it in both schedules, or no
request is for it. -/
theorem get?_storeAfter_of_ofClient_eq (id : RecordId) :
    Dict.get? (c.storeAfter s schedule).records id
      = Dict.get? (c.storeAfter s schedule').records id := by
  have hsep' := hsep.of_ofClient_eq h
  by_cases hid : ∃ k, addressedBy k schedule id
  · obtain ⟨k, hk⟩ := hid
    have hk' : addressedBy k schedule' id := by
      rwa [addressedBy, ← h]
    rw [(c.completions_of_separate k hsep s).2 id hk,
      (c.completions_of_separate k hsep' s).2 id hk', h]
  · have hfree : ∀ e ∈ schedule, ∀ id', e.2.Addresses id' → id' ≠ id := by
      rintro e he id' ha rfl
      exact hid ⟨e.1, e, mem_ofClient.mpr ⟨he, rfl⟩, ha⟩
    have hfree' : ∀ e ∈ schedule', ∀ id', e.2.Addresses id' → id' ≠ id :=
      fun e he => hfree e (mem_of_ofClient_eq h he)
    have hne : ¬ (id ≠ id) := fun hne => hne rfl
    rw [(c.frame_storeAfter (· ≠ id) schedule hsep.single hfree s).record id hne,
      (c.frame_storeAfter (· ≠ id) schedule' hsep'.single hfree' s).record id hne]

theorem storeAfter_eq_of_ofClient_eq (hs : s.Filed) :
    c.storeAfter s schedule = c.storeAfter s schedule' := by
  have hf := c.frame_storeAfter (fun _ => True) schedule hsep.single (fun _ _ _ _ => trivial) s
  have hf' := c.frame_storeAfter (fun _ => True) schedule' (hsep.of_ofClient_eq h).single
    (fun _ _ _ _ => trivial) s
  have hr : (c.storeAfter s schedule).records = (c.storeAfter s schedule').records :=
    Dict.ext_get? (c.filed_storeAfter hs _) (c.filed_storeAfter hs _)
      (c.get?_storeAfter_of_ofClient_eq hsep h)
  have hi := hf.indexes.trans hf'.indexes.symm
  have hm := hf.modules.trans hf'.modules.symm
  generalize c.storeAfter s schedule = t at hr hi hm ⊢
  generalize c.storeAfter s schedule' = t' at hr hi hm ⊢
  cases t
  cases t'
  rw [Store.mk.injEq]
  exact ⟨hr, hi, hm⟩

end Cluster

theorem Separate.pair {q q' : Request} {key key' : Key} (hq : q.key? = some key)
    (hq' : q'.key? = some key') (h : q.Apart q') : Separate [(false, q), (true, q')] where
  single := by simp [hq, hq']
  apart := by simpa using ⟨h, h.symm⟩

/-- Requests for different records commute, and what several clients on different records
get and leave does not depend on how their requests are interleaved. -/
theorem disjoint_requests_commute (c : Cluster) (s : Store) (hs : s.Filed) :
    (∀ (q q' : Request) (key key' : Key), q.key? = some key → q'.key? = some key' → q.Apart q' →
      (c.serve (c.serve s q).1 q').1 = (c.serve (c.serve s q').1 q).1 ∧
      (c.serve s q).2 = (c.serve (c.serve s q').1 q).2 ∧
      (c.serve (c.serve s q).1 q').2 = (c.serve s q').2) ∧
    ∀ (κ : Type) [DecidableEq κ] (schedule schedule' : List (κ × Request)), Separate schedule →
      (∀ k, ofClient k schedule = ofClient k schedule') →
      c.storeAfter s schedule = c.storeAfter s schedule' ∧
      ∀ k, ofClient k (c.completions s schedule) = ofClient k (c.completions s schedule') := by
  refine ⟨fun q q' key key' hq hq' ha => ?_, fun κ _ schedule schedule' hsep h => ?_⟩
  · have hsep := Separate.pair hq hq' ha
    have h : ∀ k, ofClient k [(false, q), (true, q')] = ofClient k [(true, q'), (false, q)] := by
      simp [ofClient]
    refine ⟨c.storeAfter_eq_of_ofClient_eq hsep h hs, ?_, ?_⟩
    · simpa [ofClient, Cluster.completions] using
        c.completions_eq_of_ofClient_eq (s := s) hsep h false
    · simpa [ofClient, Cluster.completions] using
        c.completions_eq_of_ofClient_eq (s := s) hsep h true
  · exact ⟨c.storeAfter_eq_of_ofClient_eq hsep h hs, c.completions_eq_of_ofClient_eq hsep h⟩

/-- A write to the first record and a call that fails on the second. -/
theorem disjoint_requests_commute_marks :
    let c := Cluster.sample
    let q := Request.put firstMark [("x", .nil)] none none
    let q' := Request.apply secondMark markAll none
    q.Apart q' ∧ (c.serve (c.serve marks q).1 q').1 = (c.serve (c.serve marks q').1 q).1 ∧
      c.storeAfter marks [(false, q), (true, q'), (false, q)]
        = c.storeAfter marks [(true, q'), (false, q), (false, q)] := by
  have hf : marks.Filed := Reachable.filed ⟨_, rfl⟩
  have ha : (Request.put firstMark [("x", .nil)] none none).Apart
      (.apply secondMark markAll none) := by
    rintro id ⟨key, hk, hid⟩ ⟨key', hk', hid'⟩
    cases hk
    cases hk'
    exact absurd (hid.trans hid'.symm) (by decide)
  obtain ⟨hpair, hall⟩ := disjoint_requests_commute .sample marks hf
  refine ⟨ha, (hpair _ _ _ _ rfl rfl ha).1, (hall Bool _ _ ⟨?_, ?_⟩ ?_).1⟩
  · simp [Request.key?]
  · simpa using ⟨ha, ha.symm, ha⟩
  · simp [ofClient]

end RecordDb
