import Mathlib.Data.List.Perm.Basic
import RecordDb.Session.Group

/-!
# What a group of steps comes to

A turn brings its job one stage on or ends it, so the rounds of a group see each job to its end, and
no step of the group is told twice or left out.
-/
namespace RecordDb

/-- The turns that a job at this stage may still take. -/
def Stage.turnsLeft : Stage → Nat
  | .made => 3
  | .released => 2
  | .started _ => 1

theorem Stage.turnsLeft_pos (stage : Stage) : 0 < stage.turnsLeft := by
  cases stage <;> exact Nat.succ_pos _

def Job.turnsLeft (j : Job) : Nat := j.stage.turnsLeft

def turnsLeft : List Job → Nat
  | [] => 0
  | j :: queue => j.turnsLeft + turnsLeft queue

theorem turnsLeft_append (queue queue' : List Job) :
    turnsLeft (queue ++ queue') = turnsLeft queue + turnsLeft queue' := by
  induction queue with
  | nil => exact (Nat.zero_add _).symm
  | cons j rest ih => rw [List.cons_append, turnsLeft, turnsLeft, ih, Nat.add_assoc]

theorem length_le_turnsLeft (queue : List Job) : queue.length ≤ turnsLeft queue := by
  induction queue with
  | nil => exact Nat.le_refl 0
  | cons j rest ih =>
    have hpos : 0 < j.turnsLeft := j.stage.turnsLeft_pos
    rw [List.length_cons, turnsLeft]
    omega

namespace Session

/-- A job that comes back has used up its turn; one that ends is told at its own place. -/
theorem turn_cases (s : Session) (j : Job) :
    (∃ j', (s.turn j).2 = .inl j' ∧ j'.place = j.place ∧ j'.turnsLeft + 1 = j.turnsLeft) ∨
      ∃ told, (s.turn j).2 = .inr (j.place, told) := by
  obtain ⟨place, ⟨c, handler, task, audience⟩, stage⟩ := j
  cases stage with
  | made => exact .inl ⟨_, rfl, rfl, rfl⟩
  | released =>
    cases task with
    | command | connect => exact .inl ⟨_, rfl, rfl, rfl⟩
    | refused => exact .inr ⟨_, rfl⟩
  | started => exact .inr ⟨_, rfl⟩

theorem turns_cons_of_inl {s : Session} {j j' : Job} (h : (s.turn j).2 = .inl j')
    (rest : List Job) :
    s.turns (j :: rest) =
      (((s.turn j).1.turns rest).1, ((s.turn j).1.turns rest).2.1 ++ [j'],
        ((s.turn j).1.turns rest).2.2) := by
  rw [turns]
  simp only [h]

theorem turns_cons_of_inr {s : Session} {j : Job} {known : Nat × Told}
    (h : (s.turn j).2 = .inr known) (rest : List Job) :
    s.turns (j :: rest) =
      (((s.turn j).1.turns rest).1, ((s.turn j).1.turns rest).2.1,
        known :: ((s.turn j).1.turns rest).2.2) := by
  rw [turns]
  simp only [h]

theorem turns_places (s : Session) (queue : List Job) :
    ((s.turns queue).2.2.map Prod.fst ++ (s.turns queue).2.1.map Job.place).Perm
      (queue.map Job.place) := by
  induction queue generalizing s with
  | nil => exact .refl _
  | cons j rest ih =>
    rcases s.turn_cases j with ⟨j', h, hplace, -⟩ | ⟨told, h⟩
    · rw [turns_cons_of_inl h, List.map_append, List.map_singleton, hplace, ← List.append_assoc]
      exact (List.perm_append_singleton _ _).trans ((ih _).cons _)
    · rw [turns_cons_of_inr h]
      exact (ih _).cons _

/-- A round takes at least one turn from each of its jobs. -/
theorem turns_turnsLeft (s : Session) (queue : List Job) :
    turnsLeft (s.turns queue).2.1 + queue.length ≤ turnsLeft queue := by
  induction queue generalizing s with
  | nil => exact Nat.le_refl 0
  | cons j rest ih =>
    have hrest := ih (s.turn j).1
    rw [turnsLeft, List.length_cons]
    rcases s.turn_cases j with ⟨j', h, -, hleft⟩ | ⟨told, h⟩
    · have hsingle : turnsLeft [j'] = j'.turnsLeft := rfl
      rw [turns_cons_of_inl h, turnsLeft_append, hsingle]
      omega
    · have hpos : 0 < j.turnsLeft := j.stage.turnsLeft_pos
      rw [turns_cons_of_inr h]
      dsimp only
      omega

theorem rounds_cons (s : Session) (count : Nat) (j : Job) (rest : List Job) :
    s.rounds (count + 1) (j :: rest) =
      let round := s.turns ((j :: rest).take roundLength)
      let others := round.1.rounds count ((j :: rest).drop roundLength ++ round.2.1)
      (others.1, round.2.2 ++ others.2) := rfl

/-- With a round for every turn that is left, each job is told once. -/
theorem rounds_places {count : Nat} (s : Session) {queue : List Job}
    (h : turnsLeft queue ≤ count) :
    ((s.rounds count queue).2.map Prod.fst).Perm (queue.map Job.place) := by
  induction count generalizing s queue with
  | zero =>
    have hnil : queue = [] := List.length_eq_zero_iff.mp
      (Nat.le_zero.mp (Nat.le_trans (length_le_turnsLeft queue) h))
    rw [hnil]
    exact .refl _
  | succ count ih =>
    cases queue with
    | nil => exact .refl _
    | cons j rest =>
      rw [rounds_cons]
      generalize hfront : (j :: rest).take roundLength = front
      generalize hback : (j :: rest).drop roundLength = back
      have hsplit : front ++ back = j :: rest := by
        rw [← hfront, ← hback, List.take_append_drop]
      have hfull : 0 < front.length := by
        rw [← hfront]
        exact Nat.succ_pos _
      have hround := s.turns_turnsLeft front
      have hnext : turnsLeft (back ++ (s.turns front).2.1) ≤ count := by
        rw [← hsplit, turnsLeft_append] at h
        rw [turnsLeft_append]
        omega
      dsimp only
      rw [List.map_append, ← hsplit, List.map_append]
      refine ((ih _ hnext).append_left _).trans ?_
      rw [List.map_append]
      refine (List.perm_append_comm.append_left _).trans ?_
      rw [← List.append_assoc]
      exact (s.turns_places front).append_right _

/-- The jobs among what was made of some steps, the first of which has this place. -/
def jobsOf (made : List Made) (start : Nat) : List Job :=
  (made.zipIdx start).filterMap fun
    | (.pending p, place) => some ⟨place, p, .made⟩
    | (.over _, _) => none

/-- The steps that are over when all have been made. -/
def knownOf (made : List Made) (start : Nat) : List (Nat × Told) :=
  (made.zipIdx start).filterMap fun
    | (.over told, place) => some (place, told)
    | (.pending _, _) => none

theorem places_of_made (made : List Made) (start : Nat) :
    ((knownOf made start).map Prod.fst ++ (jobsOf made start).map Job.place).Perm
      (List.range' start made.length) := by
  induction made generalizing start with
  | nil => exact .refl _
  | cons m rest ih =>
    rcases m with told | p
    · exact (ih (start + 1)).cons start
    · exact List.perm_middle.trans ((ih (start + 1)).cons start)

theorem turnsLeft_jobsOf (made : List Made) (start : Nat) :
    turnsLeft (jobsOf made start) = 3 * (jobsOf made start).length := by
  induction made generalizing start with
  | nil => rfl
  | cons m rest ih =>
    rcases m with told | p
    · exact ih (start + 1)
    · have hjobs : jobsOf (.pending p :: rest) start =
          ⟨start, p, .made⟩ :: jobsOf rest (start + 1) := rfl
      have hturns : Job.turnsLeft ⟨start, p, .made⟩ = 3 := rfl
      rw [hjobs, turnsLeft, hturns, ih, List.length_cons]
      omega

/-- All that the steps of a group come to, each with its place. -/
def outcomes (s : Session) (steps : List Step) : List (Nat × Told) :=
  let (s, made) := s.makeAll steps
  let jobs := jobsOf made 0
  knownOf made 0 ++ (s.rounds (3 * jobs.length) jobs).2

theorem length_makeAll (s : Session) (steps : List Step) :
    (s.makeAll steps).2.length = steps.length := by
  induction steps generalizing s with
  | nil => rfl
  | cons step rest ih => exact congrArg Nat.succ (ih _)

theorem runGroup_fst (s : Session) (steps : List Step) :
    (s.runGroup steps).1 =
      let (s, made) := s.makeAll steps
      let jobs := jobsOf made 0
      (s.rounds (3 * jobs.length) jobs).1 := rfl

theorem runGroup_snd (s : Session) (steps : List Step) :
    (s.runGroup steps).2 =
      (List.range steps.length).filterMap fun place => (s.outcomes steps).lookup place := by
  rw [← s.length_makeAll steps]
  rfl

/-- Each step of a group comes to something once, whatever else is in the group. -/
theorem outcomes_places (s : Session) (steps : List Step) :
    ((s.outcomes steps).map Prod.fst).Perm (List.range steps.length) := by
  rw [outcomes]
  dsimp only
  rw [List.map_append, ← s.length_makeAll steps, List.range_eq_range']
  refine List.Perm.trans ?_ (places_of_made _ 0)
  exact (rounds_places _ (Nat.le_of_eq (turnsLeft_jobsOf _ 0))).append_left _

theorem lookup_of_mem {α : Type} {entries : List (Nat × α)} (h : (entries.map Prod.fst).Nodup)
    {place : Nat} {a : α} (ha : (place, a) ∈ entries) : entries.lookup place = some a := by
  induction entries with
  | nil => cases ha
  | cons e rest ih =>
    rw [List.map_cons, List.nodup_cons] at h
    rcases List.mem_cons.mp ha with rfl | ha
    · exact List.lookup_cons_self
    · have hne : place ≠ e.1 := by
        rintro rfl
        exact h.1 (List.mem_map.mpr ⟨_, ha, rfl⟩)
      rw [List.lookup_cons, beq_eq_false_iff_ne.mpr hne]
      exact ih h.2 ha

theorem lookup_outcomes {s : Session} {steps : List Step} {place : Nat} {told : Told}
    (h : (place, told) ∈ s.outcomes steps) : (s.outcomes steps).lookup place = some told :=
  lookup_of_mem ((s.outcomes_places steps).nodup_iff.mpr List.nodup_range) h

/-- What is listed place by place leaves none out. -/
theorem map_some_runGroup (s : Session) (steps : List Step) :
    (s.runGroup steps).2.map some =
      (List.range steps.length).map fun place => (s.outcomes steps).lookup place := by
  rw [runGroup_snd, List.map_filterMap_some_eq_filter_map_isSome, List.filter_eq_self]
  intro o ho
  obtain ⟨place, hplace, rfl⟩ := List.mem_map.mp ho
  obtain ⟨⟨_, told⟩, htold, rfl⟩ :=
    List.mem_map.mp ((s.outcomes_places steps).mem_iff.mpr hplace)
  rw [lookup_outcomes htold]
  rfl

theorem length_runGroup (s : Session) (steps : List Step) :
    (s.runGroup steps).2.length = steps.length := by
  have h := congrArg List.length (s.map_some_runGroup steps)
  rwa [List.length_map, List.length_map, List.length_range] at h

/-- What a step is told of in a group is listed at its place. -/
theorem getElem?_runGroup {s : Session} {steps : List Step} {place : Nat} {told : Told}
    (h : (place, told) ∈ s.outcomes steps) : (s.runGroup steps).2[place]? = some told := by
  have hplace : place < steps.length :=
    List.mem_range.mp ((s.outcomes_places steps).mem_iff.mp (List.mem_map_of_mem (f := Prod.fst) h))
  have hlist := congrArg (fun l => l[place]?) (s.map_some_runGroup steps)
  rw [List.getElem?_map, List.getElem?_map, List.getElem?_range hplace, Option.map_some,
    lookup_outcomes h] at hlist
  obtain ⟨_, hlisted, heq⟩ := Option.map_eq_some_iff.mp hlist
  rw [hlisted, heq]

theorem runGroup_snd_eq {s : Session} {steps : List Step} {told : List Told}
    (hlength : told.length = steps.length)
    (h : ∀ place t, told[place]? = some t → (place, t) ∈ s.outcomes steps) :
    (s.runGroup steps).2 = told := by
  refine List.ext_getElem (by rw [length_runGroup, hlength]) fun place _ hplace => ?_
  have htold := getElem?_runGroup (h place _ (List.getElem?_eq_getElem hplace))
  exact (List.getElem?_eq_some_iff.mp htold).2

end Session

end RecordDb
