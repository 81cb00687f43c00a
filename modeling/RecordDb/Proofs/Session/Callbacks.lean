import RecordDb.Proofs.Client.CallShapes
import RecordDb.Proofs.Session.Runs
import RecordDb.Proofs.Session.Guard
import RecordDb.Proofs.Session.Turns

/-!
# Calls in callback form beside commands

A call whose arguments do not fit is refused at once; any other one tells its callback once, in the
convention in force when the call was made, what the command comes to.
-/
namespace RecordDb

/-- The commands that are short for one operation on each of some bins. -/
inductive Shortcut where
  | append
  | prepend
  | incr
  | add

namespace Shortcut

def operation : Shortcut → String → Value → Operation
  | append => .append
  | prepend => .prepend
  | incr => .incr
  | add => .add

def command : Shortcut → Key → Bins → Option Metadata → Option OperatePolicy → Command
  | append => .append
  | prepend => .prepend
  | incr => .incr
  | add => .add

def call : Shortcut → Key → Bins → List (CallArgument OperatePolicy Unit) → CallbackCall
  | append => .append
  | prepend => .prepend
  | incr => .incr
  | add => .add

theorem command_eq (t : Shortcut) (key : Key) (bins : Bins) (metadata : Option Metadata)
    (policy : Option OperatePolicy) :
    t.command key bins metadata policy =
      .operate key (bins.map fun e => t.operation e.1 e.2) metadata policy := by
  cases t <;> rfl

end Shortcut

namespace CallbackCall

/-- The shape that the arguments of each call have to fit, and the command that the call comes
down to once metadata and policy are known. -/
inductive Completes : {π : Type} → CallbackCall → Shape → List (CallArgument π Unit) →
    (Option Metadata → Option π → Command) → Prop where
  | get (key : Key) (args : List (CallArgument ReadPolicy Unit)) :
    Completes (.get key args) .policyOnly args fun _ policy => .get key policy
  | select (key : Key) (bins : List String) (args : List (CallArgument ReadPolicy Unit)) :
    Completes (.select key bins args) .policyOnly args fun _ policy => .select key bins policy
  | existence (key : Key) (args : List (CallArgument ReadPolicy Unit)) :
    Completes (.existence key args) .policyOnly args fun _ policy => .existence key policy
  | put (key : Key) (bins : Bins) (args : List (CallArgument WritePolicy Unit)) :
    Completes (.put key bins args) .metadataPolicy args (.put key bins)
  | remove (key : Key) (args : List (CallArgument RemovePolicy Unit)) :
    Completes (.remove key args) .policyOnly args fun _ policy => .remove key policy
  | operate (key : Key) (ops : List Operation) (args : List (CallArgument OperatePolicy Unit)) :
    Completes (.operate key ops args) .metadataPolicy args (.operate key ops)
  | apply (key : Key) (call : UdfCall) (args : List (CallArgument ApplyPolicy Unit)) :
    Completes (.apply key call args) .policyOnly args fun _ policy => .apply key call policy
  | shortcut (t : Shortcut) (key : Key) (bins : Bins)
      (args : List (CallArgument OperatePolicy Unit)) :
    Completes (t.call key bins args) .metadataPolicy args (t.command key bins)
  | batchGet (keys : List Key) (args : List (CallArgument BatchPolicy Unit)) :
    Completes (.batchGet keys args) .policyOnly args fun _ policy => .batchGet keys policy
  | batchExists (keys : List Key) (args : List (CallArgument BatchPolicy Unit)) :
    Completes (.batchExists keys args) .policyOnly args fun _ policy => .batchExists keys policy
  | batchSelect (keys : List Key) (bins : List String)
      (args : List (CallArgument BatchPolicy Unit)) :
    Completes (.batchSelect keys bins args) .policyOnly args
      fun _ policy => .batchSelect keys bins policy

theorem Completes.command?_eq {π : Type} {call : CallbackCall} {shape : Shape}
    {args : List (CallArgument π Unit)} {command : Option Metadata → Option π → Command}
    (h : call.Completes shape args command) :
    call.command? =
      (CallArgument.normalize shape args).map fun n => command n.metadata n.policy := by
  cases h with
  | shortcut t => cases t <;> rfl
  | _ => rfl

end CallbackCall

namespace Session

theorem makeAll_setHandler (s : Session) (later : List CallbackHandler) :
    s.makeAll (later.map .setHandler) =
      ({ s with handler := later.getLastD s.handler }, later.map fun _ => .over .done) := by
  induction later generalizing s with
  | nil => rfl
  | cons h rest ih =>
    rw [List.map_cons, makeAll]
    dsimp only [make]
    rw [ih, List.getLastD_cons]
    rfl

/-- The convention of a session plays no part in what a command does. -/
theorem run_setHandler (s : Session) (h : CallbackHandler) (c : Nat) (command : Command) :
    ({ s with handler := h } : Session).run c command =
      ({ (s.run c command).1 with handler := h }, (s.run c command).2) := by
  cases hc : s.isConnected c with
  | false => rw [run_of_closed hc, run_of_closed (s := { s with handler := h }) hc]
  | true =>
    have hc' : ({ s with handler := h } : Session).isConnected c = true := hc
    simp only [run, dispatch, hc, hc', if_true]
    rfl

/-- A command that is the only task takes its three turns one after the other. -/
theorem rounds_command (s : Session) (place c : Nat) (h : CallbackHandler) (command : Command) :
    s.rounds 3 [⟨place, ⟨c, h, .command command, .one⟩, .made⟩] =
      ((s.run c command).1, [(place, .result (h.arguments (s.run c command).2))]) := rfl

theorem jobsOf_over (told : List Told) (start : Nat) : jobsOf (told.map .over) start = [] := by
  rw [jobsOf, List.zipIdx_map, List.filterMap_map]
  exact List.filterMap_eq_nil_iff.mpr fun _ _ => rfl

theorem mem_knownOf_over {told : List Told} {place : Nat} {t : Told}
    (h : told[place]? = some t) (start : Nat) :
    (place + start, t) ∈ knownOf (told.map .over) start := by
  rw [knownOf, List.zipIdx_map, List.filterMap_map]
  refine List.mem_filterMap.mpr ⟨(t, place + start), ?_, rfl⟩
  rw [List.mk_mem_zipIdx_iff_le_and_getElem?_sub, Nat.add_sub_cancel]
  exact ⟨Nat.le_add_left start place, h⟩

/-- A group of steps that are all over as soon as they are made. -/
theorem runGroup_of_over {s s' : Session} {steps : List Step} {told : List Told}
    (h : s.makeAll steps = (s', told.map .over)) : s.runGroup steps = (s', told) := by
  have hfst : (s.runGroup steps).1 = s' := by
    rw [runGroup_fst, h]
    dsimp only
    rw [jobsOf_over]
    rfl
  have hsnd : (s.runGroup steps).2 = told := by
    refine runGroup_snd_eq ?_ fun place t ht => ?_
    · rw [← s.length_makeAll, h, List.length_map]
    · rw [outcomes, h]
      exact List.mem_append_left _ (mem_knownOf_over ht 0)
  exact Prod.ext hfst hsnd

/-- A group with one call to carry out, made first; the other steps are over at once. -/
theorem runGroup_of_rounds {s s' s'' : Session} {steps : List Step} {told : List Told}
    {p : Pending} {t : Told} (h : s.makeAll steps = (s', .pending p :: told.map .over))
    (hp : s'.rounds 3 [⟨0, p, .made⟩] = (s'', [(0, t)])) :
    s.runGroup steps = (s'', t :: told) := by
  have hjobs : jobsOf (.pending p :: told.map .over) 0 = [⟨0, p, .made⟩] :=
    congrArg (List.cons _) (jobsOf_over told 1)
  have hfst : (s.runGroup steps).1 = s'' := by
    rw [runGroup_fst, h]
    dsimp only
    rw [hjobs, List.length_singleton, hp]
  have hsnd : (s.runGroup steps).2 = t :: told := by
    refine runGroup_snd_eq ?_ fun place t' ht => ?_
    · rw [← s.length_makeAll, h, List.length_cons, List.length_cons, List.length_map]
    · rw [outcomes, h]
      dsimp only
      rw [hjobs, List.length_singleton, hp]
      cases place with
      | zero =>
        cases ht
        exact List.mem_append_right _ (List.mem_singleton.mpr rfl)
      | succ place =>
        have hlater : told[place]? = some t' := ht
        exact List.mem_append_left _ (mem_knownOf_over hlater 1)
  exact Prod.ext hfst hsnd

theorem runGroup_of_pending {s s' : Session} {steps : List Step} {told : List Told} {c : Nat}
    {handler : CallbackHandler} {command : Command}
    (h : s.makeAll steps =
      (s', .pending ⟨c, handler, .command command, .one⟩ :: told.map .over)) :
    s.runGroup steps =
      ((s'.run c command).1, .result (handler.arguments (s'.run c command).2) :: told) :=
  runGroup_of_rounds h (rounds_command s' 0 c handler command)

/-- Steps that set the convention after a call has been made. -/
theorem makeAll_call (s : Session) (c : Nat) (call : Call) (later : List CallbackHandler) :
    s.makeAll (.call c call :: later.map .setHandler) =
      ({ s with handler := later.getLastD s.handler },
        s.makeCall c call :: (later.map fun _ => Told.done).map .over) := by
  rw [makeAll]
  dsimp only [make]
  rw [makeAll_setHandler, List.map_map]
  rfl

theorem runGroup_of_refused {s : Session} {call : CallbackCall} {e : Error}
    (h : call.command? = .error e) (c : Nat) (later : List CallbackHandler) :
    s.runGroup (.call c (.command call) :: later.map .setHandler) =
      ({ s with handler := later.getLastD s.handler },
        .refused e :: later.map fun _ => .done) := by
  have hmade : s.makeCall c (.command call) = .over (.refused e) := by
    rw [makeCall, h]
  refine runGroup_of_over ?_
  rw [makeAll_call, hmade]
  rfl

theorem runGroup_of_command {s : Session} {call : CallbackCall} {command : Command}
    (h : call.command? = .ok command) (c : Nat) (later : List CallbackHandler) :
    s.runGroup (.call c (.command call) :: later.map .setHandler) =
      ({ (s.run c command).1 with handler := later.getLastD s.handler },
        .result ((s.callbackHandler c).arguments (s.run c command).2) ::
          later.map fun _ => .done) := by
  have hmade : s.makeCall c (.command call) =
      .pending ⟨c, s.callbackHandler c, .command command, .one⟩ := by
    rw [makeCall, h]
    rfl
  have hall := s.makeAll_call c (.command call) later
  rw [hmade] at hall
  rw [runGroup_of_pending hall, run_setHandler]

/-- A call in callback form against its command. If the arguments do not fit, the caller gets a
type error and nothing else comes of the call. If they do, the session ends as the command leaves
it and the callback is told once what the command gives, in the convention that was in force when
the call was made, whatever conventions are set `later`, before it starts. The shortcuts submit
one operation for each bin. -/
theorem callback_form_refines_command {π : Type} {call : CallbackCall} {shape : Shape}
    {args : List (CallArgument π Unit)} {command : Option Metadata → Option π → Command}
    (h : call.Completes shape args command) (s : Session) (c : Nat)
    (later : List CallbackHandler) :
    (∀ e, CallArgument.normalize shape args = .error e →
      (∃ message, e = .callShape message) ∧
        s.runGroup (.call c (.command call) :: later.map .setHandler) =
          ({ s with handler := later.getLastD s.handler },
            .refused e :: later.map fun _ => .done)) ∧
    (∀ n, CallArgument.normalize shape args = .ok n →
      s.runGroup (.call c (.command call) :: later.map .setHandler) =
        ({ (s.run c (command n.metadata n.policy)).1 with handler := later.getLastD s.handler },
          .result ((s.callbackHandler c).arguments (s.run c (command n.metadata n.policy)).2) ::
            later.map fun _ => .done)) ∧
    ∀ t key bins args n, CallArgument.normalize .metadataPolicy args = .ok n →
      s.isConnected c = true →
        (s.runGroup (.call c (.command (Shortcut.call t key bins args)) ::
            later.map .setHandler)).1.transport.log =
          s.transport.log ++
            [.operate key (bins.map fun e => t.operation e.1 e.2) n.metadata
              (n.policy.or (s.policies c).operate)] := by
  refine ⟨fun e he => ⟨CallArgument.normalize_eq_error he, runGroup_of_refused ?_ c later⟩,
    fun n hn => runGroup_of_command ?_ c later, fun t key bins args n hn hc => ?_⟩
  · rw [h.command?_eq, he]
    rfl
  · rw [h.command?_eq, hn]
    rfl
  · have hcommand : (t.call key bins args).command? =
        .ok (t.command key bins n.metadata n.policy) := by
      rw [(CallbackCall.Completes.shortcut t key bins args).command?_eq, hn]
      rfl
    have hlog := s.log_act (.command c (t.command key bins n.metadata n.policy))
    rw [submits, if_pos hc] at hlog
    rw [runGroup_of_command hcommand]
    rw [t.command_eq] at hlog ⊢
    exact hlog

def brief : WritePolicy := ⟨some 5, none, none, none, none, none⟩

/-- The convention changes right after the call, which its callback does not see. -/
theorem callback_form_refines_command_put :
    halfConnected.runGroup
        [.call 0 (.command (.put mark [("x", .int 7)]
          [.absent, .policy brief, .callback (), .absent])), .setHandler .legacy] =
      ({ (halfConnected.run 0 (.put mark [("x", .int 7)] none (some brief))).1 with
          handler := .legacy },
        [.result (CallbackHandler.default.arguments
          (halfConnected.run 0 (.put mark [("x", .int 7)] none (some brief))).2), .done]) ∧
    halfConnected.runGroup
        [.call 0 (.command (.put mark [("x", .int 7)] [.policy brief]))] =
      (halfConnected,
        [.refused (.callShape "callback argument must be a function, got policy")]) ∧
    (halfConnected.runGroup [.call 0 (.command
        (.incr mark [("x", .int 7), ("y", .int 8)] [.callback ()]))]).1.transport.log =
      [.operate mark [.incr "x" (.int 7), .incr "y" (.int 8)] none none] :=
  ⟨(callback_form_refines_command (.put mark _ _) halfConnected 0 [.legacy]).2.1
      ⟨none, some brief, ()⟩ rfl,
    ((callback_form_refines_command (.put mark _ _) halfConnected 0 []).1 _ rfl).2,
    (callback_form_refines_command (.put mark [] []) halfConnected 0 []).2.2 .incr mark
      [("x", .int 7), ("y", .int 8)] [.callback ()] ⟨none, none, ()⟩ rfl rfl⟩

end Session

end RecordDb
