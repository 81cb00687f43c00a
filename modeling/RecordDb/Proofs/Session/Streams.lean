import RecordDb.Proofs.Session.Callbacks

/-!
# Streaming calls beside the commands whose answers they tell

The answer to such a command is a list or there is none, so every element is told once and in order,
a failure once in their place, and the end once after that.
-/
namespace RecordDb

/-- A command that has a streaming form, with the answer that it gives for a list and what its
form makes of one element. -/
inductive Command.Lists : {α : Type} → Command → (List α → Answer) → (α → Item) → Prop where
  | query (q : QueryBuilder) : Lists (q.inMode .foreach) .records .record
  | info (request : Option String) (host : Option Host) (policy : Option InfoPolicy) :
    Lists (.info request host policy) .info .node

namespace Command.Lists
variable {α : Type} {command : Command} {answer : List α → Answer} {item : α → Item}

theorem items_answer (h : command.Lists answer item) (found : List α) :
    (answer found).items = found.map item := by
  cases h <;> rfl

/-- Any other response is one of the wrong kind. -/
theorem answer?_eq_some (h : command.Lists answer item) {response : Response} {a : Answer}
    (ha : command.answer? response = some a) : ∃ found, a = answer found := by
  cases h with
  | query q =>
    cases response with
    | records found =>
      cases ha
      exact ⟨found, rfl⟩
    | _ => cases ha
  | info request host policy =>
    cases response with
    | info responses =>
      cases ha
      exact ⟨responses, rfl⟩
    | _ => cases ha

theorem conclude_cases (h : command.Lists answer item) (result : Except Error Response) :
    (∃ found, command.conclude result = .ok (answer found)) ∨
      ∃ e, command.conclude result = .error e := by
  cases result with
  | error e => exact .inr ⟨e, by cases h <;> rfl⟩
  | ok response =>
    rw [conclude]
    cases ha : command.answer? response with
    | none => exact .inr ⟨_, rfl⟩
    | some a =>
      obtain ⟨found, rfl⟩ := h.answer?_eq_some ha
      exact .inl ⟨found, rfl⟩

end Command.Lists

namespace CallbackHandler
variable {α : Type}

/-- All invocations of the two callbacks of a stream: every item in turn, then the end. -/
def Event.inOrder (items : List (CallbackArguments α)) (done : CallbackArguments Unit) :
    List (Event α) :=
  items.map .item ++ [.done done]

theorem Event.filterMap_inOrder (items : List (CallbackArguments α))
    (done : CallbackArguments Unit) : (inOrder items done).filterMap item? = items := by
  rw [inOrder, List.filterMap_append, List.filterMap_map]
  exact (List.append_nil _).trans (List.filterMap_some)

theorem Event.findSome?_inOrder (items : List (CallbackArguments α))
    (done : CallbackArguments Unit) : (inOrder items done).findSome? done? = some done := by
  induction items with
  | nil => rfl
  | cons a rest ih => exact ih

end CallbackHandler

namespace Session

open CallbackHandler

/-- A command that is the only task, whoever is told of its result. -/
theorem rounds_told (s : Session) (place c : Nat) (h : CallbackHandler) (command : Command)
    (audience : Audience) :
    s.rounds 3 [⟨place, ⟨c, h, .command command, audience⟩, .made⟩] =
      ((s.run c command).1, [(place, (s.run c command).1.tell ⟨c, h, .command command, audience⟩
        (s.run c command).2)]) := rfl

theorem tell_items {s : Session} {c : Nat} {h : CallbackHandler} {task : Task} {heard : Bool}
    {result : Except Error Answer} {items : List (CallbackArguments Item)}
    {done : CallbackArguments Unit}
    (hs : h.stream (result.map Answer.items) = Event.inOrder items done) :
    s.tell ⟨c, h, task, .items heard⟩ result =
      .stream items (if heard then some done else none) := by
  rw [tell]
  dsimp only
  rw [hs, Event.filterMap_inOrder, Event.findSome?_inOrder]

theorem runGroup_of_stream {s : Session} {c : Nat} {command : Command}
    {items : List (CallbackArguments Item)} {done : CallbackArguments Unit}
    (hs : (s.callbackHandler c).stream ((s.run c command).2.map Answer.items) =
      Event.inOrder items done) (heard : Bool) (later : List CallbackHandler) :
    s.runGroup (.call c (.stream command heard) :: later.map .setHandler) =
      ({ (s.run c command).1 with handler := later.getLastD s.handler },
        .stream items (if heard then some done else none) :: later.map fun _ => .done) := by
  have hmade := s.makeAll_call c (.stream command heard) later
  rw [makeCall, pending] at hmade
  refine runGroup_of_rounds hmade ?_
  rw [rounds_told, run_setHandler]
  dsimp only
  rw [tell_items hs]

/-- The streaming form of a command beside the command itself, whatever conventions are set
`later`, before it starts. Either the command gives a list, and each element is told once, in the
order of the list and as a success, or it fails, and this is told once and no element; then the
end is told once, with the same outcome. -/
theorem streams_deliver_once_then_finish {α : Type} {command : Command}
    {answer : List α → Answer} {item : α → Item} (h : command.Lists answer item) (s : Session)
    (c : Nat) (heard : Bool) (later : List CallbackHandler) :
    ∃ items done,
      (s.callbackHandler c).stream ((s.run c command).2.map Answer.items) =
          Event.inOrder items done ∧
        s.runGroup (.call c (.stream command heard) :: later.map .setHandler) =
          ({ (s.run c command).1 with handler := later.getLastD s.handler },
            .stream items (if heard then some done else none) :: later.map fun _ => .done) ∧
        ((∃ found, (s.run c command).2 = .ok (answer found) ∧
            items = (found.map fun a => (s.callbackHandler c).arguments (.ok (item a))) ∧
            done = (s.callbackHandler c).arguments (.ok ())) ∨
          ∃ e, (s.run c command).2 = .error e ∧ items = [⟨some e.toStatus, none⟩] ∧
            done = ⟨some e.toStatus, none⟩) := by
  have hrun : (s.run c command).2 =
      command.conclude (s.dispatch c (command.request (s.policies c))).2 := rfl
  rcases h.conclude_cases (s.dispatch c (command.request (s.policies c))).2 with
    ⟨found, hfound⟩ | ⟨e, he⟩
  · rw [← hrun] at hfound
    have hs : (s.callbackHandler c).stream ((s.run c command).2.map Answer.items) =
        Event.inOrder (found.map fun a => (s.callbackHandler c).arguments (.ok (item a)))
          ((s.callbackHandler c).arguments (.ok ())) := by
      rw [hfound, Except.map, h.items_answer, stream, Event.inOrder, List.map_map, List.map_map]
      rfl
    exact ⟨_, _, hs, runGroup_of_stream hs heard later, .inl ⟨found, hfound, rfl, rfl⟩⟩
  · rw [← hrun] at he
    have hs : (s.callbackHandler c).stream ((s.run c command).2.map Answer.items) =
        Event.inOrder [⟨some e.toStatus, none⟩] ⟨some e.toStatus, none⟩ := by
      rw [he]
      rfl
    exact ⟨_, _, hs, runGroup_of_stream hs heard later, .inr ⟨e, he, rfl, rfl⟩⟩

def otherMark : Key := ⟨"test", "marks", some (.int 2), none⟩

/-- The second of two clients is not connected, and the convention gives a status always. -/
def twoMarks : Session :=
  { halfConnected with handler := .legacy }.after
    [.command 0 (.put otherMark [("x", .int 8)] none none),
      .command 0 (.put mark [("x", .int 7)] none none)]

def allMarks : QueryBuilder := ⟨"test", some "marks", .empty, none⟩

theorem streams_deliver_once_then_finish_marks :
    (twoMarks.runGroup [.call 0 (.stream (allMarks.inMode .foreach) true),
        .setHandler .default]).2 =
      [.stream [⟨some .ok, some (.record ⟨mark, [("x", .int 7)], ⟨some 0, some 1⟩⟩)⟩,
          ⟨some .ok, some (.record ⟨otherMark, [("x", .int 8)], ⟨some 0, some 1⟩⟩)⟩]
        (some ⟨some .ok, some ()⟩), .done] ∧
    (twoMarks.runGroup [.call 1 (.stream (.info none none none) false)]).2 =
      [.stream [⟨some (.client "Not connected."), none⟩] none] := by
  obtain ⟨items, done, -, hquery, hfound | ⟨e, he, -⟩⟩ :=
    streams_deliver_once_then_finish (.query allMarks) twoMarks 0 true [.default]
  · obtain ⟨found, hfound, rfl, rfl⟩ := hfound
    cases hfound
    obtain ⟨items, done, -, hinfo, ⟨found, hfound, -⟩ | he⟩ :=
      streams_deliver_once_then_finish (.info none none none) twoMarks 1 false []
    · cases hfound
    · obtain ⟨e, he, rfl, rfl⟩ := he
      cases he
      exact ⟨congrArg Prod.snd hquery, congrArg Prod.snd hinfo⟩
  · cases he

end Session

end RecordDb
