import BuildPath.Proofs.Lazy.Computation
import BuildPath.Session.Operation
import Mathlib.Logic.Relation

/-!
# What events do

How an event is performed, part by part: what comes of it and the session that it leaves. An event
`Takes` a relation of sessions when it always leads from a session to another one by steps of that
relation; sequences of such events and computations whose requests are answered by such events do
so as well. The same goes for two events that are `Alike`: in related sessions they come out alike
and leave related ones.
-/

namespace BuildPath

open Relation

variable {Value Result : Type}

namespace Event

/-- An event that does nothing but succeed. -/
@[simp] theorem perform_pure (value : Value) (session : Session) :
    Event.perform (pure value) session = (.ok value, session) := rfl

/-- An event that does nothing but fail. -/
@[simp] theorem perform_throw (error : Error) (session : Session) :
    Event.perform (throw error : Event Value) session = (.error error, session) := rfl

/-- The session as it is. -/
@[simp] theorem perform_get (session : Session) :
    Event.perform get session = (.ok session, session) := rfl

/-- What follows an event happens in the session that it left, unless it failed. -/
theorem perform_bind (event : Event Value) (next : Value → Event Result) (session : Session) :
    Event.perform (event >>= next) session =
      match event.perform session with
      | (.ok value, after) => (next value).perform after
      | (.error error, after) => (.error error, after) := by
  change ExceptT.bindCont next (event session).1 (event session).2 = _
  rw [show event.perform session = event session from rfl]
  obtain ⟨outcome, after⟩ := event session
  cases outcome <;> rfl

/-- An event comes to what came of it and to the session that it left. -/
theorem perform_eq_of_fst {event : Event Value} {session : Session} {outcome : Outcome Value}
    (answered : (event.perform session).1 = outcome) :
    event.perform session = (outcome, (event.perform session).2) :=
  Prod.ext answered rfl

/-- What follows an event that succeeded. -/
theorem perform_bind_of_ok {event : Event Value} {next : Value → Event Result}
    {session after : Session} {value : Value} (done : event.perform session = (.ok value, after)) :
    Event.perform (event >>= next) session = (next value).perform after := by
  rw [perform_bind, done]

/-- Events in sequence succeed when each of them does. -/
theorem perform_bind_eq_ok {event : Event Value} {next : Value → Event Result}
    {session after : Session} {result : Result} :
    Event.perform (event >>= next) session = (.ok result, after) ↔
      ∃ value middle, event.perform session = (.ok value, middle) ∧
        (next value).perform middle = (.ok result, after) := by
  rw [perform_bind]
  obtain ⟨outcome, middle⟩ := event.perform session
  cases outcome with
  | ok value =>
    constructor
    · exact fun done => ⟨value, middle, rfl, done⟩
    · rintro ⟨_, _, ⟨⟩, done⟩
      exact done
  | error error => simp

/-- Events in sequence fail when the first does, or else the second. -/
theorem perform_bind_eq_error {event : Event Value} {next : Value → Event Result}
    {session after : Session} {error : Error} :
    Event.perform (event >>= next) session = (.error error, after) ↔
      event.perform session = (.error error, after) ∨
        ∃ value middle, event.perform session = (.ok value, middle) ∧
          (next value).perform middle = (.error error, after) := by
  rw [perform_bind]
  obtain ⟨outcome, middle⟩ := event.perform session
  cases outcome with
  | ok value =>
    constructor
    · exact fun failed => .inr ⟨value, middle, rfl, failed⟩
    · rintro (⟨⟨⟩⟩ | ⟨_, _, ⟨⟩, failed⟩)
      exact failed
  | error error => simp

/-- Whatever an event does to a session is done by steps of a relation. -/
def Takes (relation : Session → Session → Prop) (event : Event Value) : Prop :=
  ∀ session, ReflTransGen relation session (event.perform session).2

variable {relation : Session → Session → Prop}

/-- To succeed takes no step. -/
theorem takes_pure (value : Value) : Takes relation (pure value : Event Value) :=
  fun _ => .refl

/-- To fail takes no step. -/
theorem takes_throw (error : Error) : Takes relation (throw error : Event Value) :=
  fun _ => .refl

/-- To look at the session takes no step. -/
theorem takes_get : Takes relation (get : Event Session) :=
  fun _ => .refl

/-- A change of the session that is a step. -/
theorem takes_modify {change : Session → Session}
    (steps : ∀ session, relation session (change session)) :
    Takes relation (modify change : Event Unit) :=
  fun session => .single (steps session)

/-- Events in sequence take the steps of both. -/
theorem takes_bind {event : Event Value} {next : Value → Event Result}
    (first : Takes relation event) (second : ∀ value, Takes relation (next value)) :
    Takes relation (event >>= next) := by
  intro session
  have before := first session
  rw [perform_bind]
  generalize event.perform session = performed at before ⊢
  obtain ⟨outcome, middle⟩ := performed
  cases outcome with
  | ok value => exact before.trans (second value middle)
  | error error => exact before

/-- An event leads to the session that it leaves. -/
theorem Takes.reaches {event : Event Value} (takes : Takes relation event)
    {before after : Session} {outcome : Outcome Value}
    (done : event.perform before = (outcome, after)) : ReflTransGen relation before after := by
  have steps := takes before
  rwa [done] at steps

/-- What takes steps of one relation takes those of a wider one. -/
theorem Takes.mono {wider : Session → Session → Prop} {event : Event Value}
    (takes : Takes relation event) (widens : ∀ before after, relation before after →
      wider before after) : Takes wider event :=
  fun session => ReflTransGen.mono widens _ _ (takes session)

/-- In related sessions the events come out alike, and they leave related ones. -/
def Alike (relation : Session → Session → Prop) (event other : Event Value) : Prop :=
  ∀ first second, relation first second →
    (other.perform second).1 = (event.perform first).1 ∧
      relation (event.perform first).2 (other.perform second).2

/-- Events in sequence come out alike if both parts do. -/
theorem Alike.bind {event other : Event Value} {next more : Value → Event Result}
    (here : Alike relation event other)
    (onward : ∀ value, Alike relation (next value) (more value)) :
    Alike relation (event >>= next) (other >>= more) := by
  intro first second related
  obtain ⟨same, left⟩ := here first second related
  rw [perform_bind, perform_bind]
  generalize event.perform first = performed at same left ⊢
  generalize other.perform second = again at same left ⊢
  obtain ⟨outcome, before⟩ := performed
  obtain ⟨_, after⟩ := again
  cases same
  cases outcome with
  | ok value => exact onward value before after left
  | error error => exact ⟨rfl, left⟩

end Event

namespace Session

/-- A question changes nothing. -/
theorem perform_ask (question : Graph → Outcome Value) (session : Session) :
    (Session.ask question).perform session = (question session.graph, session) := by
  unfold ask
  rw [Event.perform_bind_of_ok (Event.perform_get session)]
  cases question session.graph <;> rfl

/-- A question takes no step. -/
theorem takes_ask {relation : Session → Session → Prop} (question : Graph → Outcome Value) :
    Event.Takes relation (Session.ask question) := by
  intro session
  rw [perform_ask]

/-- A change of the graph, kept also when it failed. -/
theorem perform_change (change : Graph → Changed) (session : Session) :
    (Session.change change).perform session =
      ((change session.graph).1, { session with graph := (change session.graph).2 }) := by
  unfold Session.change
  rw [Event.perform_bind_of_ok (Event.perform_get session)]
  obtain ⟨outcome, graph⟩ := change session.graph
  cases outcome <;> rfl

end Session

namespace Computation

variable {answer : (asked : Request) → Event asked.Answer}

/-- A computation that asks answers its request first. -/
theorem runWith_ask (asked : Request) (resume : asked.Answer → Computation Value) :
    (Computation.ask asked resume).runWith answer =
      answer asked >>= fun given => (resume given).runWith answer := rfl

/-- To run a sequence of computations is to run them in sequence. -/
theorem runWith_andThen (computation : Computation Value) (next : Value → Computation Result) :
    (computation.andThen next).runWith answer =
      computation.runWith answer >>= fun value => (next value).runWith answer := by
  induction computation with
  | done value => rfl
  | failed error => rfl
  | ask asked resume ih =>
    rw [andThen, runWith_ask, runWith_ask, bind_assoc]
    congr
    funext given
    exact ih given

/-- A computation takes the steps that its answers take. -/
theorem takes_runWith {relation : Session → Session → Prop}
    (answers : ∀ asked, Event.Takes relation (answer asked)) (computation : Computation Value) :
    Event.Takes relation (computation.runWith answer) := by
  induction computation with
  | done value => exact Event.takes_pure value
  | failed error => exact Event.takes_throw error
  | ask asked resume ih => exact Event.takes_bind (answers asked) ih

/-- A computation comes out alike if all that it may ask for is answered alike. -/
theorem alike_runWith {relation : Session → Session → Prop} {allowed : Request → Prop}
    {other : (asked : Request) → Event asked.Answer}
    (answers : ∀ asked, allowed asked → Event.Alike relation (answer asked) (other asked))
    {computation : Computation Value} (asks : computation.AsksOnly allowed) :
    Event.Alike relation (computation.runWith answer) (computation.runWith other) := by
  induction computation with
  | done value => exact fun _ _ related => ⟨rfl, related⟩
  | failed error => exact fun _ _ related => ⟨rfl, related⟩
  | ask asked resume ih =>
    exact (answers asked asks.1).bind fun given => ih given (asks.2 given)

end Computation

end BuildPath
