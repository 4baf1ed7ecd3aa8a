import BuildPath.Proofs.Session.Reading
import Mathlib

/-!
# Room for nested reads

How much deeper reads can be nested than there are configurations is not part of what a session
means. With more room than was enough, everything comes to the same: a read
(`Session.enlarges_readDependencies`), whatever is evaluated (`Session.enlarges_evaluate`), and
every run of operations, but for the room itself (`Session.run_of_room_le`). Only what was cut off
for want of room may come out differently.
-/

namespace BuildPath

variable {Value Result : Type}

/-- Whatever came of an event, it was not cut off because reads were nested too deeply. -/
def Outcome.HadRoom (outcome : Outcome Value) : Prop :=
  ∀ name, outcome ≠ .error (.circularRead name)

/-- Another session is the same with a certain amount of room, which is no less. -/
def Session.Roomier (room : Nat) (first second : Session) : Prop :=
  first.room ≤ room ∧ second = { first with room }

/-- Unless the one event was cut off, the other one comes out alike in a roomier session. -/
def Event.Enlarges (room : Nat) (event other : Event Value) : Prop :=
  ∀ first second, Session.Roomier room first second → (event.perform first).1.HadRoom →
    (other.perform second).1 = (event.perform first).1 ∧
      Session.Roomier room (event.perform first).2 (other.perform second).2

namespace Event

variable {room : Nat}

/-- To succeed takes no room. -/
theorem enlarges_pure (value : Value) : Enlarges room (pure value : Event Value) (pure value) :=
  fun _ _ roomier _ => ⟨rfl, roomier⟩

/-- A look at something in the session other than its room. -/
theorem enlarges_look {look : Session → Value}
    (apart : ∀ session room, look { session with room } = look session) :
    Enlarges room (get >>= fun session => pure (look session) : Event Value)
      (get >>= fun session => pure (look session)) := by
  rintro first _ ⟨less, rfl⟩ _
  exact ⟨congrArg Except.ok (apart first room), less, rfl⟩

/-- A change of the session that has nothing to do with its room. -/
theorem enlarges_modify {change : Session → Session}
    (keeps : ∀ session, (change session).room = session.room)
    (apart : ∀ session room, change { session with room } = { change session with room }) :
    Enlarges room (modify change : Event Unit) (modify change) := by
  rintro first _ ⟨less, rfl⟩ _
  exact ⟨rfl, (keeps first).symm ▸ less, apart first room⟩

/-- Events in sequence are cut off where one of them is. -/
theorem Enlarges.bind {event other : Event Value} {next more : Value → Event Result}
    (here : Enlarges room event other) (onward : ∀ value, Enlarges room (next value) (more value)) :
    Enlarges room (event >>= next) (other >>= more) := by
  intro first second roomier enough
  have same := here first second roomier
  rw [perform_bind] at enough
  rw [perform_bind, perform_bind]
  generalize event.perform first = performed at same enough ⊢
  generalize other.perform second = again at same ⊢
  obtain ⟨outcome, before⟩ := performed
  obtain ⟨_, after⟩ := again
  cases outcome with
  | error error =>
    obtain ⟨rfl, left⟩ := same fun name cut => enough name (by cases cut; rfl)
    exact ⟨rfl, left⟩
  | ok value =>
    obtain ⟨rfl, left⟩ := same nofun
    exact onward value before after left enough

end Event

/-- A computation is cut off where the answer to one of its requests is. -/
theorem Computation.enlarges_runWith {room : Nat}
    {answer other : (asked : Request) → Event asked.Answer}
    (answers : ∀ asked, Event.Enlarges room (answer asked) (other asked))
    (computation : Computation Value) :
    Event.Enlarges room (computation.runWith answer) (computation.runWith other) := by
  induction computation with
  | done value => exact Event.enlarges_pure value
  | failed error => exact fun _ _ roomier _ => ⟨rfl, roomier⟩
  | ask asked resume ih => exact (answers asked).bind ih

namespace Session

variable {room : Nat}

/-- A question takes no room. -/
theorem enlarges_ask (question : Graph → Outcome Value) :
    Event.Enlarges room (ask question) (ask question) := by
  rintro first _ ⟨less, rfl⟩ _
  rw [perform_ask, perform_ask]
  exact ⟨rfl, less, rfl⟩

/-- A change of the graph takes no room. -/
theorem enlarges_change (change : Graph → Changed) :
    Event.Enlarges room (Session.change change) (Session.change change) := by
  rintro first _ ⟨less, rfl⟩ _
  rw [perform_change, perform_change]
  exact ⟨rfl, less, rfl⟩

/-- To observe a configuration takes no room. -/
theorem enlarges_observe (name : String) : Event.Enlarges room (observe name) (observe name) :=
  Event.enlarges_modify (fun _ => rfl) fun _ _ => rfl

/-- To read exclude rules takes no room. -/
theorem enlarges_readExcludes (name : String) :
    Event.Enlarges room (readExcludes name) (readExcludes name) :=
  (enlarges_ask _).bind fun rules => (enlarges_observe name).bind fun _ => Event.enlarges_pure rules

/-- To read artifacts takes no room. -/
theorem enlarges_readArtifacts (name : String) :
    Event.Enlarges room (readArtifacts name) (readArtifacts name) :=
  (enlarges_ask _).bind fun found => (enlarges_observe name).bind fun _ => Event.enlarges_pure found

/-- Answers are cut off where a way of reading dependencies is. -/
theorem enlarges_answer {reads others : String → Event (List Dependency)}
    (enlarges : ∀ name, Event.Enlarges room (reads name) (others name)) (asked : Request) :
    Event.Enlarges room (answer reads asked) (answer others asked) := by
  cases asked with
  | dependencies name => exact enlarges name
  | excludes name => exact enlarges_readExcludes name
  | run source => exact Event.enlarges_modify (fun _ => rfl) fun _ _ => rfl
  | runs source => exact Event.enlarges_look fun _ _ => rfl
  | assigned name => exact Event.enlarges_look fun _ _ => rfl
  | files => exact Event.enlarges_look fun _ _ => rfl

/-- A read that is not cut off comes out alike when reads may be nested more deeply. -/
theorem enlarges_readDependenciesWithin {depth further : Nat} (deeper : depth ≤ further)
    (name : String) : Event.Enlarges room (readDependenciesWithin depth name)
      (readDependenciesWithin further name) := by
  induction depth generalizing further name with
  | zero =>
    -- Where the name is known there is no room for the read, and where it is not both fail alike.
    unfold readDependenciesWithin
    exact (enlarges_ask _).bind fun declared first second roomier enough => absurd rfl (enough name)
  | succ depth ih =>
    obtain ⟨further, rfl⟩ : ∃ less, further = less + 1 := ⟨further - 1, by omega⟩
    have answers := enlarges_answer (ih (Nat.le_of_succ_le_succ deeper))
    unfold readDependenciesWithin
    refine (enlarges_ask _).bind fun declared => ?_
    exact (Computation.enlarges_runWith answers _).bind fun found =>
      (enlarges_observe name).bind fun _ => Event.enlarges_pure _

/-- A read of its own that is not cut off comes out alike in a roomier session. -/
theorem enlarges_readDependencies (name : String) :
    Event.Enlarges room (readDependencies name) (readDependencies name) := by
  rintro first _ ⟨less, rfl⟩ enough
  rw [perform_readDependencies name rfl] at enough ⊢
  rw [perform_readDependencies name rfl]
  have deeper : first.depth ≤ Session.depth { first with room } := Nat.add_le_add_left less _
  exact enlarges_readDependenciesWithin deeper name first _ ⟨less, rfl⟩ enough

/-- What is evaluated and not cut off comes out alike in a roomier session. -/
theorem enlarges_evaluate (computation : Computation Value) :
    Event.Enlarges room (evaluate computation) (evaluate computation) :=
  Computation.enlarges_runWith (enlarges_answer enlarges_readDependencies) computation

/-- To keep a classpath takes no room. -/
theorem enlarges_keep (identifier : String) (classpath : LazyValue Classpath) :
    Event.Enlarges room (Operation.keep identifier classpath)
      (Operation.keep identifier classpath) :=
  Event.enlarges_modify (fun _ => rfl) fun _ _ => rfl

/-- An operation that is not cut off comes out alike in a roomier session. -/
theorem enlarges_perform (operation : Operation) :
    Event.Enlarges room operation.perform operation.perform := by
  unfold Operation.perform
  cases operation with
  | edit single => exact enlarges_change _
  | removeArtifacts name producer =>
    exact (enlarges_ask _).bind fun _ => (enlarges_change _).bind fun _ => Event.enlarges_pure _
  | readDependencies name => exact enlarges_readDependencies name
  | readArtifacts name => exact enlarges_readArtifacts name
  | readExcludes name => exact enlarges_readExcludes name
  | freeze => exact enlarges_change _
  | applyConvention convention => exact enlarges_change _
  | applyManifest manifest => exact enlarges_change _
  | setVariable name value => exact Event.enlarges_modify (fun _ => rfl) fun _ _ => rfl
  | compose identifier view resolver =>
    rintro first _ ⟨less, rfl⟩ _
    exact ⟨rfl, less, rfl⟩
  | evaluate identifier =>
    intro first second roomier
    obtain ⟨less, rfl⟩ := id roomier
    simp only [Event.perform_bind_of_ok (Event.perform_get _)]
    cases first.classpaths.lookup identifier with
    | none => exact fun _ => ⟨rfl, less, rfl⟩
    | some classpath =>
      exact ((enlarges_evaluate classpath.evaluateOne).bind fun found =>
        Event.enlarges_pure (some found)) first _ roomier
  | package identifier resolver =>
    exact (enlarges_ask _).bind fun archive =>
      (enlarges_keep identifier archive.classpath).bind fun _ => Event.enlarges_pure archive

/-- No operation of a run is cut off because reads are nested too deeply. -/
def HasRoomFor : Session → List Operation → Prop
  | _, [] => True
  | session, operation :: rest =>
    (operation.perform.perform session).1.HadRoom ∧
      (operation.perform.perform session).2.HasRoomFor rest

/-- A run that no operation of which is cut off leads to the same session with more room, but for
the room itself. -/
theorem run_of_room_le {session : Session} {operations : List Operation}
    (enough : session.HasRoomFor operations) (less : session.room ≤ room) :
    Session.run { session with room } operations = { session.run operations with room } := by
  suffices roomier : Roomier room (session.run operations)
      (Session.run { session with room } operations) from roomier.2
  have start : Roomier room session { session with room } := ⟨less, rfl⟩
  generalize ({ session with room } : Session) = second at start
  induction operations generalizing session second with
  | nil => exact start
  | cons operation rest ih =>
    have step := (enlarges_perform operation session second start enough.1).2
    exact ih enough.2 step.1 _ step

/-- A module. -/
def revisitedModule : Dependency := .externalModule (.ofCoordinates none "library" none none none)

/-- A source that gives the module, and reads `app` before when it is run for the first time. -/
def revisiting : LazyValue Notation :=
  ⟨"revisiting", fun _ => .ask (.run 0) fun _ => .ask (.runs 0) fun count =>
    if count = 1 then .ask (.dependencies "app") fun _ => .done [.dependency revisitedModule]
    else .done [.dependency revisitedModule]⟩

/-- A session in which `app` declares what reads it. -/
def revisited (room : Nat) : Session :=
  (start (.new {} .root) ⟨[], []⟩ room).run
    [.edit (.create "app"), .edit (.add "app" (.deferred revisiting) none)]

-- To read a configuration from within itself, once, takes room for one read.
example : ((readDependencies "app").perform (revisited 0)).1 = .error (.circularRead "app") ∧
    ((readDependencies "app").perform (revisited 1)).1 = .ok [revisitedModule] := by
  constructor <;> cbv

end Session

end BuildPath
