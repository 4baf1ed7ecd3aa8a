import BuildPath.Dependency.Basic

/-!
# Computations

A computation is a description of how to obtain a value: it may ask for what can only be known when
it runs, one request at a time, and it may fail. Building or combining computations runs nothing.
What the answers are, and what else a request does, is decided by whoever runs it (`runWith`). A
failed computation cannot be caught: nothing that follows it is asked for.
-/

namespace BuildPath

/-- What a computation can ask for when it runs. -/
inductive Request
  /-- That a run of a numbered source is counted. -/
  | run (source : Nat)
  /-- How often a numbered source was run. -/
  | runs (source : Nat)
  /-- The value of a variable, if it has one. -/
  | assigned (name : String)
  /-- The effective dependencies of a configuration. -/
  | dependencies (configuration : String)
  /-- The effective exclude rules of a configuration. -/
  | excludes (configuration : String)
  /-- The files as they are. -/
  | files
  deriving DecidableEq, Repr

/-- The answer to a request. -/
abbrev Request.Answer : Request → Type
  | .run _ => Unit
  | .runs _ => Nat
  | .assigned _ => Option String
  | .dependencies _ => List Dependency
  | .excludes _ => List ExcludeRule
  | .files => FileTree

/-- A description of how a value is obtained. -/
inductive Computation (Value : Type) : Type
  | done (value : Value)
  | failed (error : Error)
  | ask (request : Request) (resume : request.Answer → Computation Value)

namespace Computation

variable {Value Result : Type}

/-- Goes on with the value of a computation. -/
def andThen (next : Value → Computation Result) : Computation Value → Computation Result
  | .done value => next value
  | .failed error => .failed error
  | .ask request resume => .ask request fun answer => (resume answer).andThen next

instance : Monad Computation where
  pure := .done
  bind computation next := computation.andThen next

/-- The computation with a known outcome. -/
def ofOutcome : Outcome Value → Computation Value
  | .ok value => .done value
  | .error error => .failed error

instance : MonadLift Outcome Computation where
  monadLift := ofOutcome

/-- Asks for one thing and returns the answer. -/
def request (asked : Request) : Computation asked.Answer :=
  .ask asked .done

/-- The computation, counted as a run of a source before anything else of it. -/
def counted (source : Nat) (computation : Computation Value) : Computation Value :=
  .ask (.run source) fun _ => computation

/-- Maps every value of a list and concatenates the results, after those that were found before, the
latest first. -/
def concatMapOnto (change : Value → Computation (List Result)) (found : List (List Result)) :
    List Value → Computation (List Result)
  | [] => .done found.reverse.flatten
  | value :: values =>
    (change value).andThen fun results => concatMapOnto change (results :: found) values

/-- Maps every value of a list and concatenates the results, in order. -/
def concatMap (change : Value → Computation (List Result)) (values : List Value) :
    Computation (List Result) :=
  concatMapOnto change [] values

/-- To go on twice is to go on once with both steps. -/
theorem andThen_assoc {Middle : Type} (computation : Computation Value)
    (next : Value → Computation Middle) (last : Middle → Computation Result) :
    (computation.andThen next).andThen last =
      computation.andThen fun value => (next value).andThen last := by
  induction computation with
  | done value => rfl
  | failed error => rfl
  | ask request resume ih => simp only [andThen, ih]

/-- To go on with the value itself changes nothing. -/
theorem andThen_done (computation : Computation Value) :
    computation.andThen .done = computation := by
  induction computation with
  | done value => rfl
  | failed error => rfl
  | ask request resume ih => simp only [andThen, ih]

/-- What was found before stands in front of the results. -/
theorem concatMapOnto_eq (change : Value → Computation (List Result)) (found : List (List Result))
    (values : List Value) :
    concatMapOnto change found values =
      (concatMap change values).andThen fun results =>
        .done (found.reverse.flatten ++ results) := by
  unfold concatMap
  induction values generalizing found with
  | nil => simp [concatMapOnto, andThen]
  | cons value values ih =>
    simp only [concatMapOnto, andThen_assoc]
    congr
    funext results
    rw [ih, ih [results], andThen_assoc]
    simp [andThen]

/-- The first value is mapped before the others, and its results stand first. -/
theorem concatMap_cons (change : Value → Computation (List Result)) (value : Value)
    (values : List Value) :
    concatMap change (value :: values) =
      (change value).andThen fun results =>
        (concatMap change values).andThen fun rest => .done (results ++ rest) := by
  rw [concatMap, concatMapOnto]
  congr
  funext results
  rw [concatMapOnto_eq]
  simp

/-- Runs a computation with these answers. -/
def runWith {Effect : Type → Type} [Monad Effect] [MonadExceptOf Error Effect]
    (answer : (asked : Request) → Effect asked.Answer) : Computation Value → Effect Value
  | .done value => pure value
  | .failed error => throw error
  | .ask asked resume => do
    let given ← answer asked
    (resume given).runWith answer

end Computation

end BuildPath
