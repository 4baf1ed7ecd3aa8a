import BuildPath.Proofs.Lazy.Computation
import BuildPath.Proofs.Session.Event

/-!
# Lazy values as expressions

A lazy value is an expression of sources and of what maps, joins and describes them. What evaluating
an expression does is said here without computations (`Expression.Evaluates`): which closures run,
in which order and with what outcomes, and what comes of it. Every source runs once, from left to
right and before what is mapped over it, and a failure is the last thing that happens
(`Expression.Evaluates.orderly`). The lazy value that the expression builds does exactly that
(`Expression.evaluates_as_written`), whoever answers what the closures ask for, and building it does
nothing.
-/

namespace BuildPath

variable {Value Item Other Result : Type}

/-- A run of a closure, and what came of it. -/
inductive Invocation : Type 1
  /-- Of a source of one value or none. -/
  | provider {Item : Type} (closure : Computation (Option Item)) (outcome : Outcome (Option Item))
  /-- Of a source of any number of values. -/
  | source {Item : Type} (closure : Computation (List Item)) (outcome : Outcome (List Item))
  /-- Of a function, with what it is applied to. -/
  | function {Result : Type} (closure : Computation Result) (outcome : Outcome Result)

namespace Invocation

/-- The closure of a source, if it is one that runs. -/
def source? : Invocation → Option (Σ Value : Type, Computation Value)
  | .provider closure _ => some ⟨_, closure⟩
  | .source closure _ => some ⟨_, closure⟩
  | .function _ _ => none

/-- A run that does not end the evaluation. A source of one value has to have one. -/
def Succeeds : Invocation → Prop
  | .provider _ outcome => ∃ item, outcome = .ok (some item)
  | .source _ outcome => ∃ items, outcome = .ok items
  | .function _ outcome => ∃ result, outcome = .ok result

/-- A run that ends the evaluation with an error, which is that of the closure unless it only has no
value. -/
def FailsWith (error : Error) : Invocation → Prop
  | .provider _ outcome =>
    outcome = .error error ∨ outcome = .ok none ∧ ∃ reported, error = .missingValue reported
  | .source _ outcome => outcome = .error error
  | .function _ outcome => outcome = .error error

/-- Runs in which these sources run in order, each of them once, and all of which succeed. If the
outcome is an error, it is that of the last run, and the sources after that do not run. -/
def Orderly (sources : List (Σ Value : Type, Computation Value)) (invocations : List Invocation) :
    Outcome Value → Prop
  | .ok _ => invocations.filterMap source? = sources ∧
      ∀ invocation ∈ invocations, invocation.Succeeds
  | .error error => invocations.filterMap source? <+: sources ∧
      ∃ earlier last, invocations = earlier ++ [last] ∧
        (∀ invocation ∈ earlier, invocation.Succeeds) ∧ last.FailsWith error

/-- A function applied to items in order, up to the first of which it makes nothing. -/
inductive Each (change : Item → Computation Result) :
    List Item → List Invocation → Outcome (List Result) → Prop
  | nothing : Each change [] [] (.ok [])
  | failed {item : Item} {items : List Item} {error : Error} :
    Each change (item :: items) [.function (change item) (.error error)] (.error error)
  | next {item : Item} {items : List Item} {result : Result} {invocations : List Invocation}
    {outcome : Outcome (List Result)} (onward : Each change items invocations outcome) :
    Each change (item :: items) (.function (change item) (.ok result) :: invocations)
      ((result :: ·) <$> outcome)

variable {answer : (asked : Request) → Event asked.Answer}

/-- A run leads from one session to another, where requests are answered in a given way. -/
def Leads (answer : (asked : Request) → Event asked.Answer) (before : Session) :
    Invocation → Session → Prop
  | .provider closure outcome, after =>
    (closure.runWith answer).perform before = (outcome, after)
  | .source closure outcome, after => (closure.runWith answer).perform before = (outcome, after)
  | .function closure outcome, after => (closure.runWith answer).perform before = (outcome, after)

/-- Runs lead from one session to another, one after the other. -/
inductive InTurn (answer : (asked : Request) → Event asked.Answer) :
    Session → List Invocation → Session → Prop
  | nothing (session : Session) : InTurn answer session [] session
  | next {before middle after : Session} {first : Invocation} {rest : List Invocation}
    (leads : first.Leads answer before middle) (onward : InTurn answer middle rest after) :
    InTurn answer before (first :: rest) after

end Invocation

/-- A lazy value, written as what it is built from. Closures are computations: they see and leave
what their requests do. -/
inductive Expression : Type → Type 1
  /-- A known value. -/
  | of {Item : Type} [Nameable Item] (item : Item) : Expression Item
  /-- Known values. -/
  | ofMany {Item : Type} [Nameable Item] (items : List Item) : Expression Item
  /-- A closure that gives one value or none; it may fail. -/
  | provider {Item : Type} [Nameable Item] (closure : Computation (Option Item)) : Expression Item
  /-- A closure that gives a sequence of values; it may fail. -/
  | fromFn {Item : Type} [Nameable Item] (closure : Computation (List Item)) : Expression Item
  /-- Mapped by a function that neither asks nor fails; any other one is a matter of `tryMap`. -/
  | map {Item Result : Type} (change : Item → Result) (value : Expression Item) : Expression Result
  | tryMap {Item Result : Type} (change : Item → Computation Result) (value : Expression Item) :
    Expression Result
  | flatMap {Item Result : Type} (change : Item → Computation (List Result))
    (value : Expression Item) : Expression Result
  | flatten {Item : Type} (value : Expression (List Item)) : Expression Item
  | zipWith {Item Other Result : Type}
    (combine : List Item → List Other → Computation (List Result)) (left : Expression Item)
    (right : Expression Other) : Expression Result
  | describe {Item : Type} (label : String) (value : Expression Item) : Expression Item
  /-- The same lazy value in one more place. -/
  | clone {Item : Type} (value : Expression Item) : Expression Item

namespace Expression

/-- The lazy value that an expression builds. -/
def build {Item : Type} : Expression Item → LazyValue Item
  | @of _ _ item => .of item
  | @ofMany _ _ items => .ofMany items
  | @provider _ _ closure => .provider closure
  | @fromFn _ _ closure => .ofComputation closure
  | .map change value => value.build.map change
  | .tryMap change value => value.build.tryMap change
  | .flatMap change value => value.build.flatMap change
  | .flatten value => value.build.flatten
  | .zipWith combine left right => left.build.zipWith combine right.build
  | .describe label value => value.build.describe label
  | .clone value => value.build

/-- An expression built part by part in a session. -/
def building {Item : Type} : Expression Item → Event (LazyValue Item)
  | @of _ _ item => return .of item
  | @ofMany _ _ items => return .ofMany items
  | @provider _ _ closure => return .provider closure
  | @fromFn _ _ closure => return .ofComputation closure
  | .map change value => return (← value.building).map change
  | .tryMap change value => return (← value.building).tryMap change
  | .flatMap change value => return (← value.building).flatMap change
  | .flatten value => return (← value.building).flatten
  | .zipWith combine left right => do
    let first ← left.building
    let second ← right.building
    return first.zipWith combine second
  | .describe label value => return (← value.building).describe label
  | .clone value => value.building

/-- The text of the outermost description on the way down to a source, or else the label of that
source. Two lazy values that are combined are labelled by both. -/
def label {Item : Type} : Expression Item → String
  | @of Item _ _ | @ofMany Item _ _ | @provider Item _ _ | @fromFn Item _ _ =>
    LazyValue.defaultLabel Item
  | .map _ value => value.label
  | .tryMap _ value => value.label
  | .flatMap _ value => value.label
  | .flatten value => value.label
  | .zipWith _ left right => left.label ++ " with " ++ right.label
  | .describe label _ => label
  | .clone value => value.label

/-- The sources of an expression from left to right, each as often as it stands there. -/
def sources {Item : Type} : Expression Item → List (Σ Value : Type, Computation Value)
  | @of _ _ _ | @ofMany _ _ _ => []
  | @provider _ _ closure => [⟨_, closure⟩]
  | @fromFn _ _ closure => [⟨_, closure⟩]
  | .map _ value => value.sources
  | .tryMap _ value => value.sources
  | .flatMap _ value => value.sources
  | .flatten value => value.sources
  | .zipWith _ left right => left.sources ++ right.sources
  | .describe _ value => value.sources
  | .clone value => value.sources

/-- What evaluating an expression does: the closures that run in turn, and what comes of it. A value
that is missing is reported under the given name. Values are mapped once all of them are there, and
lists of values are combined once both are there, the left one first; a combined list is evaluated
on its own, under its own label. Where a value fails, what is made of it fails as well. -/
inductive Evaluates : {Item : Type} → Expression Item → String → List Invocation →
    Outcome (List Item) → Prop
  | of {Item : Type} [Nameable Item] {item : Item} {reported : String} :
    Evaluates (.of item) reported [] (.ok [item])
  | ofMany {Item : Type} [Nameable Item] {items : List Item} {reported : String} :
    Evaluates (.ofMany items) reported [] (.ok items)
  | provided {Item : Type} [Nameable Item] {closure : Computation (Option Item)} {item : Item}
    {reported : String} :
    Evaluates (.provider closure) reported [.provider closure (.ok (some item))] (.ok [item])
  | missing {Item : Type} [Nameable Item] {closure : Computation (Option Item)}
    {reported : String} :
    Evaluates (.provider closure) reported [.provider closure (.ok none)]
      (.error (.missingValue reported))
  | unprovided {Item : Type} [Nameable Item] {closure : Computation (Option Item)}
    {reported : String} {error : Error} :
    Evaluates (.provider closure) reported [.provider closure (.error error)] (.error error)
  | fromFn {Item : Type} [Nameable Item] {closure : Computation (List Item)} {reported : String}
    {outcome : Outcome (List Item)} :
    Evaluates (.fromFn closure) reported [.source closure outcome] outcome
  | map {Item Result : Type} {change : Item → Result} {value : Expression Item} {reported : String}
    {invocations : List Invocation} {items : List Item}
    (computed : Evaluates value reported invocations (.ok items)) :
    Evaluates (.map change value) reported
      (invocations ++ items.map fun item => .function (.done (change item)) (.ok (change item)))
      (.ok (items.map change))
  | unmapped {Item Result : Type} {change : Item → Result} {value : Expression Item}
    {reported : String} {invocations : List Invocation} {error : Error}
    (failed : Evaluates value reported invocations (.error error)) :
    Evaluates (.map change value) reported invocations (.error error)
  | tryMap {Item Result : Type} {change : Item → Computation Result} {value : Expression Item}
    {reported : String} {invocations more : List Invocation} {items : List Item}
    {results : Outcome (List Result)}
    (computed : Evaluates value reported invocations (.ok items))
    (each : Invocation.Each change items more results) :
    Evaluates (.tryMap change value) reported (invocations ++ more) results
  | untried {Item Result : Type} {change : Item → Computation Result} {value : Expression Item}
    {reported : String} {invocations : List Invocation} {error : Error}
    (failed : Evaluates value reported invocations (.error error)) :
    Evaluates (.tryMap change value) reported invocations (.error error)
  | flatMap {Item Result : Type} {change : Item → Computation (List Result)}
    {value : Expression Item} {reported : String} {invocations more : List Invocation}
    {items : List Item} {lists : Outcome (List (List Result))}
    (computed : Evaluates value reported invocations (.ok items))
    (each : Invocation.Each change items more lists) :
    Evaluates (.flatMap change value) reported (invocations ++ more) (List.flatten <$> lists)
  | unjoined {Item Result : Type} {change : Item → Computation (List Result)}
    {value : Expression Item} {reported : String} {invocations : List Invocation} {error : Error}
    (failed : Evaluates value reported invocations (.error error)) :
    Evaluates (.flatMap change value) reported invocations (.error error)
  | flatten {Item : Type} {value : Expression (List Item)} {reported : String}
    {invocations : List Invocation} {lists : Outcome (List (List Item))}
    (computed : Evaluates value reported invocations lists) :
    Evaluates (.flatten value) reported invocations (List.flatten <$> lists)
  | zipWith {Item Other Result : Type}
    {combine : List Item → List Other → Computation (List Result)} {left : Expression Item}
    {right : Expression Other} {reported : String} {invocations more : List Invocation}
    {lefts : List Item} {rights : List Other} {outcome : Outcome (List Result)}
    (first : Evaluates left left.label invocations (.ok lefts))
    (second : Evaluates right right.label more (.ok rights)) :
    Evaluates (.zipWith combine left right) reported
      (invocations ++ more ++ [.function (combine lefts rights) outcome]) outcome
  | leftless {Item Other Result : Type}
    {combine : List Item → List Other → Computation (List Result)} {left : Expression Item}
    {right : Expression Other} {reported : String} {invocations : List Invocation} {error : Error}
    (first : Evaluates left left.label invocations (.error error)) :
    Evaluates (.zipWith combine left right) reported invocations (.error error)
  | rightless {Item Other Result : Type}
    {combine : List Item → List Other → Computation (List Result)} {left : Expression Item}
    {right : Expression Other} {reported : String} {invocations more : List Invocation}
    {lefts : List Item} {error : Error}
    (first : Evaluates left left.label invocations (.ok lefts))
    (second : Evaluates right right.label more (.error error)) :
    Evaluates (.zipWith combine left right) reported (invocations ++ more) (.error error)
  | describe {Item : Type} {label reported : String} {value : Expression Item}
    {invocations : List Invocation} {outcome : Outcome (List Item)}
    (here : Evaluates value reported invocations outcome) :
    Evaluates (.describe label value) reported invocations outcome
  | clone {Item : Type} {reported : String} {value : Expression Item}
    {invocations : List Invocation} {outcome : Outcome (List Item)}
    (here : Evaluates value reported invocations outcome) :
    Evaluates (.clone value) reported invocations outcome

/-- The label of an expression is that of the lazy value that it builds. -/
theorem label_build (expression : Expression Item) : expression.build.label = expression.label := by
  induction expression with
  | of item => rfl
  | ofMany items => rfl
  | provider closure => rfl
  | fromFn closure => rfl
  | map change value ih => exact ih
  | tryMap change value ih => exact ih
  | flatMap change value ih => exact ih
  | flatten value ih => exact ih
  | zipWith combine left right first second =>
    change left.build.label ++ " with " ++ right.build.label = _
    rw [first, second, label]
  | describe label value ih => rfl
  | clone value ih => exact ih

/-- To build an expression does nothing in the session. -/
theorem perform_building (expression : Expression Item) (session : Session) :
    expression.building.perform session = (.ok expression.build, session) := by
  induction expression with
  | of item => rfl
  | ofMany items => rfl
  | provider closure => rfl
  | fromFn closure => rfl
  | map change value ih => exact Event.perform_bind_of_ok ih
  | tryMap change value ih => exact Event.perform_bind_of_ok ih
  | flatMap change value ih => exact Event.perform_bind_of_ok ih
  | flatten value ih => exact Event.perform_bind_of_ok ih
  | zipWith combine left right first second =>
    exact (Event.perform_bind_of_ok first).trans (Event.perform_bind_of_ok second)
  | describe label value ih => exact Event.perform_bind_of_ok ih
  | clone value ih => exact ih

end Expression

namespace Invocation

section Orderly

variable {sources others : List (Σ Value : Type, Computation Value)}
  {invocations more : List Invocation} {error : Error}

/-- Where nothing runs, nothing is out of order. -/
theorem orderly_nil (value : Value) : Orderly [] [] (.ok value) := ⟨rfl, nofun⟩

/-- What comes of orderly runs does not matter, only whether something does. -/
theorem Orderly.map {outcome : Outcome Value} (orderly : Orderly sources invocations outcome)
    (change : Value → Result) : Orderly sources invocations (change <$> outcome) := by
  cases outcome <;> exact orderly

/-- Orderly runs that end in an error stay so with more sources to come. -/
theorem Orderly.cut
    (orderly : Orderly sources invocations (.error error : Outcome Value)) :
    Orderly (sources ++ others) invocations (.error error : Outcome Result) :=
  ⟨orderly.1.trans (List.prefix_append _ _), orderly.2⟩

/-- Orderly runs after others that succeeded are orderly. -/
theorem Orderly.append {value : Value} {outcome : Outcome Result}
    (first : Orderly sources invocations (.ok value)) (second : Orderly others more outcome) :
    Orderly (sources ++ others) (invocations ++ more) outcome := by
  obtain ⟨listed, succeed⟩ := first
  cases outcome with
  | ok result =>
    refine ⟨?_, List.forall_mem_append.2 ⟨succeed, second.2⟩⟩
    rw [List.filterMap_append, listed, second.1]
  | error error =>
    obtain ⟨before, earlier, last, rfl, fine, failed⟩ := second
    refine ⟨?_, invocations ++ earlier, last, (List.append_assoc ..).symm,
      List.forall_mem_append.2 ⟨succeed, fine⟩, failed⟩
    rw [List.filterMap_append, listed]
    exact (List.prefix_append_right_inj _).2 before

/-- A function that runs alone is orderly. -/
theorem orderly_function (closure : Computation Result) (outcome : Outcome Result) :
    Orderly [] [.function closure outcome] outcome := by
  cases outcome with
  | ok result => exact ⟨rfl, List.forall_mem_singleton.2 ⟨result, rfl⟩⟩
  | error error => exact ⟨List.prefix_refl _, [], _, rfl, nofun, rfl⟩

/-- Applying a function to items in order is orderly. -/
theorem Each.orderly {change : Item → Computation Result} {items : List Item}
    {outcome : Outcome (List Result)} (each : Each change items invocations outcome) :
    Orderly [] invocations outcome := by
  induction each with
  | nothing => exact orderly_nil []
  | @failed item items error =>
    have orderly : Orderly [] _ (.error error : Outcome Result) := orderly_function (change item) _
    exact orderly
  | @next item items result invocations outcome _ ih =>
    exact (orderly_function (change item) (.ok result)).append (ih.map _)

end Orderly

/-- Functions that ask for nothing are orderly. -/
theorem orderly_known (change : Item → Result) (items : List Item) :
    Orderly [] (items.map fun item => .function (.done (change item)) (.ok (change item)))
      (.ok (items.map change)) := by
  constructor
  · rw [List.filterMap_map]
    exact List.filterMap_eq_nil_iff.2 fun _ _ => rfl
  · exact List.forall_mem_map.2 fun item _ => ⟨change item, rfl⟩

variable {answer : (asked : Request) → Event asked.Answer} {before after : Session}
  {first second : List Invocation}

/-- Where nothing runs, the session stays as it is. -/
theorem inTurn_nil : InTurn answer before [] after ↔ after = before := by
  constructor
  · rintro ⟨⟩
    rfl
  · rintro rfl
    exact .nothing _

/-- Of runs in turn, the first leads to where the others begin. -/
theorem inTurn_cons {invocation : Invocation} {rest : List Invocation} :
    InTurn answer before (invocation :: rest) after ↔
      ∃ middle, invocation.Leads answer before middle ∧ InTurn answer middle rest after := by
  constructor
  · rintro (_ | ⟨leads, onward⟩)
    exact ⟨_, leads, onward⟩
  · rintro ⟨middle, leads, onward⟩
    exact .next leads onward

/-- A single run leads from one session to another by itself. -/
theorem inTurn_singleton {invocation : Invocation} :
    InTurn answer before [invocation] after ↔ invocation.Leads answer before after := by
  simp only [inTurn_cons, inTurn_nil, exists_eq_right']

/-- Runs in two parts lead to a session between them. -/
theorem inTurn_append : InTurn answer before (first ++ second) after ↔
    ∃ middle, InTurn answer before first middle ∧ InTurn answer middle second after := by
  induction first generalizing before with
  | nil => simp [inTurn_nil]
  | cons invocation first ih =>
    simp only [List.cons_append, inTurn_cons, ih]
    constructor
    · rintro ⟨next, leads, middle, onward, later⟩
      exact ⟨middle, ⟨next, leads, onward⟩, later⟩
    · rintro ⟨middle, ⟨next, leads, onward⟩, later⟩
      exact ⟨next, leads, middle, onward, later⟩

/-- Functions that ask for nothing leave the session as it is. -/
theorem inTurn_known (change : Item → Result) (items : List Item) :
    InTurn answer before
      (items.map fun item => .function (.done (change item)) (.ok (change item))) after ↔
        after = before := by
  induction items with
  | nil => exact inTurn_nil
  | cons item items ih =>
    rw [List.map_cons, inTurn_cons]
    constructor
    · rintro ⟨middle, leads, onward⟩
      cases leads
      exact ih.1 onward
    · rintro rfl
      exact ⟨after, rfl, ih.2 rfl⟩

end Invocation

namespace Event

/-- Events in sequence end as the first does if that fails, and else as the second does. -/
theorem perform_bind_eq_iff {event : Event Value} {next : Value → Event Result}
    {before after : Session} {outcome : Outcome Result} :
    Event.perform (event >>= next) before = (outcome, after) ↔
      (∃ error, event.perform before = (.error error, after) ∧ outcome = .error error) ∨
        ∃ value middle, event.perform before = (.ok value, middle) ∧
          (next value).perform middle = (outcome, after) := by
  cases outcome with
  | ok result => simp only [perform_bind_eq_ok, reduceCtorEq, and_false, exists_false, false_or]
  | error error =>
    simp only [perform_bind_eq_error, Except.error.injEq, @eq_comm _ error, exists_eq_right]

end Event

open Invocation

variable {answer : (asked : Request) → Event asked.Answer} {before after : Session}

/-- Computations in sequence end as the first does if that fails, and else as the second does. -/
theorem Event.perform_runWith_andThen_iff (computation : Computation Value)
    (next : Value → Computation Result) {outcome : Outcome Result} :
    ((computation.andThen next).runWith answer).perform before = (outcome, after) ↔
      (∃ error, (computation.runWith answer).perform before = (.error error, after) ∧
        outcome = .error error) ∨
        ∃ value middle, (computation.runWith answer).perform before = (.ok value, middle) ∧
          ((next value).runWith answer).perform middle = (outcome, after) := by
  rw [← Event.perform_bind_eq_iff, ← Computation.runWith_andThen]

/-- What a computation yields may be changed after it was run. -/
theorem Computation.perform_map (computation : Computation Value) (change : Value → Result)
    (before : Session) :
    ((computation.andThen fun value => .done (change value)).runWith answer).perform before =
      (change <$> ((computation.runWith answer).perform before).1,
        ((computation.runWith answer).perform before).2) := by
  rw [runWith_andThen, Event.perform_bind]
  obtain ⟨outcome, after⟩ := (computation.runWith answer).perform before
  cases outcome <;> rfl

section Each

variable (change : Item → Computation Other) (wrap : Other → List Result) (items : List Item)

/-- To map items one after the other and join the results is to apply the function to each. -/
theorem Computation.perform_wrapEach_iff {outcome : Outcome (List Result)} :
    ((concatMap (fun item => (change item).andThen fun found => .done (wrap found)) items).runWith
        answer).perform before = (outcome, after) ↔
      ∃ invocations results, Each change items invocations results ∧
        InTurn answer before invocations after ∧ outcome = List.flatMap wrap <$> results := by
  induction items generalizing before outcome with
  | nil =>
    constructor
    · rintro ⟨⟩
      exact ⟨[], _, .nothing, .nothing _, rfl⟩
    · rintro ⟨_, _, ⟨⟩, ⟨⟩, rfl⟩
      rfl
  | cons item items ih =>
    rw [concatMap_cons, andThen_assoc, Event.perform_runWith_andThen_iff]
    constructor
    · rintro (⟨error, failed, rfl⟩ | ⟨found, middle, here, rest⟩)
      · exact ⟨_, _, .failed, inTurn_singleton.2 failed, rfl⟩
      · rw [andThen, perform_map, Prod.mk.injEq] at rest
        obtain ⟨rfl, rfl⟩ := rest
        obtain ⟨invocations, results, each, turn, joined⟩ := ih.1 (Prod.eta _).symm
        refine ⟨_, _, .next each, .next here turn, ?_⟩
        rw [joined]
        cases results <;> rfl
    · rintro ⟨_, _, each, turn, rfl⟩
      cases each with
      | failed => exact .inl ⟨_, inTurn_singleton.1 turn, rfl⟩
      | @next _ _ found invocations results each =>
        obtain ⟨middle, here, turn⟩ := inTurn_cons.1 turn
        refine .inr ⟨found, middle, here, ?_⟩
        rw [andThen, perform_map, ih.2 ⟨_, _, each, turn, rfl⟩]
        cases results <;> rfl

/-- To map items to lists and join these is to apply the function to each. -/
theorem Computation.perform_concatMap_iff {change : Item → Computation (List Result)}
    {outcome : Outcome (List Result)} :
    ((concatMap change items).runWith answer).perform before = (outcome, after) ↔
      ∃ invocations lists, Each change items invocations lists ∧
        InTurn answer before invocations after ∧ outcome = List.flatten <$> lists := by
  have joined : (List.flatMap id : List (List Result) → List Result) = List.flatten :=
    funext fun _ => List.flatMap_id
  have kept : (fun item => (change item).andThen fun found => .done (id found)) = change :=
    funext fun item => andThen_done (change item)
  rw [← joined, ← perform_wrapEach_iff change id items, kept]

/-- To map items one by one is to apply the function to each. -/
theorem Computation.perform_tryEach_iff {outcome : Outcome (List Other)} :
    ((concatMap (fun item => do return [← change item]) items).runWith answer).perform before =
        (outcome, after) ↔
      ∃ invocations, Each change items invocations outcome ∧
        InTurn answer before invocations after := by
  have kept : (List.flatMap fun item : Other => [item]) = id := funext List.flatMap_singleton'
  refine (perform_wrapEach_iff change (fun found => [found]) items).trans ?_
  rw [kept]
  simp only [id_map]
  constructor
  · rintro ⟨invocations, results, each, turn, rfl⟩
    exact ⟨invocations, each, turn⟩
  · rintro ⟨invocations, each, turn⟩
    exact ⟨invocations, outcome, each, turn, rfl⟩

end Each

namespace LazyValue

/-- The values of a lazy value that is mapped are those of the list mapped. -/
theorem produce_map (value : LazyValue Item) (change : Item → Result) (reported : String) :
    (value.map change).produce reported =
      (value.produce reported).andThen fun items => .done (items.map change) :=
  congrArg (value.produce reported).andThen (funext (Computation.concatMap_singleton change))

/-- The values of a lazy value of lists that is flattened are those of the lists joined. -/
theorem produce_flatten (value : LazyValue (List Item)) (reported : String) :
    value.flatten.produce reported =
      (value.produce reported).andThen fun lists => .done lists.flatten := by
  refine congrArg (value.produce reported).andThen (funext fun lists => ?_)
  induction lists with
  | nil => rfl
  | cons items lists ih =>
    rw [Computation.concatMap_cons, ih]
    rfl

/-- The values of two lazy values that are combined are those of both lists combined. -/
theorem produce_zipWith (combine : List Item → List Other → Computation (List Result))
    (left : LazyValue Item) (right : LazyValue Other) (reported : String) :
    (left.zipWith combine right).produce reported =
      left.evaluate.andThen fun lefts => right.evaluate.andThen (combine lefts) := rfl

end LazyValue

namespace Expression

/-- What comes of an expression is what evaluating it does, in turn. -/
theorem perform_produce_iff (expression : Expression Item) (reported : String)
    {outcome : Outcome (List Item)} :
    ((expression.build.produce reported).runWith answer).perform before = (outcome, after) ↔
      ∃ invocations, expression.Evaluates reported invocations outcome ∧
        InTurn answer before invocations after := by
  induction expression generalizing reported before after with
  | of item =>
    constructor
    · rintro ⟨⟩
      exact ⟨[], .of, .nothing _⟩
    · rintro ⟨_, ⟨⟩, ⟨⟩⟩
      rfl
  | ofMany items =>
    constructor
    · rintro ⟨⟩
      exact ⟨[], .ofMany, .nothing _⟩
    · rintro ⟨_, ⟨⟩, ⟨⟩⟩
      rfl
  | provider closure =>
    refine (Event.perform_runWith_andThen_iff closure _).trans ?_
    constructor
    · rintro (⟨error, failed, rfl⟩ | ⟨_ | item, middle, ran, done⟩)
      · exact ⟨_, .unprovided, inTurn_singleton.2 failed⟩
      · cases done
        exact ⟨_, .missing, inTurn_singleton.2 ran⟩
      · cases done
        exact ⟨_, .provided, inTurn_singleton.2 ran⟩
    · rintro ⟨_, evaluates, turn⟩
      cases evaluates with
      | provided => exact .inr ⟨_, _, inTurn_singleton.1 turn, rfl⟩
      | missing => exact .inr ⟨_, _, inTurn_singleton.1 turn, rfl⟩
      | unprovided => exact .inl ⟨_, inTurn_singleton.1 turn, rfl⟩
  | fromFn closure =>
    constructor
    · exact fun ran => ⟨_, .fromFn, inTurn_singleton.2 ran⟩
    · rintro ⟨_, ⟨⟩, turn⟩
      exact inTurn_singleton.1 turn
  | map change value ih =>
    rw [build, LazyValue.produce_map, Event.perform_runWith_andThen_iff]
    simp only [ih]
    constructor
    · rintro (⟨error, ⟨invocations, failed, turn⟩, rfl⟩ |
        ⟨items, middle, ⟨invocations, computed, turn⟩, done⟩)
      · exact ⟨invocations, .unmapped failed, turn⟩
      · cases done
        exact ⟨_, .map computed, inTurn_append.2 ⟨_, turn, (inTurn_known change items).2 rfl⟩⟩
    · rintro ⟨_, evaluates, turn⟩
      cases evaluates with
      | map computed =>
        obtain ⟨middle, turn, later⟩ := inTurn_append.1 turn
        rw [(inTurn_known change _).1 later]
        exact .inr ⟨_, middle, ⟨_, computed, turn⟩, rfl⟩
      | unmapped failed => exact .inl ⟨_, ⟨_, failed, turn⟩, rfl⟩
  | tryMap change value ih =>
    refine (Event.perform_runWith_andThen_iff (value.build.produce reported) _).trans ?_
    simp only [ih, Computation.perform_tryEach_iff]
    constructor
    · rintro (⟨error, ⟨invocations, failed, turn⟩, rfl⟩ |
        ⟨items, middle, ⟨invocations, computed, turn⟩, more, each, later⟩)
      · exact ⟨invocations, .untried failed, turn⟩
      · exact ⟨_, .tryMap computed each, inTurn_append.2 ⟨middle, turn, later⟩⟩
    · rintro ⟨_, evaluates, turn⟩
      cases evaluates with
      | tryMap computed each =>
        obtain ⟨middle, turn, later⟩ := inTurn_append.1 turn
        exact .inr ⟨_, middle, ⟨_, computed, turn⟩, _, each, later⟩
      | untried failed => exact .inl ⟨_, ⟨_, failed, turn⟩, rfl⟩
  | flatMap change value ih =>
    refine (Event.perform_runWith_andThen_iff (value.build.produce reported) _).trans ?_
    simp only [ih, Computation.perform_concatMap_iff]
    constructor
    · rintro (⟨error, ⟨invocations, failed, turn⟩, rfl⟩ |
        ⟨items, middle, ⟨invocations, computed, turn⟩, more, lists, each, later, rfl⟩)
      · exact ⟨invocations, .unjoined failed, turn⟩
      · exact ⟨_, .flatMap computed each, inTurn_append.2 ⟨middle, turn, later⟩⟩
    · rintro ⟨_, evaluates, turn⟩
      cases evaluates with
      | flatMap computed each =>
        obtain ⟨middle, turn, later⟩ := inTurn_append.1 turn
        exact .inr ⟨_, middle, ⟨_, computed, turn⟩, _, _, each, later, rfl⟩
      | unjoined failed => exact .inl ⟨_, ⟨_, failed, turn⟩, rfl⟩
  | flatten value ih =>
    rw [build, LazyValue.produce_flatten, Computation.perform_map]
    constructor
    · rintro ⟨⟩
      obtain ⟨invocations, computed, turn⟩ := (ih reported).1 rfl
      exact ⟨invocations, .flatten computed, turn⟩
    · rintro ⟨_, evaluates, turn⟩
      cases evaluates with
      | flatten computed => rw [(ih reported).2 ⟨_, computed, turn⟩]
  | zipWith combine left right first second =>
    rw [build, LazyValue.produce_zipWith, Event.perform_runWith_andThen_iff]
    simp only [LazyValue.evaluate, label_build, Event.perform_runWith_andThen_iff, first, second]
    constructor
    · rintro (⟨error, ⟨invocations, failed, turn⟩, rfl⟩ |
        ⟨lefts, middle, ⟨invocations, one, turn⟩, ⟨error, ⟨more, failed, later⟩, rfl⟩ |
          ⟨rights, last, ⟨more, other, later⟩, combined⟩⟩)
      · exact ⟨invocations, .leftless failed, turn⟩
      · exact ⟨_, .rightless one failed, inTurn_append.2 ⟨middle, turn, later⟩⟩
      · exact ⟨_, .zipWith one other, inTurn_append.2
          ⟨last, inTurn_append.2 ⟨middle, turn, later⟩, inTurn_singleton.2 combined⟩⟩
    · rintro ⟨_, evaluates, turn⟩
      cases evaluates with
      | zipWith one other =>
        obtain ⟨last, turn, combined⟩ := inTurn_append.1 turn
        obtain ⟨middle, turn, later⟩ := inTurn_append.1 turn
        exact .inr ⟨_, middle, ⟨_, one, turn⟩, .inr
          ⟨_, last, ⟨_, other, later⟩, inTurn_singleton.1 combined⟩⟩
      | leftless failed => exact .inl ⟨_, ⟨_, failed, turn⟩, rfl⟩
      | rightless one failed =>
        obtain ⟨middle, turn, later⟩ := inTurn_append.1 turn
        exact .inr ⟨_, middle, ⟨_, one, turn⟩, .inl ⟨_, ⟨_, failed, later⟩, rfl⟩⟩
  | describe label value ih =>
    refine (ih reported).trans ⟨?_, ?_⟩
    · exact fun ⟨invocations, here, turn⟩ => ⟨invocations, .describe here, turn⟩
    · rintro ⟨invocations, ⟨⟩, turn⟩
      exact ⟨invocations, ‹_›, turn⟩
  | clone value ih =>
    refine (ih reported).trans ⟨?_, ?_⟩
    · exact fun ⟨invocations, here, turn⟩ => ⟨invocations, .clone here, turn⟩
    · rintro ⟨invocations, ⟨⟩, turn⟩
      exact ⟨invocations, ‹_›, turn⟩

/-- A failure is the last thing that happens when an expression is evaluated, and every source up to
there runs once and in order. -/
theorem Evaluates.orderly {expression : Expression Item} {reported : String}
    {invocations : List Invocation} {outcome : Outcome (List Item)}
    (evaluates : expression.Evaluates reported invocations outcome) :
    Orderly expression.sources invocations outcome := by
  induction evaluates with
  | of => exact orderly_nil _
  | ofMany => exact orderly_nil _
  | @provided _ _ closure item => exact ⟨rfl, List.forall_mem_singleton.2 ⟨item, rfl⟩⟩
  | @missing _ _ closure reported =>
    exact ⟨List.prefix_refl _, [], _, rfl, nofun, .inr ⟨rfl, reported, rfl⟩⟩
  | unprovided => exact ⟨List.prefix_refl _, [], _, rfl, nofun, .inl rfl⟩
  | @fromFn _ _ closure reported outcome =>
    cases outcome with
    | ok items => exact ⟨rfl, List.forall_mem_singleton.2 ⟨items, rfl⟩⟩
    | error error => exact ⟨List.prefix_refl _, [], _, rfl, nofun, rfl⟩
  | @map _ _ change _ _ _ items computed ih =>
    have orderly := ih.append (orderly_known change items)
    rwa [List.append_nil] at orderly
  | unmapped failed ih => exact ih
  | tryMap computed each ih =>
    have orderly := ih.append each.orderly
    rwa [List.append_nil] at orderly
  | untried failed ih => exact ih
  | flatMap computed each ih =>
    have orderly := ih.append (each.orderly.map List.flatten)
    rwa [List.append_nil] at orderly
  | unjoined failed ih => exact ih
  | flatten computed ih => exact ih.map _
  | @zipWith _ _ _ combine left right reported invocations more lefts rights outcome first second
    one other =>
    have orderly := (one.append other).append (orderly_function (combine lefts rights) outcome)
    rwa [List.append_nil] at orderly
  | leftless first ih => exact ih.cut
  | rightless first second one other => exact one.append other
  | describe here ih => exact ih
  | clone here ih => exact ih

/-- Building an expression does nothing. Evaluating what was built runs closures as the expression
says: each source once, from left to right and before anything that is mapped over it, and every
function on what it is mapped over, in order, up to the first failure, whose error is what comes of
it. Without a failure, all sources run, and what comes of it is what the functions make of the whole
lists. -/
theorem evaluates_as_written (answer : (asked : Request) → Event asked.Answer)
    (expression : Expression Item) (session : Session) :
    expression.building.perform session = (.ok expression.build, session) ∧
    ∀ outcome after,
      (expression.build.evaluate.runWith answer).perform session = (outcome, after) ↔
        ∃ invocations, expression.Evaluates expression.label invocations outcome ∧
          Orderly expression.sources invocations outcome ∧
          InTurn answer session invocations after := by
  refine ⟨expression.perform_building session, fun outcome after => ?_⟩
  rw [LazyValue.evaluate, label_build, perform_produce_iff]
  constructor
  · rintro ⟨invocations, evaluates, turn⟩
    exact ⟨invocations, evaluates, evaluates.orderly, turn⟩
  · rintro ⟨invocations, evaluates, -, turn⟩
    exact ⟨invocations, evaluates, turn⟩

/-- A function that fails on a later value decides before one that is mapped over its results and
fails on the first of them. -/
example : (tryMap (fun _ : Int => (.failed (.provider "outer") : Computation Int))
    (tryMap (fun item : Int => if item = 2 then .failed (.provider "inner") else .done item)
      (ofMany [1, 2]))).build.evaluate = .failed (.provider "inner") := rfl

end Expression

end BuildPath
