import BuildPath.Proofs.Lazy.Expression

/-!
# What a missing value is called

A source of one value can turn out to have none, and the error that this is names something for the
reader. An expression says what: the operand of the combination that stands nearest around the
source, by its label, or the whole expression if the source stands in no operand
(`Expression.Place.reported`). The name is handed down when the expression is evaluated, except into
a combination, which has fixed the labels of its operands by then; whatever is described further out
no longer matters (`Expression.undescribed`). All of it is in `Expression.missing_value_named`.
-/

namespace BuildPath

variable {Item Other Result : Type}

/-- A run of a source of one value that has none. -/
def Invocation.Vacant : Invocation → Prop
  | .provider _ outcome => outcome = .ok none
  | _ => False

namespace Expression

/-- Where a source of one value stands in an expression. -/
inductive Place : {Item : Type} → Expression Item → Type 1
  | here {Item : Type} [Nameable Item] {closure : Computation (Option Item)} :
    Place (.provider closure)
  | map {Item Result : Type} {change : Item → Result} {value : Expression Item}
    (below : Place value) : Place (.map change value)
  | tryMap {Item Result : Type} {change : Item → Computation Result} {value : Expression Item}
    (below : Place value) : Place (.tryMap change value)
  | flatMap {Item Result : Type} {change : Item → Computation (List Result)}
    {value : Expression Item} (below : Place value) : Place (.flatMap change value)
  | flatten {Item : Type} {value : Expression (List Item)} (below : Place value) :
    Place (.flatten value)
  | left {Item Other Result : Type} {combine : List Item → List Other → Computation (List Result)}
    {left : Expression Item} {right : Expression Other} (below : Place left) :
    Place (.zipWith combine left right)
  | right {Item Other Result : Type} {combine : List Item → List Other → Computation (List Result)}
    {left : Expression Item} {right : Expression Other} (below : Place right) :
    Place (.zipWith combine left right)
  | describe {Item : Type} {label : String} {value : Expression Item} (below : Place value) :
    Place (.describe label value)
  | clone {Item : Type} {value : Expression Item} (below : Place value) : Place (.clone value)

namespace Place

/-- The source at a place. -/
def closure {Item : Type} {expression : Expression Item} :
    Place expression → Σ Value : Type, Computation (Option Value)
  | @here _ _ closure => ⟨_, closure⟩
  | .map below => below.closure
  | .tryMap below => below.closure
  | .flatMap below => below.closure
  | .flatten below => below.closure
  | .left below => below.closure
  | .right below => below.closure
  | .describe below => below.closure
  | .clone below => below.closure

/-- The operand of a combination that stands nearest around a place, if there is one. -/
def operand? {Item : Type} {expression : Expression Item} :
    Place expression → Option (Σ Value : Type, Expression Value)
  | @here _ _ _ => none
  | .map below => below.operand?
  | .tryMap below => below.operand?
  | .flatMap below => below.operand?
  | .flatten below => below.operand?
  | @left _ _ _ _ first _ below => below.operand?.or (some ⟨_, first⟩)
  | @right _ _ _ _ _ second below => below.operand?.or (some ⟨_, second⟩)
  | .describe below => below.operand?
  | .clone below => below.operand?

/-- What a value that is missing at a place is called where the whole expression goes by a name. -/
def called {Item : Type} {expression : Expression Item} (place : Place expression)
    (name : String) : String :=
  place.operand?.elim name fun operand => operand.2.label

/-- What a value that is missing at a place is called: the label of the operand nearest around it,
or else of the whole expression. -/
def reported {Item : Type} {expression : Expression Item} (place : Place expression) : String :=
  place.called expression.label

/-- Everything that is evaluated before the source at a place has values: nothing but the left
operands of the combinations that have the place on their right. -/
def Reached {Item : Type} {expression : Expression Item}
    (answer : (asked : Request) → Event asked.Answer) (before after : Session) :
    Place expression → Prop
  | @here _ _ _ => after = before
  | .map below => below.Reached answer before after
  | .tryMap below => below.Reached answer before after
  | .flatMap below => below.Reached answer before after
  | .flatten below => below.Reached answer before after
  | .left below => below.Reached answer before after
  | @right _ _ _ _ first _ below => ∃ lefts middle,
    (first.build.evaluate.runWith answer).perform before = (.ok lefts, middle) ∧
      below.Reached answer middle after
  | .describe below => below.Reached answer before after
  | .clone below => below.Reached answer before after

end Place

/-- The same expression without the descriptions on the way down to a source or a combination. -/
def undescribed {Item : Type} : Expression Item → Expression Item
  | .map change value => .map change value.undescribed
  | .tryMap change value => .tryMap change value.undescribed
  | .flatMap change value => .flatMap change value.undescribed
  | .flatten value => .flatten value.undescribed
  | .describe _ value => value.undescribed
  | .clone value => .clone value.undescribed
  | expression => expression

/-- Whether the way down leads to a combination. -/
def IsCombined {Item : Type} : Expression Item → Prop
  | .map _ value => value.IsCombined
  | .tryMap _ value => value.IsCombined
  | .flatMap _ value => value.IsCombined
  | .flatten value => value.IsCombined
  | .zipWith .. => True
  | .describe _ value => value.IsCombined
  | .clone value => value.IsCombined
  | _ => False

end Expression

namespace Invocation

/-- A source of one value that has none does not succeed. -/
theorem Vacant.not_succeeds {invocation : Invocation} (vacant : invocation.Vacant) :
    ¬invocation.Succeeds := by
  cases invocation with
  | provider closure outcome =>
    cases vacant
    rintro ⟨item, ⟨⟩⟩
  | source closure outcome => exact vacant.elim
  | function closure outcome => exact vacant.elim

/-- What is applied to items is no source. -/
theorem Each.not_vacant {change : Item → Computation Result} {items : List Item}
    {invocations : List Invocation} {outcome : Outcome (List Result)}
    (each : Each change items invocations outcome) : ∀ run ∈ invocations, ¬run.Vacant := by
  induction each with
  | nothing => exact nofun
  | failed => exact List.forall_mem_singleton.2 id
  | next onward ih => exact List.forall_mem_cons.2 ⟨id, ih⟩

end Invocation

namespace Expression

open Invocation

variable {answer : (asked : Request) → Event asked.Answer} {before middle after : Session}

section Place

variable {left : Expression Item} {right : Expression Other}
  {combine : List Item → List Other → Computation (List Result)}

/-- A value that is missing in a left operand is called as it is there. -/
theorem Place.called_left (below : Place left) (name : String) :
    (Place.left below : Place (.zipWith combine left right)).called name = below.reported := by
  rw [called, operand?, reported, called]
  cases below.operand? <;> rfl

/-- A value that is missing in a right operand is called as it is there. -/
theorem Place.called_right (below : Place right) (name : String) :
    (Place.right below : Place (.zipWith combine left right)).called name = below.reported := by
  rw [called, operand?, reported, called]
  cases below.operand? <;> rfl

/-- Where the source at a place is reached and has no value, the value that is missing is called as
the place says. -/
theorem Place.perform_produce {expression : Expression Item} (place : Place expression)
    (name : String) (reached : place.Reached answer before middle)
    (vacant : (place.closure.2.runWith answer).perform middle = (.ok none, after)) :
    ((expression.build.produce name).runWith answer).perform before =
      (.error (.missingValue (place.called name)), after) := by
  induction place generalizing before name with
  | here =>
    cases reached
    exact (Event.perform_runWith_andThen_iff _ _).2 (.inr ⟨none, after, vacant, rfl⟩)
  | map below ih =>
    rw [build, LazyValue.produce_map, Event.perform_runWith_andThen_iff]
    exact .inl ⟨_, ih name reached vacant, rfl⟩
  | tryMap below ih =>
    exact (Event.perform_runWith_andThen_iff _ _).2 (.inl ⟨_, ih name reached vacant, rfl⟩)
  | flatMap below ih =>
    exact (Event.perform_runWith_andThen_iff _ _).2 (.inl ⟨_, ih name reached vacant, rfl⟩)
  | flatten below ih =>
    rw [build, LazyValue.produce_flatten, Event.perform_runWith_andThen_iff]
    exact .inl ⟨_, ih name reached vacant, rfl⟩
  | @left _ _ _ _ left _ below ih =>
    rw [build, LazyValue.produce_zipWith, Event.perform_runWith_andThen_iff, LazyValue.evaluate,
      label_build, called_left]
    exact .inl ⟨_, ih left.label reached vacant, rfl⟩
  | @right _ _ _ _ _ right below ih =>
    obtain ⟨lefts, halfway, first, reached⟩ := reached
    rw [build, LazyValue.produce_zipWith, Event.perform_runWith_andThen_iff, called_right]
    refine .inr ⟨lefts, halfway, first, ?_⟩
    rw [Event.perform_runWith_andThen_iff, LazyValue.evaluate, label_build]
    exact .inl ⟨_, ih right.label reached vacant, rfl⟩
  | describe below ih => exact ih name reached vacant
  | clone below ih => exact ih name reached vacant

/-- Where an expression has values, so has every source in it. -/
theorem Evaluates.not_vacant {expression : Expression Item} {name : String}
    {invocations : List Invocation} {items : List Item}
    (evaluates : expression.Evaluates name invocations (.ok items)) :
    ∀ run ∈ invocations, ¬run.Vacant :=
  fun run member vacant => vacant.not_succeeds (evaluates.orderly.2 run member)

/-- A source that has no value when an expression is evaluated stands at a place that is reached,
and that is all that comes of the expression. -/
theorem Evaluates.exists_place {expression : Expression Item} {name : String}
    {invocations : List Invocation} {outcome : Outcome (List Item)}
    (evaluates : expression.Evaluates name invocations outcome)
    (turn : InTurn answer before invocations after) {run : Invocation} (member : run ∈ invocations)
    (vacant : run.Vacant) :
    ∃ (place : Place expression) (middle : Session), place.Reached answer before middle ∧
      (place.closure.2.runWith answer).perform middle = (.ok none, after) ∧
      outcome = .error (.missingValue (place.called name)) := by
  induction evaluates generalizing before after with
  | of => contradiction
  | ofMany => contradiction
  | provided =>
    rw [List.mem_singleton.1 member] at vacant
    cases vacant
  | missing => exact ⟨.here, before, rfl, inTurn_singleton.1 turn, rfl⟩
  | unprovided =>
    rw [List.mem_singleton.1 member] at vacant
    cases vacant
  | fromFn =>
    rw [List.mem_singleton.1 member] at vacant
    exact vacant.elim
  | map computed =>
    rcases List.mem_append.1 member with early | late
    · exact absurd vacant (computed.not_vacant run early)
    · obtain ⟨item, -, rfl⟩ := List.mem_map.1 late
      exact vacant.elim
  | unmapped failed ih =>
    obtain ⟨place, middle, reached, missing, called⟩ := ih turn member
    exact ⟨.map place, middle, reached, missing, by cases called; rfl⟩
  | tryMap computed each =>
    rcases List.mem_append.1 member with early | late
    · exact absurd vacant (computed.not_vacant run early)
    · exact absurd vacant (each.not_vacant run late)
  | untried failed ih =>
    obtain ⟨place, middle, reached, missing, called⟩ := ih turn member
    exact ⟨.tryMap place, middle, reached, missing, by cases called; rfl⟩
  | flatMap computed each =>
    rcases List.mem_append.1 member with early | late
    · exact absurd vacant (computed.not_vacant run early)
    · exact absurd vacant (each.not_vacant run late)
  | unjoined failed ih =>
    obtain ⟨place, middle, reached, missing, called⟩ := ih turn member
    exact ⟨.flatMap place, middle, reached, missing, by cases called; rfl⟩
  | flatten computed ih =>
    obtain ⟨place, middle, reached, missing, rfl⟩ := ih turn member
    exact ⟨.flatten place, middle, reached, missing, rfl⟩
  | zipWith first second =>
    rcases List.mem_append.1 member with early | last
    · rcases List.mem_append.1 early with left | right
      · exact absurd vacant (first.not_vacant run left)
      · exact absurd vacant (second.not_vacant run right)
    · rw [List.mem_singleton.1 last] at vacant
      exact vacant.elim
  | leftless failed ih =>
    obtain ⟨place, middle, reached, missing, called⟩ := ih turn member
    cases called
    exact ⟨.left place, middle, reached, missing, by rw [place.called_left]; rfl⟩
  | @rightless _ _ _ _ left _ _ _ _ lefts _ first failed _ ih =>
    obtain ⟨halfway, early, late⟩ := inTurn_append.1 turn
    have evaluated : (left.build.evaluate.runWith answer).perform before =
        (.ok lefts, halfway) := by
      rw [LazyValue.evaluate, label_build]
      exact (perform_produce_iff left left.label).2 ⟨_, first, early⟩
    rcases List.mem_append.1 member with before | member
    · exact absurd vacant (first.not_vacant run before)
    · obtain ⟨place, middle, reached, missing, called⟩ := ih late member
      cases called
      exact ⟨.right place, middle, ⟨_, halfway, evaluated, reached⟩, missing,
        by rw [place.called_right]; rfl⟩
  | describe here ih =>
    obtain ⟨place, middle, reached, missing, called⟩ := ih turn member
    exact ⟨.describe place, middle, reached, missing, called⟩
  | clone here ih =>
    obtain ⟨place, middle, reached, missing, called⟩ := ih turn member
    exact ⟨.clone place, middle, reached, missing, called⟩

end Place

section Combined

/-- Descriptions on the way down to a combination make no difference, and neither does the name that
is handed down. -/
theorem produce_undescribed {expression : Expression Item} (combined : expression.IsCombined)
    (name other : String) :
    expression.undescribed.build.produce name = expression.build.produce other := by
  induction expression with
  | of | ofMany | provider | fromFn => exact combined.elim
  | map change value ih =>
    rw [undescribed, build, build, LazyValue.produce_map, LazyValue.produce_map, ih combined]
  | tryMap change value ih => exact congrArg (Computation.andThen _) (ih combined)
  | flatMap change value ih => exact congrArg (Computation.andThen _) (ih combined)
  | flatten value ih =>
    rw [undescribed, build, build, LazyValue.produce_flatten, LazyValue.produce_flatten,
      ih combined]
  | zipWith combine left right => rfl
  | describe label value ih => exact ih combined
  | clone value ih => exact ih combined

/-- To take descriptions away does not change where the way down leads. -/
theorem isCombined_undescribed (expression : Expression Item) :
    expression.undescribed.IsCombined ↔ expression.IsCombined := by
  induction expression with
  | of | ofMany | provider | fromFn | zipWith => rfl
  | map change value ih => exact ih
  | tryMap change value ih => exact ih
  | flatMap change value ih => exact ih
  | flatten value ih => exact ih
  | describe label value ih => exact ih
  | clone value ih => exact ih

/-- Expressions that lead down to a combination and differ in descriptions on the way are evaluated
alike. -/
theorem evaluate_of_undescribed {expression other : Expression Item}
    (combined : expression.IsCombined) (same : other.undescribed = expression.undescribed) :
    other.build.evaluate = expression.build.evaluate := by
  have combined' : other.IsCombined := by
    rw [← isCombined_undescribed, same, isCombined_undescribed]
    exact combined
  calc other.build.evaluate
    _ = other.undescribed.build.produce "" := (produce_undescribed combined' _ _).symm
    _ = expression.undescribed.build.produce "" := by rw [same]
    _ = expression.build.evaluate := produce_undescribed combined _ _

end Combined

/-- The only value of a list, or else an error that names where one was needed. -/
def only (label : String) : List Item → Outcome Item
  | [item] => .ok item
  | [] => .error (.missingValue label)
  | items => .error (.tooManyValues label items.length)

/-- Where one value of an expression is needed, an error names the whole expression, unless it is
that of a list of values that does not come about. -/
theorem perform_evaluateOne (expression : Expression Item) {outcome : Outcome (List Item)}
    (evaluated : (expression.build.evaluate.runWith answer).perform before = (outcome, after)) :
    (expression.build.evaluateOne.runWith answer).perform before =
      (outcome >>= only expression.label, after) := by
  refine (Event.perform_runWith_andThen_iff expression.build.evaluate _).2 ?_
  rw [← label_build]
  cases outcome with
  | error error => exact .inl ⟨error, evaluated, rfl⟩
  | ok items =>
    refine .inr ⟨items, after, evaluated, ?_⟩
    match items with
    | [] => rfl
    | [item] => rfl
    | first :: second :: rest => rfl

/-- A source of one value that is reached when an expression is evaluated and has none is what the
evaluation fails with, and no other failure comes of a source without a value. The value that is
missing is called as the nearest operand of a combination around the source is labelled, or as the
whole expression is if there is none; descriptions on the way down to a combination change nothing
at all. Where one value is needed and there are none or several, the whole expression is named. -/
theorem missing_value_named (answer : (asked : Request) → Event asked.Answer)
    (expression : Expression Item) (session : Session) :
    (∀ (place : Place expression) (middle after : Session),
      place.Reached answer session middle →
      (place.closure.2.runWith answer).perform middle = (.ok none, after) →
      (expression.build.evaluate.runWith answer).perform session =
        (.error (.missingValue place.reported), after)) ∧
    (∀ invocations outcome after, expression.Evaluates expression.label invocations outcome →
      InTurn answer session invocations after → (∃ run ∈ invocations, run.Vacant) →
      ∃ (place : Place expression) (middle : Session), place.Reached answer session middle ∧
        (place.closure.2.runWith answer).perform middle = (.ok none, after) ∧
        outcome = .error (.missingValue place.reported)) ∧
    (expression.IsCombined → ∀ other : Expression Item,
      other.undescribed = expression.undescribed →
        other.build.evaluate = expression.build.evaluate) ∧
    ∀ outcome after,
      (expression.build.evaluate.runWith answer).perform session = (outcome, after) →
      (expression.build.evaluateOne.runWith answer).perform session =
        (outcome >>= only expression.label, after) := by
  refine ⟨fun place middle after reached vacant => ?_, ?_, ?_, ?_⟩
  · rw [LazyValue.evaluate, label_build]
    exact place.perform_produce expression.label reached vacant
  · rintro invocations outcome after evaluates turn ⟨run, member, vacant⟩
    exact evaluates.exists_place turn member vacant
  · exact fun combined other same => evaluate_of_undescribed combined same
  · exact fun outcome after evaluated => perform_evaluateOne expression evaluated

/-- Of three descriptions on the way to a source, the outermost one inside its operand counts. -/
example : (describe "all" (zipWith (fun lefts rights => .done (lefts ++ rights))
    (describe "left" (of (1 : Int)))
    (describe "right" (map (· + 1) (describe "source" (provider (.done none))))))).build.evaluate =
      .failed (.missingValue "right") := rfl

end Expression
end BuildPath
