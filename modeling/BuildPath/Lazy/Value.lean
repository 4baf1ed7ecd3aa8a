import BuildPath.Lazy.Computation

/-!
# Lazy values

A lazy value stands for zero or more values that are computed when they are needed, anew every
time. Declaring and combining lazy values computes nothing. Each one has a label, which names it
where it turns out to have no value or too many.

The label is handed down to the source when the value is evaluated, through everything that maps
or describes it; combining two lazy values fixes the labels of both.
-/

namespace BuildPath

/-- A type whose lazy values are labelled by its name unless they are described otherwise. -/
class Nameable (Item : Type) where
  typeName : String

instance : Nameable Int := ⟨"i64"⟩

instance : Nameable Dependency := ⟨"kasane::dependency::Dependency"⟩

instance {Item : Type} [Nameable Item] : Nameable (List Item) :=
  ⟨"alloc::vec::Vec<" ++ Nameable.typeName Item ++ ">"⟩

/-- Values that are computed when they are needed. `produce` is told the name under which a missing
value is reported. -/
structure LazyValue (Item : Type) where
  label : String
  produce : String → Computation (List Item)

namespace LazyValue

variable {Item Other Result : Type}

/-- The label of a value that was not described. -/
def defaultLabel (Item : Type) [Nameable Item] : String :=
  "provider of " ++ Nameable.typeName Item

/-- The values of a computation. -/
def ofComputation [Nameable Item] (computation : Computation (List Item)) : LazyValue Item :=
  ⟨defaultLabel Item, fun _ => computation⟩

/-- A known value. -/
def of [Nameable Item] (item : Item) : LazyValue Item :=
  ofComputation (.done [item])

/-- Known values. -/
def ofMany [Nameable Item] (items : List Item) : LazyValue Item :=
  ofComputation (.done items)

/-- The single value of a computation, which is missing if there is none. -/
def provider [Nameable Item] (computation : Computation (Option Item)) : LazyValue Item :=
  ⟨defaultLabel Item, fun reported => do
    match ← computation with
    | some item => return [item]
    | none => .failed (.missingValue reported)⟩

/-- The same values under another label. -/
def describe (label : String) (value : LazyValue Item) : LazyValue Item :=
  { value with label := label }

/-- Computes the values. -/
def evaluate (value : LazyValue Item) : Computation (List Item) :=
  value.produce value.label

/-- Computes the values and expects exactly one. -/
def evaluateOne (value : LazyValue Item) : Computation Item := do
  match ← value.evaluate with
  | [item] => return item
  | [] => .failed (.missingValue value.label)
  | items => .failed (.tooManyValues value.label items.length)

/-- Maps every value to a sequence, in order, once all of them are computed, and concatenates the
results. -/
def flatMap (change : Item → Computation (List Result)) (value : LazyValue Item) :
    LazyValue Result :=
  ⟨value.label, fun reported => do
    let items ← value.produce reported
    Computation.concatMap change items⟩

/-- Maps every value by a computation of one result. -/
def tryMap (change : Item → Computation Result) (value : LazyValue Item) : LazyValue Result :=
  value.flatMap fun item => do return [← change item]

/-- Maps every value. -/
def map (change : Item → Result) (value : LazyValue Item) : LazyValue Result :=
  value.tryMap fun item => .done (change item)

/-- The elements of lists of values. -/
def flatten (value : LazyValue (List Item)) : LazyValue Item :=
  value.flatMap .done

/-- The combination of two lists of values, the left one computed first. Each reports a missing
value under its own label. -/
def zipWith (combine : List Item → List Other → Computation (List Result))
    (left : LazyValue Item) (right : LazyValue Other) : LazyValue Result :=
  ⟨left.label ++ " with " ++ right.label, fun _ => do
    let lefts ← left.evaluate
    let rights ← right.evaluate
    combine lefts rights⟩

/-- How a lazy value is shown, without computing it. -/
def shown (value : LazyValue Item) : String :=
  Text.variant "LazyValue" value.label

end LazyValue

end BuildPath
