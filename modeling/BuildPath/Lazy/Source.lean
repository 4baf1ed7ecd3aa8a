import BuildPath.Lazy.Value

/-!
# Counted sources

Sources of lazy values whose runs are counted. Every source has a number; a run is counted before
anything else that the source does, also when it fails.
-/

namespace BuildPath.LazyValue

variable {Item : Type} [Nameable Item]

/-- A source of the values of a computation. -/
def computed (source : Nat) (computation : Computation (List Item)) : LazyValue Item :=
  .ofComputation (.counted source computation)

/-- A source of one value or none. -/
def provided (source : Nat) (item : Option Item) : LazyValue Item :=
  .provider (.counted source (.done item))

/-- A source of one value or none, or of a failure with a reason. -/
def attempted (source : Nat) (item : Except String (Option Item)) : LazyValue Item :=
  .provider (.counted source (.ofOutcome (item.mapError .provider)))

/-- A source of one number, greater by one at every run. -/
def counter (source : Nat) (start : Int) : LazyValue Int :=
  .computed source do
    let runs ← Computation.request (.runs source)
    return [start + runs - 1]

/-- A source of what a variable holds, if it holds anything. -/
def ofVariable (source : Nat) (name : String) (read : String → Item) : LazyValue Item :=
  .provider (.counted source do return (← Computation.request (.assigned name)).map read)

/-- A source of the effective dependencies of a configuration. -/
def dependenciesOf (source : Nat) (name : String) : LazyValue Dependency :=
  .computed source (.request (.dependencies name))

end BuildPath.LazyValue
