import BuildPath.Lazy.Computation
import BuildPath.Proofs.Outcome

/-!
# What computations ask for and yield

Two things can be said of a computation before it runs: what it asks for at most
(`Computation.AsksOnly`) and what is true of every value it yields (`Computation.Yields`), both
whatever the answers. Both are kept when computations are put in sequence, which is associative.
-/

namespace BuildPath

variable {Value Result Item : Type}

namespace Computation

instance : LawfulMonad Computation :=
  LawfulMonad.mk' Computation andThen_done (fun _ _ => rfl) andThen_assoc

/-- A computation that asks for nothing but what is allowed, whatever the answers. -/
def AsksOnly (allowed : Request → Prop) : Computation Value → Prop
  | .done _ => True
  | .failed _ => True
  | .ask asked resume => allowed asked ∧ ∀ given, (resume given).AsksOnly allowed

/-- A computation all of whose values have a property, whatever the answers. -/
def Yields (property : Value → Prop) : Computation Value → Prop
  | .done value => property value
  | .failed _ => True
  | .ask _ resume => ∀ given, (resume given).Yields property

/-- A known outcome, as a computation. -/
theorem monadLift_eq (outcome : Outcome Value) :
    (monadLift outcome : Computation Value) = ofOutcome outcome := rfl

/-- Known outcomes in sequence are the computation with the outcome of the sequence. -/
theorem mapM_monadLift (find : Item → Outcome Value) (items : List Item) :
    items.mapM (fun item => (monadLift (find item) : Computation Value)) =
      ofOutcome (items.mapM find) := by
  induction items with
  | nil => rfl
  | cons first rest ih =>
    rw [List.mapM_cons, List.mapM_cons, ih, monadLift_eq]
    cases find first with
    | error error => rfl
    | ok value => cases rest.mapM find <;> rfl

/-- Values that are wrapped one by one are wrapped all at once. -/
theorem concatMap_singleton (wrap : Value → Result) (values : List Value) :
    concatMap (fun value => .done [wrap value]) values = .done (values.map wrap) := by
  induction values with
  | nil => rfl
  | cons first rest ih =>
    rw [concatMap_cons, ih]
    rfl

/-- Known outcomes that are obtained one by one are obtained all at once. -/
theorem concatMap_ofOutcome (find : Item → Outcome Value) (items : List Item) :
    concatMap (fun item => do return [← ofOutcome (find item)]) items =
      ofOutcome (items.mapM find) := by
  induction items with
  | nil => rfl
  | cons first rest ih =>
    rw [concatMap_cons, ih, List.mapM_cons]
    cases find first with
    | error error => rfl
    | ok value => cases rest.mapM find <;> rfl

section AsksOnly

variable {allowed : Request → Prop}

/-- A known outcome asks for nothing. -/
theorem asksOnly_ofOutcome (outcome : Outcome Value) : (ofOutcome outcome).AsksOnly allowed := by
  cases outcome <;> trivial

/-- A request asks for itself. -/
theorem asksOnly_request {asked : Request} (permitted : allowed asked) :
    (request asked).AsksOnly allowed :=
  ⟨permitted, fun _ => trivial⟩

/-- A sequence asks for what its parts ask for. -/
theorem AsksOnly.bind {computation : Computation Value} {next : Value → Computation Result}
    (first : computation.AsksOnly allowed) (rest : ∀ value, (next value).AsksOnly allowed) :
    (computation >>= next).AsksOnly allowed := by
  induction computation with
  | done value => exact rest value
  | failed error => trivial
  | ask asked resume ih => exact ⟨first.1, fun given => ih given (first.2 given)⟩

/-- What is mapped and joined asks for what the mapping asks for. -/
theorem asksOnly_concatMap {change : Item → Computation (List Value)} {items : List Item}
    (each : ∀ item ∈ items, (change item).AsksOnly allowed) :
    (concatMap change items).AsksOnly allowed := by
  induction items with
  | nil => trivial
  | cons item items ih =>
    obtain ⟨here, later⟩ := List.forall_mem_cons.1 each
    rw [concatMap_cons]
    exact here.bind fun _ => (ih later).bind fun _ => trivial

end AsksOnly

section Yields

variable {property : Value → Prop}

/-- A known outcome yields its value. -/
theorem yields_ofOutcome {outcome : Outcome Value}
    (holds : ∀ value, outcome = .ok value → property value) :
    (ofOutcome outcome).Yields property := by
  cases outcome with
  | error error => trivial
  | ok value => exact holds value rfl

/-- Every value has the property that says nothing. -/
theorem yields_trivial (computation : Computation Value) :
    computation.Yields fun _ => True := by
  induction computation with
  | done value => trivial
  | failed error => trivial
  | ask asked resume ih => exact ih

/-- A sequence yields what its last part yields of what the first part yields. -/
theorem Yields.bind {computation : Computation Value} {next : Value → Computation Result}
    {wanted : Result → Prop} (first : computation.Yields property)
    (rest : ∀ value, property value → (next value).Yields wanted) :
    (computation >>= next).Yields wanted := by
  induction computation with
  | done value => exact rest value first
  | failed error => trivial
  | ask asked resume ih => exact fun given => ih given (first given)

end Yields

end Computation

end BuildPath
