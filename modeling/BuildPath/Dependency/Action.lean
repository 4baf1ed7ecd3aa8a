import BuildPath.Dependency.Basic

/-!
# Actions

A change that is made to every dependency of a declaration before it is recorded. An action is
declared for one kind of dependency, or for all, and refuses any other.
-/

namespace BuildPath

/-- A change to dependencies of one kind, or of all. -/
inductive Action
  | any (change : Dependency → Dependency)
  | externalModule (change : ModuleDependency → ModuleDependency)
  | project (change : ProjectDependency → ProjectDependency)
  | files (change : FileDependency → FileDependency)

namespace Action

/-- The kind that an action is declared for. -/
def expects : Action → Kind
  | .any _ => .any
  | .externalModule _ => .externalModule
  | .project _ => .project
  | .files _ => .files

/-- The changed dependency, or a mismatch if the action is for another kind. -/
def apply (action : Action) (dependency : Dependency) : Outcome Dependency :=
  match action, dependency with
  | .any change, dependency => .ok (change dependency)
  | .externalModule change, .externalModule details => .ok (.externalModule (change details))
  | .project change, .project details => .ok (.project (change details))
  | .files change, .files details => .ok (.files (change details))
  | action, dependency =>
    .error (.actionMismatch action.expects dependency.kind dependency.display)

/-- An action applies exactly when its kind accepts that of the dependency. -/
theorem exists_apply_iff {action : Action} {dependency : Dependency} :
    (∃ changed, action.apply dependency = .ok changed) ↔
      action.expects.accepts dependency.kind = true := by
  cases action <;> cases dependency <;>
    simp [apply, expects, Dependency.kind, Kind.accepts]

end Action

end BuildPath
