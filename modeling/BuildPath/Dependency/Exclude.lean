import BuildPath.Text.Quoted

/-!
# Exclude rules

A rule leaves modules out by group, by name, or by both.
-/

namespace BuildPath

/-- The modules of a group, of a name, or of both together. -/
structure ExcludeRule where
  group : Option String
  name : Option String
  deriving DecidableEq, Repr

namespace ExcludeRule

/-- Whether the rule leaves out a module. A rule that states neither a group nor a name leaves out
nothing, and a rule with a group no module without one. -/
def excludes (rule : ExcludeRule) (group : Option String) (name : String) : Bool :=
  match rule.group, rule.name with
  | none, none => false
  | some expected, none => group == some expected
  | none, some expected => name == expected
  | some expectedGroup, some expectedName =>
    group == some expectedGroup && name == expectedName

/-- The rule as error messages quote it. -/
def shown (rule : ExcludeRule) : String :=
  Text.record "ExcludeRule"
    [("group", Text.optional Text.quoted rule.group),
      ("module", Text.optional Text.quoted rule.name)]

/-- A rule leaves out a module exactly when it states something and all that it states agrees. -/
theorem excludes_iff {rule : ExcludeRule} {group : Option String} {name : String} :
    rule.excludes group name = true ↔
      (rule.group ≠ none ∨ rule.name ≠ none) ∧
        (∀ expected, rule.group = some expected → group = some expected) ∧
        ∀ expected, rule.name = some expected → name = expected := by
  obtain ⟨ruleGroup, ruleName⟩ := rule
  cases ruleGroup <;> cases ruleName <;> simp [excludes]

end ExcludeRule

end BuildPath
