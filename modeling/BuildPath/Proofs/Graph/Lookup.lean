import BuildPath.Proofs.Graph.Step
import Mathlib.Data.List.Nodup

/-!
# Looking configurations up

How the steps of a graph act on `Graph.find?`. Creating a configuration adds one look-up and changes
no other; changing or observing configurations changes what is found and never whether something is.
-/

namespace BuildPath

/-- The configuration, marked as observed if it has one of these names. -/
def Configuration.marked (reached : List String) (configuration : Configuration) : Configuration :=
  if reached.contains configuration.name then { configuration with observed := true }
  else configuration

/-- Marking a configuration does not rename it. -/
@[simp] theorem Configuration.marked_name (reached : List String) (configuration : Configuration) :
    (configuration.marked reached).name = configuration.name := by
  unfold marked
  split <;> rfl

/-- Marking a configuration leaves its declarations alone. -/
@[simp] theorem Configuration.marked_declared (configuration : Configuration)
    (reached : List String) : (configuration.marked reached).declared = configuration.declared := by
  unfold marked
  split <;> rfl

/-- Marking a configuration leaves its exclude rules alone. -/
@[simp] theorem Configuration.marked_excludes (configuration : Configuration)
    (reached : List String) : (configuration.marked reached).excludes = configuration.excludes := by
  unfold marked
  split <;> rfl

namespace Graph

variable {graph : Graph} {name : String} {configuration : Configuration}

/-- What is found under a name is in the graph and has that name. -/
theorem mem_of_find? (found : graph.find? name = some configuration) :
    configuration ∈ graph.configurations ∧ configuration.name = name :=
  ⟨List.mem_of_find?_eq_some found, eq_of_beq (List.find?_some found :)⟩

/-- A name is known when a configuration has it. -/
theorem contains_iff_mem_names : graph.contains name = true ↔ name ∈ graph.names := by
  rw [contains, find?, List.find?_isSome, names, List.mem_map]
  simp only [beq_iff_eq]

/-- A configuration is found under its name if no other one has it. -/
theorem find?_of_mem (distinct : graph.names.Nodup)
    (member : configuration ∈ graph.configurations) :
    graph.find? configuration.name = some configuration := by
  obtain ⟨other, found⟩ := Option.isSome_iff_exists.1
    (contains_iff_mem_names.2 (List.mem_map_of_mem member))
  obtain ⟨present, same⟩ := mem_of_find? found
  rw [found, List.inj_on_of_nodup_map distinct present member same]

/-- A new configuration is found under its name and changes no other look-up. -/
theorem find?_create (created other : String) :
    Graph.find? { graph with configurations := graph.configurations ++ [.named created] } other =
      (graph.find? other).or (if created == other then some (.named created) else none) := by
  change List.find? _ (_ ++ [_]) = _
  rw [List.find?_append, List.find?_singleton]
  rfl

/-- An update that renames nothing is seen by every look-up. -/
theorem find?_map {update : Configuration → Configuration}
    (keeps : ∀ configuration, (update configuration).name = configuration.name) (name : String) :
    Graph.find? { graph with configurations := graph.configurations.map update } name =
      (graph.find? name).map update := by
  change List.find? _ (List.map _ _) = Option.map _ (List.find? _ _)
  rw [List.find?_map]
  congr 2
  funext configuration
  rw [Function.comp_apply, keeps]

/-- A change of one configuration is seen under its name and under no other one. -/
theorem find?_modify {change : Configuration → Configuration}
    (keeps : ∀ configuration, (change configuration).name = configuration.name)
    (name other : String) :
    (graph.modify name change).find? other =
      if other = name then (graph.find? other).map change else graph.find? other := by
  have renames : ∀ configuration : Configuration,
      (if configuration.name == name then change configuration else configuration).name =
        configuration.name := by
    intro configuration
    split
    · exact keeps configuration
    · rfl
  refine (find?_map renames other).trans ?_
  cases found : graph.find? other with
  | none => simp
  | some configuration =>
    have named := (mem_of_find? found).2
    by_cases same : other = name <;> simp [named, same]

/-- An update that renames nothing keeps the names. -/
theorem names_map {update : Configuration → Configuration}
    (keeps : ∀ configuration, (update configuration).name = configuration.name) :
    Graph.names { graph with configurations := graph.configurations.map update } = graph.names := by
  change List.map _ (List.map _ _) = List.map _ _
  rw [List.map_map]
  exact List.map_congr_left fun configuration _ => keeps configuration

/-- A change that renames nothing keeps the names. -/
theorem names_modify {change : Configuration → Configuration}
    (keeps : ∀ configuration, (change configuration).name = configuration.name) (name : String) :
    (graph.modify name change).names = graph.names := by
  refine names_map fun configuration => ?_
  split
  · exact keeps configuration
  · rfl

/-- To observe a configuration is to mark its hierarchy, if reading has consequences. -/
theorem observe_eq (graph : Graph) (name : String) :
    graph.observe name =
      if graph.settings.freezeOnRead then
        { graph with
          configurations := graph.configurations.map
            (Configuration.marked (Inheritance.hierarchy graph.inheritances name)) }
      else graph := rfl

/-- To observe a configuration leaves the settings alone. -/
@[simp] theorem settings_observe (graph : Graph) (name : String) :
    (graph.observe name).settings = graph.settings := by
  rw [observe_eq]
  split <;> rfl

/-- To observe a configuration freezes nothing else. -/
@[simp] theorem frozen_observe (graph : Graph) (name : String) :
    (graph.observe name).frozen = graph.frozen := by
  rw [observe_eq]
  split <;> rfl

/-- To observe a configuration leaves inheritance alone. -/
@[simp] theorem inheritances_observe (graph : Graph) (name : String) :
    (graph.observe name).inheritances = graph.inheritances := by
  rw [observe_eq]
  split <;> rfl

/-- To observe a configuration creates none. -/
@[simp] theorem length_configurations_observe (graph : Graph) (name : String) :
    (graph.observe name).configurations.length = graph.configurations.length := by
  rw [observe_eq]
  split
  · exact List.length_map _
  · rfl

end Graph

end BuildPath
