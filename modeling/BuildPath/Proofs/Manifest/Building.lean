import BuildPath.Proofs.Declaration.Values
import BuildPath.Proofs.Graph.Collecting
import BuildPath.Proofs.Graph.Linking
import BuildPath.Proofs.Manifest.Keys

/-!
# The graph of a manifest

A manifest builds a graph in three passes over its configurations, in the order of their names. The
first creates them with their attributes, so that a link may lead to a name that comes later; the
second links them, and each link is tested against those before it; the third fills them. Each pass
is one lemma about edits in a row. The first always succeeds, the second succeeds if all parents are
known and no cycle is closed in the end, and the third if the leaves of all values can be parsed.
Put together, a graph is built exactly if the manifest describes one, and it is that graph
(`Manifest.builds_what_it_describes`).
-/

namespace BuildPath

namespace Configuration

/-- Dependencies that are declared in a row are declared at their first mention. -/
theorem declareAll_resolved {configuration : Configuration} {kept : List Dependency}
    (declared : configuration.declared = kept.map .resolved) (dependencies : List Dependency) :
    configuration.declareAll (dependencies.map .resolved) =
      { configuration with
        declared := (dependencies.foldl Ordered.insert kept).map .resolved } := by
  induction dependencies generalizing configuration kept with
  | nil => rw [List.foldl_nil, ← declared]; rfl
  | cons dependency dependencies ih =>
    have present : configuration.declared.any (·.isResolvedAs dependency) =
        kept.any (· == dependency) := by
      rw [declared, List.any_map]
      rfl
    change (configuration.declare (.resolved dependency)).declareAll _ = _
    rw [declare, present, List.foldl_cons, Ordered.insert]
    split
    · exact ih declared
    · refine ih ?_
      rw [declared, List.map_append, List.map_singleton]

/-- The exclude rules of a configuration are added one after the other. -/
theorem foldl_exclude (rules : List ExcludeRule) (configuration : Configuration) :
    rules.foldl (fun changed rule => changed.exclude rule) configuration =
      { configuration with excludes := rules.foldl Ordered.insert configuration.excludes } := by
  induction rules generalizing configuration with
  | nil => rfl
  | cons rule rules ih => exact ih (configuration.exclude rule)

end Configuration

namespace ConfigurationManifest

/-- The configuration of a name with these dependencies and what else the manifest says of it. -/
def described (given : ConfigurationManifest) (name : String) (dependencies : List Dependency) :
    Configuration where
  name
  visible := given.visible.getD true
  transitive := given.transitive.getD true
  description := given.description
  declared := (dependencies.foldl Ordered.insert []).map .resolved
  excludes := given.exclude.foldl Ordered.insert []

/-- The notations that the values of a configuration stand for. -/
def Notated (given : ConfigurationManifest) (written : List Notation) : Prop :=
  List.Forall₂ (fun value item => Notation.ofJson value = .ok item) given.dependencies written

/-- The notations of a configuration are read from its values in order. -/
theorem notated_iff {given : ConfigurationManifest} {written : List Notation} :
    given.Notated written ↔ given.dependencies.mapM Notation.ofJson = .ok written :=
  Outcome.mapM_eq_ok_iff_forall₂.symm

/-- What a configuration of a name is when it is as the manifest says. Its dependencies are those of
the leaves of the values, read in the root project, without repetition. -/
structure Describes (given : ConfigurationManifest) (name : String)
    (configuration : Configuration) : Prop where
  name : configuration.name = name
  visible : configuration.visible = given.visible.getD true
  transitive : configuration.transitive = given.transitive.getD true
  description : configuration.description = given.description
  declared : ∃ written dependencies kept,
    given.Notated written ∧
    List.Forall₂ (fun leaf dependency => leaf.parse .root = .done dependency)
      (written.flatMap Notation.leaves) dependencies ∧
    Ordered.FirstMentions dependencies kept ∧ configuration.declared = kept.map .resolved
  excludes : Ordered.FirstMentions given.exclude configuration.excludes
  artifacts : configuration.artifacts = []
  unobserved : configuration.observed = false

/-- What a configuration is described as comes down to its dependencies. -/
theorem describes_iff {given : ConfigurationManifest} {name : String}
    {configuration : Configuration} {written : List Notation}
    (notated : given.Notated written) :
    given.Describes name configuration ↔ ∃ dependencies,
      List.Forall₂ (fun leaf dependency => leaf.parse .root = .done dependency)
        (written.flatMap Notation.leaves) dependencies ∧
      configuration = given.described name dependencies := by
  constructor
  · rintro ⟨rfl, visible, transitive, description, ⟨items, dependencies, kept, read, parsed, first,
      declared⟩, excludes, artifacts, unobserved⟩
    have same : items = written := by
      rw [notated_iff] at notated read
      rw [read] at notated
      exact Except.ok.inj notated
    subst same
    refine ⟨dependencies, parsed, ?_⟩
    cases configuration
    rw [first.eq_foldl_insert] at declared
    cases excludes.eq_foldl_insert
    cases visible
    cases transitive
    cases description
    cases declared
    cases artifacts
    cases unobserved
    rfl
  · rintro ⟨dependencies, parsed, rfl⟩
    exact ⟨rfl, rfl, rfl, rfl, ⟨written, dependencies, _, notated, parsed,
      Ordered.firstMentions_foldl_insert dependencies, rfl⟩,
      Ordered.firstMentions_foldl_insert given.exclude, rfl, rfl⟩

/-- A configuration can be described when each of its values is a notation of which all leaves can
be parsed. -/
theorem exists_describes_iff {given : ConfigurationManifest} {name : String} :
    (∃ configuration, given.Describes name configuration) ↔
      ∀ value ∈ given.dependencies, ∃ written, Notation.ofJson value = .ok written ∧
        ∀ leaf ∈ written.leaves, ∃ dependency, leaf.parse .root = .done dependency := by
  constructor
  · rintro ⟨configuration, described⟩ value member
    obtain ⟨written, dependencies, kept, notated, parsed, -⟩ := described.declared
    obtain ⟨item, present, read⟩ := Outcome.exists_mem_of_forall₂ notated value member
    refine ⟨item, read, fun leaf belongs => ?_⟩
    exact Outcome.exists_forall₂_iff.1 ⟨dependencies, parsed⟩ leaf
      (List.mem_flatMap.2 ⟨item, present, belongs⟩)
  · intro each
    obtain ⟨written, notated⟩ : ∃ written, given.Notated written :=
      Outcome.exists_forall₂_iff.2 fun value member => (each value member).imp fun _ => And.left
    obtain ⟨dependencies, parsed⟩ : ∃ dependencies,
        List.Forall₂ (fun leaf dependency => leaf.parse .root = .done dependency)
          (written.flatMap Notation.leaves) dependencies := by
      refine Outcome.exists_forall₂_iff.2 fun leaf member => ?_
      obtain ⟨item, present, belongs⟩ := List.mem_flatMap.1 member
      obtain ⟨value, member, read⟩ := Outcome.exists_mem_of_forall₂ notated.flip item present
      obtain ⟨other, same, parsed⟩ := each value member
      cases same.symm.trans read
      exact parsed leaf belongs
    exact ⟨_, (describes_iff notated).2 ⟨dependencies, parsed, rfl⟩⟩

end ConfigurationManifest

namespace Manifest

variable {graph after : Graph} {before : List Configuration}

/-- A configuration of a new name is created and gets the attributes that the manifest gives it. -/
theorem editAll_attributeEdits {name : String} (given : ConfigurationManifest)
    (distinct : (before.map Configuration.name ++ [name]).Nodup) (thawed : graph.frozen = false) :
    Graph.editAll { graph with configurations := before } (attributeEdits name given) =
      (.ok (), { graph with configurations := before ++ [given.described name []] }) := by
  have fresh : Graph.contains { graph with configurations := before } name = false := by
    refine Bool.eq_false_iff.2 fun known => ?_
    have apart := (List.nodup_append.1 distinct).2.2
    exact apart name (Graph.contains_iff_mem_names.1 known) name (List.mem_singleton_self name) rfl
  have changed {Item : Type} {edit : Item → Edit} {change : Item → Configuration → Configuration}
      (changes : ∀ item, Configuration.Change (change item)) (items : List Item)
      {configuration : Configuration} (named : configuration.name = name)
      (unobserved : configuration.observed = false)
      (applies : ∀ item graph, (edit item).apply graph = graph.mutate name (change item)) :
      Graph.editAll { graph with configurations := before ++ [configuration] } (items.map edit) =
        (.ok (), { graph with configurations :=
          before ++ [items.foldl (fun changed item => change item changed) configuration] }) := by
    subst named
    refine Graph.editAll_changes ?_ thawed unobserved applies changes items
    rwa [List.map_append, List.map_singleton]
  have complete : given.exclude.foldl (fun changed rule => changed.exclude rule)
      (given.description.toList.foldl
        (fun changed description => { changed with description := some description })
        (given.transitive.toList.foldl (fun changed transitive => { changed with transitive })
          (given.visible.toList.foldl (fun changed visible => { changed with visible })
            (.named name)))) = given.described name [] := by
    rw [Configuration.foldl_exclude]
    unfold ConfigurationManifest.described
    cases given.visible <;> cases given.transitive <;> cases given.description <;> rfl
  simp only [attributeEdits, Graph.editAll_append_eq_ok_iff, ← complete]
  refine ⟨_, ⟨_, ⟨_, ⟨_, ?_, changed .visible _ rfl rfl fun _ _ => rfl⟩,
    changed .transitive _ ?_ ?_ fun _ _ => rfl⟩,
    changed .description _ ?_ ?_ fun _ _ => rfl⟩, changed .exclude _ ?_ ?_ fun _ _ => rfl⟩
  · refine Graph.editAll_singleton_eq_ok_iff.2 (Graph.ensure_eq_ok_iff.2 (.inr ?_))
    exact Graph.create_eq_ok_iff.2 ⟨fresh, thawed, rfl⟩
  all_goals
    cases given.visible <;> cases given.transitive <;> cases given.description <;> rfl

/-- Configurations of new names are created one after the other. -/
theorem editAll_flatMap_attributeEdits {entries : List (String × ConfigurationManifest)}
    (distinct : (before.map Configuration.name ++ entries.map Prod.fst).Nodup)
    (thawed : graph.frozen = false) :
    Graph.editAll { graph with configurations := before }
        (entries.flatMap fun (name, given) => attributeEdits name given) =
      (.ok (), { graph with configurations :=
        before ++ entries.map fun (name, given) => given.described name [] }) := by
  induction entries generalizing before with
  | nil => rw [List.map_nil, List.append_nil]; rfl
  | cons entry entries ih =>
    obtain ⟨name, given⟩ := entry
    rw [List.map_cons, List.append_cons] at distinct
    rw [List.flatMap_cons, List.map_cons, List.append_cons, Graph.editAll_append_eq_ok_iff]
    refine ⟨_, editAll_attributeEdits given (List.nodup_append.1 distinct).1 thawed, ih ?_⟩
    rwa [List.map_append, List.map_singleton]

/-- The dependencies of a configuration are declared exactly if it can be described, and it is then
as described. -/
theorem editAll_declarationEdits_eq_ok_iff {name : String} {given : ConfigurationManifest}
    {written : List Notation} {later : List Configuration}
    (distinct : ((before ++ given.described name [] :: later).map Configuration.name).Nodup)
    (thawed : graph.frozen = false) (root : graph.project = .root)
    (notated : given.Notated written) :
    Graph.editAll { graph with configurations := before ++ given.described name [] :: later }
        (declarationEdits name written) = (.ok (), after) ↔
      ∃ configuration, given.Describes name configuration ∧
        after = { graph with configurations := before ++ configuration :: later } := by
  have direct : ∀ leaf ∈ written.flatMap Notation.leaves, leaf.Direct := by
    intro leaf member
    obtain ⟨item, present, member⟩ := List.mem_flatMap.1 member
    obtain ⟨value, -, read⟩ :=
      Outcome.exists_of_mem_mapM_eq_ok (ConfigurationManifest.notated_iff.1 notated) item present
    exact Notation.direct_of_ofJson read leaf member
  have filled (dependencies : List Dependency) :
      Graph.mutate { graph with configurations := before ++ given.described name [] :: later } name
          (·.declareAll (dependencies.map .resolved)) =
        .ok { graph with
          configurations := before ++ given.described name dependencies :: later } := by
    refine (Graph.mutate_between distinct thawed rfl _).trans ?_
    rw [Configuration.declareAll_resolved rfl]
    rfl
  have step : (Edit.add name (.bundle written) none).apply
        { graph with configurations := before ++ given.described name [] :: later } = .ok after ↔
      ∃ configuration, given.Describes name configuration ∧
        after = { graph with configurations := before ++ configuration :: later } := by
    change Graph.add _ _ _ _ = _ ↔ _
    rw [Graph.add_eq, Outcome.bind_eq_ok_iff]
    simp only [Notation.configured_eq_ok_iff, Notation.leaves_bundle,
      Notation.forall₂_recorded_iff direct, ConfigurationManifest.describes_iff notated, ← root]
    constructor
    · rintro ⟨_, ⟨dependencies, parsed, rfl⟩, changed⟩
      rw [filled] at changed
      exact ⟨_, ⟨dependencies, parsed, rfl⟩, (Except.ok.inj changed).symm⟩
    · rintro ⟨_, ⟨dependencies, parsed, rfl⟩, rfl⟩
      exact ⟨_, ⟨dependencies, parsed, rfl⟩, filled dependencies⟩
  unfold declarationEdits
  split
  · next empty =>
    rw [List.isEmpty_iff.1 empty] at notated
    simp [ConfigurationManifest.describes_iff notated, Graph.editAll, @eq_comm _ after]
  · rw [Graph.editAll_singleton_eq_ok_iff]
    exact step

/-- Configurations are filled one after the other exactly if all of them can be described, and they
are then as described. -/
theorem editAll_flatMap_declarationEdits_eq_ok_iff {entries : List (String × ConfigurationManifest)}
    {notations : List (String × List Notation)}
    (notated : List.Forall₂ (fun entry known => known.1 = entry.1 ∧ entry.2.Notated known.2) entries
      notations)
    (distinct : (before.map Configuration.name ++ entries.map Prod.fst).Nodup)
    (thawed : graph.frozen = false) (root : graph.project = .root) :
    Graph.editAll { graph with
          configurations := before ++ entries.map fun (name, given) => given.described name [] }
        (notations.flatMap fun (name, written) => declarationEdits name written) =
      (.ok (), after) ↔
      ∃ configurations,
        List.Forall₂ (fun entry configuration => entry.2.Describes entry.1 configuration) entries
          configurations ∧
        after = { graph with configurations := before ++ configurations } := by
  induction notated generalizing before with
  | nil => simp [Graph.editAll, @eq_comm _ after]
  | @cons entry known entries notations here _ ih =>
    obtain ⟨name, given⟩ := entry
    obtain ⟨other, written⟩ := known
    obtain ⟨rfl, here⟩ : other = name ∧ given.Notated written := here
    have apart : ((before ++ given.described other [] :: entries.map fun (name, given) =>
        given.described name []).map Configuration.name).Nodup := by
      simpa [ConfigurationManifest.described, Function.comp_def] using distinct
    -- What is filled keeps its name, so that names differ as before when it joins those in front.
    have onward {configuration : Configuration} (described : given.Describes other configuration) :
        ((before ++ [configuration]).map Configuration.name ++ entries.map Prod.fst).Nodup := by
      simpa [described.name] using distinct
    rw [List.flatMap_cons, List.map_cons, Graph.editAll_append_eq_ok_iff]
    simp only [editAll_declarationEdits_eq_ok_iff apart thawed root here]
    constructor
    · rintro ⟨_, ⟨configuration, described, rfl⟩, done⟩
      rw [List.append_cons] at done
      obtain ⟨configurations, others, rfl⟩ := (ih (onward described)).1 done
      exact ⟨configuration :: configurations, .cons described others, by rw [← List.append_cons]⟩
    · rintro ⟨_, _ | ⟨described, others⟩, rfl⟩
      refine ⟨_, ⟨_, described, rfl⟩, ?_⟩
      rw [List.append_cons]
      refine (ih (onward described)).2 ⟨_, others, ?_⟩
      rw [← List.append_cons]

variable {manifest : Manifest}

/-- The links from configurations to parents that a manifest asks for, in order. -/
def links (manifest : Manifest) : List Inheritance :=
  manifest.configurations.flatMap fun (name, given) => given.extendsFrom.map (Inheritance.mk name)

/-- Configurations without parents get all of theirs exactly if these are known and nothing inherits
from itself. -/
theorem editAll_flatMap_inheritanceEdits_eq_ok_iff (named : graph.names = manifest.keys)
    (unlinked : graph.inheritances = [])
    (changeable : ∀ configuration ∈ graph.configurations, graph.isMutable configuration = true) :
    graph.editAll
        (manifest.configurations.flatMap fun (name, given) => inheritanceEdits name given) =
      (.ok (), after) ↔
      (∀ link ∈ manifest.links, link.parent ∈ manifest.keys) ∧
        Inheritance.Acyclic manifest.links ∧
        after = { graph with inheritances := manifest.links.foldl Ordered.insert [] } := by
  have edits : (manifest.configurations.flatMap fun (name, given) => inheritanceEdits name given) =
      manifest.links.map Inheritance.edit := by
    simp only [links, List.map_flatMap, inheritanceEdits, List.map_map]
    rfl
  have children : ∀ link ∈ manifest.links, link.child ∈ manifest.keys := by
    intro link member
    obtain ⟨⟨name, given⟩, present, member⟩ := List.mem_flatMap.1 member
    obtain ⟨parent, -, rfl⟩ := List.mem_map.1 member
    exact List.mem_map_of_mem present
  have ends : (∀ link ∈ manifest.links,
        graph.contains link.child = true ∧ graph.contains link.parent = true) ↔
      ∀ link ∈ manifest.links, link.parent ∈ manifest.keys := by
    simp only [Graph.contains_iff_mem_names, named]
    exact forall₂_congr fun link member => and_iff_right (children link member)
  have start : Inheritance.Acyclic graph.inheritances := by
    rw [unlinked]
    exact Inheritance.acyclic_nil
  rw [edits, Graph.editAll_links_eq_ok_iff start fun link _ configuration found =>
    changeable configuration (Graph.mem_of_find? found).1, ends, unlinked, List.nil_append]

/-- The notations of a manifest are those that its values stand for. -/
theorem notations_eq_ok_iff {notations : List (String × List Notation)} :
    manifest.notations = .ok notations ↔
      List.Forall₂ (fun entry known => known.1 = entry.1 ∧ entry.2.Notated known.2)
        manifest.configurations notations := by
  refine Outcome.mapM_eq_ok_iff_of_forall₂ (List.forall₂_same.2 fun (name, given) _ known => ?_)
  obtain ⟨other, written⟩ := known
  change (do return (name, ← Notation.ofJsonEach given.dependencies)) =
    Except.ok (other, written) ↔ _
  rw [Notation.ofJsonEach_eq, Outcome.bind_eq_ok_iff, ConfigurationManifest.notated_iff]
  constructor
  · rintro ⟨_, read, ⟨⟩⟩
    exact ⟨rfl, read⟩
  · rintro ⟨rfl, read⟩
    exact ⟨written, read, rfl⟩

/-- A graph is built by edits, once all notations are known. -/
theorem toGraph_eq_ok_iff_editAll : manifest.toGraph = .ok graph ↔
    ∃ notations, manifest.notations = .ok notations ∧
      Graph.editAll (.new (manifest.settings.getD {}) .root) (manifest.edits notations) =
        (.ok (), graph) := by
  unfold toGraph apply
  cases manifest.notations with
  | error error => simp
  | ok notations =>
    simp only [Except.ok.injEq, exists_eq_left']
    rcases Graph.editAll _ _ with ⟨_ | _, built⟩ <;> simp

/-- The graph of a manifest with all configurations, before they are linked and filled. -/
def outlined (manifest : Manifest) : Graph :=
  { Graph.new (manifest.settings.getD {}) .root with
    configurations := manifest.configurations.map fun (name, given) => given.described name [] }

/-- All configurations are there before they are linked and filled. -/
theorem names_outlined : manifest.outlined.names = manifest.keys := by
  simp [outlined, Graph.names, keys, ConfigurationManifest.described, Function.comp_def]

/-- All configurations take changes before they are linked and filled. -/
theorem changeable_outlined : ∀ configuration ∈ manifest.outlined.configurations,
    manifest.outlined.isMutable configuration = true := by
  intro configuration member
  obtain ⟨entry, -, rfl⟩ := List.mem_map.1 member
  rfl

/-- A manifest with different names builds a graph exactly if all of its configurations can be
described, the parents are among them, and nothing inherits from itself. The graph has the
configurations as described, and each link at its first mention. -/
theorem toGraph_eq_ok_iff (distinct : manifest.keys.Nodup) : manifest.toGraph = .ok graph ↔
    ∃ configurations,
      List.Forall₂ (fun entry configuration => entry.2.Describes entry.1 configuration)
        manifest.configurations configurations ∧
      (∀ link ∈ manifest.links, link.parent ∈ manifest.keys) ∧
      Inheritance.Acyclic manifest.links ∧
      graph = { Graph.new (manifest.settings.getD {}) .root with
        configurations, inheritances := manifest.links.foldl Ordered.insert [] } := by
  have outlining : Graph.editAll (.new (manifest.settings.getD {}) .root)
      (manifest.configurations.flatMap fun (name, given) => attributeEdits name given) =
      (.ok (), manifest.outlined) :=
    @editAll_flatMap_attributeEdits (.new _ .root) [] _ distinct rfl
  have linking {after : Graph} := @editAll_flatMap_inheritanceEdits_eq_ok_iff _ after manifest
    names_outlined rfl changeable_outlined
  have filling {notations : List (String × List Notation)}
      (read : manifest.notations = .ok notations) :=
    @editAll_flatMap_declarationEdits_eq_ok_iff
      { manifest.outlined with inheritances := manifest.links.foldl Ordered.insert [] } graph [] _ _
      (notations_eq_ok_iff.1 read) distinct rfl rfl
  rw [toGraph_eq_ok_iff_editAll]
  simp only [edits, Graph.editAll_append_eq_ok_iff, outlining]
  constructor
  · rintro ⟨notations, read, linked, ⟨_, ⟨⟩, done⟩, rest⟩
    obtain ⟨known, acyclic, rfl⟩ := linking.1 done
    obtain ⟨configurations, described, rfl⟩ := (filling read).1 rest
    exact ⟨configurations, described, known, acyclic, rfl⟩
  · rintro ⟨configurations, described, known, acyclic, rfl⟩
    have each : ∀ entry ∈ manifest.configurations, ∃ notated : String × List Notation,
        notated.1 = entry.1 ∧ entry.2.Notated notated.2 := by
      intro entry member
      obtain ⟨configuration, described⟩ :=
        Outcome.exists_forall₂_iff.1 ⟨configurations, described⟩ entry member
      obtain ⟨written, dependencies, kept, notated, -⟩ := described.declared
      exact ⟨(entry.1, written), rfl, notated⟩
    obtain ⟨notations, notated⟩ := Outcome.exists_forall₂_iff.2 each
    have read := notations_eq_ok_iff.2 notated
    exact ⟨notations, read, _, ⟨_, rfl, linking.2 ⟨known, acyclic, rfl⟩⟩,
      (filling read).2 ⟨configurations, described, rfl⟩⟩

/-- One configuration is to inherit from another. -/
def Inherits (manifest : Manifest) (name parent : String) : Prop :=
  ∃ given, (name, given) ∈ manifest.configurations ∧ parent ∈ given.extendsFrom

/-- The links of a manifest are those that configurations ask for. -/
theorem extends_links : Inheritance.Extends manifest.links = manifest.Inherits := by
  funext name parent
  simp [Inheritance.Extends, links, Inherits]

/-- The parents that the links of a manifest lead to are those that the configuration lists. -/
theorem parents_links (distinct : manifest.keys.Nodup) {name : String}
    {given : ConfigurationManifest} (member : (name, given) ∈ manifest.configurations) :
    Inheritance.parents manifest.links name = given.extendsFrom := by
  unfold keys at distinct
  unfold links
  generalize manifest.configurations = entries at *
  induction entries with
  | nil => contradiction
  | cons entry entries ih =>
    obtain ⟨absent, distinct⟩ := List.nodup_cons.1 distinct
    rw [List.flatMap_cons, Inheritance.parents_append, Inheritance.parents_map_mk]
    rcases List.mem_cons.1 member with rfl | member
    · have others : Inheritance.parents (entries.flatMap fun (name, given) =>
          given.extendsFrom.map (Inheritance.mk name)) name = [] := by
        refine List.eq_nil_iff_forall_not_mem.2 fun parent edge => absent ?_
        obtain ⟨⟨other, given⟩, present, edge⟩ :=
          List.mem_flatMap.1 (Inheritance.mem_parents.1 edge :)
        obtain ⟨_, -, ⟨⟩⟩ := List.mem_map.1 edge
        exact List.mem_map.2 ⟨_, present, rfl⟩
      rw [others, if_pos rfl, List.append_nil]
    · have differs : entry.1 ≠ name := by
        rintro rfl
        exact absent (List.mem_map.2 ⟨_, member, rfl⟩)
      rw [if_neg differs, List.nil_append]
      exact ih distinct member

/-- A manifest builds a graph exactly if every value of it is a notation of which all leaves can be
parsed, every parent is one of its configurations, and none of these inherits from itself. The graph
then has the configurations of the manifest, in the order of their names, each as the manifest
describes it and with its parents at their first mentions. -/
theorem builds_what_it_describes (manifest : Manifest) (sorted : manifest.Sorted) :
    ((∃ graph, manifest.toGraph = .ok graph) ↔
      (∀ name given, (name, given) ∈ manifest.configurations →
        (∀ value ∈ given.dependencies, ∃ written, Notation.ofJson value = .ok written ∧
          ∀ leaf ∈ written.leaves, ∃ dependency, leaf.parse .root = .done dependency) ∧
        ∀ parent ∈ given.extendsFrom, parent ∈ manifest.keys) ∧
      ∀ name, ¬Relation.TransGen manifest.Inherits name name) ∧
    ∀ graph, manifest.toGraph = .ok graph →
      graph.settings = manifest.settings.getD {} ∧ graph.project = .root ∧
      graph.names = manifest.keys ∧ graph.conventions = [] ∧ graph.frozen = false ∧
      ∀ name given, (name, given) ∈ manifest.configurations →
        ∃ configuration parents,
          graph.find? name = some configuration ∧ given.Describes name configuration ∧
          graph.parents name = .ok parents ∧
          Ordered.FirstMentions given.extendsFrom parents := by
  constructor
  · have linked : (∀ link ∈ manifest.links, link.parent ∈ manifest.keys) ↔
        ∀ name given, (name, given) ∈ manifest.configurations →
          ∀ parent ∈ given.extendsFrom, parent ∈ manifest.keys := by
      simp only [links, List.forall_mem_flatMap, List.forall_mem_map, Prod.forall]
    have described : (∃ configurations,
        List.Forall₂ (fun entry configuration => entry.2.Describes entry.1 configuration)
          manifest.configurations configurations) ↔
        ∀ name given, (name, given) ∈ manifest.configurations →
          ∀ value ∈ given.dependencies, ∃ written, Notation.ofJson value = .ok written ∧
            ∀ leaf ∈ written.leaves, ∃ dependency, leaf.parse .root = .done dependency := by
      simp only [Outcome.exists_forall₂_iff, ConfigurationManifest.exists_describes_iff,
        Prod.forall]
    have acyclic : Inheritance.Acyclic manifest.links ↔
        ∀ name, ¬Relation.TransGen manifest.Inherits name name := by
      rw [Inheritance.Acyclic, extends_links]
    simp only [toGraph_eq_ok_iff sorted.nodup, imp_and, forall_and]
    rw [← linked, ← described, ← acyclic]
    constructor
    · rintro ⟨graph, configurations, all, known, apart, rfl⟩
      exact ⟨⟨⟨configurations, all⟩, known⟩, apart⟩
    · rintro ⟨⟨⟨configurations, all⟩, known⟩, apart⟩
      exact ⟨_, configurations, all, known, apart, rfl⟩
  · intro graph built
    obtain ⟨configurations, described, -, -, rfl⟩ := (toGraph_eq_ok_iff sorted.nodup).1 built
    have names : configurations.map Configuration.name = manifest.keys := by
      have alike := described.flip.imp fun configuration entry describes => describes.name
      rw [← List.forall₂_map_right_iff, ← List.forall₂_map_left_iff] at alike
      exact List.forall₂_eq_eq_eq ▸ alike
    refine ⟨rfl, rfl, names, rfl, rfl, fun name given member => ?_⟩
    obtain ⟨configuration, present, describes⟩ :=
      Outcome.exists_mem_of_forall₂ described _ member
    have found : Graph.find? { Graph.new (manifest.settings.getD {}) .root with
        configurations, inheritances := manifest.links.foldl Ordered.insert [] } name =
        some configuration := by
      obtain rfl : configuration.name = name := describes.name
      exact Graph.find?_of_mem (names.symm ▸ sorted.nodup :) present
    have mentions := Inheritance.firstMentions_parents
      (Ordered.firstMentions_foldl_insert manifest.links) name
    rw [parents_links sorted.nodup member] at mentions
    refine ⟨configuration, _, found, describes, ?_, mentions⟩
    rw [Graph.parents, Graph.get, found]
    rfl

/-- A manifest whose first configuration inherits from its second one, and says so twice. -/
def layered : Manifest where
  settings := none
  configurations := [
    ("compile", {
      visible := some false, transitive := none, description := none
      extendsFrom := ["shared", "shared"]
      dependencies := [.string "org.example:lib:1.0"]
      exclude := [] }),
    ("shared", {
      visible := none, transitive := none, description := none, extendsFrom := []
      dependencies := [.array [.string "org.example:lib:1.0", .string "org.example:lib:1.0"]]
      exclude := [] })]

/-- The manifest is sorted and builds a graph, in which the first configuration has the second one
as its only parent. -/
theorem layered_builds : layered.Sorted ∧ ∃ graph, layered.toGraph = .ok graph ∧
    graph.names = ["compile", "shared"] ∧ graph.parents "compile" = .ok ["shared"] ∧
    ∀ name, ¬Relation.TransGen layered.Inherits name name := by
  have sorted : layered.Sorted := by
    refine List.pairwise_pair.2 (Text.bytes_lt_of_lt ?_)
    decide
  obtain ⟨graph, built⟩ : ∃ graph, layered.toGraph = .ok graph := ⟨_, by cbv⟩
  obtain ⟨builds, describes⟩ := builds_what_it_describes layered sorted
  obtain ⟨-, -, names, -, -, described⟩ := describes graph built
  obtain ⟨configuration, parents, -, -, linked, mentions⟩ :=
    described "compile" _ List.mem_cons_self
  have only : parents = ["shared"] := Ordered.firstMentions_iff_distinct.1 mentions
  rw [only] at linked
  exact ⟨sorted, graph, built, names, linked, (builds.1 ⟨graph, built⟩).2⟩

end Manifest

end BuildPath
