import BuildPath.Proofs.Graph.Repeating
import BuildPath.Proofs.Manifest.Building
import Mathlib

/-!
# Manifests applied again

A manifest that was applied has nothing to do when it is applied again
(`Session.applyManifest_idempotent`). Its edits are of the kinds that can be made again, for a value
never stands for something lazy (`Manifest.Asks.repeatable`), and they agree, for a manifest says
one thing of a name (`Manifest.Asks.agrees`).
-/

namespace BuildPath

namespace Manifest

variable {manifest : Manifest} {notations : List (String × List Notation)}

/-- An edit of a manifest, by what it is made for. -/
inductive Asks (manifest : Manifest) (notations : List (String × List Notation)) : Edit → Prop
  | ensure (name : String) : Asks manifest notations (.ensure name)
  | extend (child parent : String) : Asks manifest notations (.extend child parent)
  | setVisible {name : String} {given : ConfigurationManifest} {visible : Bool}
    (member : (name, given) ∈ manifest.configurations) (shown : given.visible = some visible) :
    Asks manifest notations (.setVisible name visible)
  | setTransitive {name : String} {given : ConfigurationManifest} {transitive : Bool}
    (member : (name, given) ∈ manifest.configurations)
    (shown : given.transitive = some transitive) :
    Asks manifest notations (.setTransitive name transitive)
  | setDescription {name text : String} {given : ConfigurationManifest}
    (member : (name, given) ∈ manifest.configurations) (shown : given.description = some text) :
    Asks manifest notations (.setDescription name text)
  | exclude (name : String) (rule : ExcludeRule) : Asks manifest notations (.exclude name rule)
  | add {name : String} {written : List Notation} (member : (name, written) ∈ notations) :
    Asks manifest notations (.add name (.bundle written) none)

/-- Every edit of a manifest is made for something in it. -/
theorem asks_of_mem_edits {edit : Edit} (member : edit ∈ manifest.edits notations) :
    manifest.Asks notations edit := by
  rcases List.mem_append.1 member with member | member
  · rcases List.mem_append.1 member with member | member
    · obtain ⟨⟨name, given⟩, listed, member⟩ := List.mem_flatMap.1 member
      simp only [attributeEdits, List.mem_append, List.mem_singleton, List.mem_map,
        Option.mem_toList] at member
      rcases member with (((rfl | ⟨visible, shown, rfl⟩) | ⟨transitive, shown, rfl⟩) |
        ⟨text, shown, rfl⟩) | ⟨rule, -, rfl⟩
      · exact .ensure name
      · exact .setVisible listed shown
      · exact .setTransitive listed shown
      · exact .setDescription listed shown
      · exact .exclude name rule
    · obtain ⟨⟨name, given⟩, -, member⟩ := List.mem_flatMap.1 member
      obtain ⟨parent, -, rfl⟩ := List.mem_map.1 member
      exact .extend name parent
  · obtain ⟨⟨name, written⟩, listed, member⟩ := List.mem_flatMap.1 member
    change _ ∈ declarationEdits name written at member
    rw [declarationEdits] at member
    split at member
    · contradiction
    · rw [List.mem_singleton.1 member]
      exact .add listed

/-- A sorted manifest says one thing of a name. -/
theorem Sorted.eq_of_listed {Value : Type} (sorted : manifest.Sorted)
    (field : ConfigurationManifest → Option Value) {name : String}
    {given other : ConfigurationManifest} {first second : Value}
    (listed : (name, given) ∈ manifest.configurations) (set : field given = some first)
    (again : (name, other) ∈ manifest.configurations) (reset : field other = some second) :
    first = second := by
  have same : given = other :=
    congrArg Prod.snd (List.inj_on_of_nodup_map sorted.nodup listed again rfl :)
  rw [← same, set] at reset
  exact Option.some.inj reset

/-- The edits of a sorted manifest agree. -/
theorem Asks.agrees (sorted : manifest.Sorted) {first second : Edit}
    (asks : manifest.Asks notations first) (also : manifest.Asks notations second) :
    first.Agrees second := by
  constructor
  · rintro name one other rfl rfl
    cases asks with
    | setVisible listed set =>
      cases also with
      | setVisible again reset => exact sorted.eq_of_listed (·.visible) listed set again reset
  · rintro name one other rfl rfl
    cases asks with
    | setTransitive listed set =>
      cases also with
      | setTransitive again reset => exact sorted.eq_of_listed (·.transitive) listed set again reset
  · rintro name one other rfl rfl
    cases asks with
    | setDescription listed set =>
      cases also with
      | setDescription again reset =>
        exact sorted.eq_of_listed (·.description) listed set again reset

/-- What a notation of a manifest says is known. -/
theorem direct_of_notations (notated : manifest.notations = .ok notations) {name : String}
    {written : List Notation} (listed : (name, written) ∈ notations) :
    ∀ leaf ∈ (Notation.bundle written).leaves, leaf.Direct := by
  obtain ⟨⟨_, given⟩, -, -, stands⟩ :=
    Outcome.exists_mem_of_forall₂ (notations_eq_ok_iff.1 notated).flip _ listed
  intro leaf member
  rw [Notation.leaves_bundle] at member
  obtain ⟨item, present, member⟩ := List.mem_flatMap.1 member
  obtain ⟨value, -, read⟩ := Outcome.exists_mem_of_forall₂ stands.flip item present
  exact Notation.direct_of_ofJson read leaf member

/-- The edits of a manifest can be made again. -/
theorem Asks.repeatable (notated : manifest.notations = .ok notations) {edit : Edit}
    (asks : manifest.Asks notations edit) : edit.Repeatable := by
  cases asks with
  | ensure name => exact .ensure name
  | extend child parent => exact .extend child parent
  | setVisible listed shown => exact .setVisible _ _
  | setTransitive listed shown => exact .setTransitive _ _
  | setDescription listed shown => exact .setDescription _ _
  | exclude name rule => exact .exclude name rule
  | add listed => exact .add _ (direct_of_notations notated listed)

/-- A manifest that was applied to a well-formed graph has nothing to do in it again. -/
theorem apply_again (sorted : manifest.Sorted) {graph after : Graph} (formed : graph.WellFormed)
    (done : manifest.apply graph = (.ok (), after)) : manifest.apply after = (.ok (), after) := by
  have kept : after.WellFormed := by
    have steps := (graph.editings_manifest manifest).steps
    rw [done] at steps
    exact steps.preserve (fun _ _ formed step => formed.step step) formed
  rw [apply] at done ⊢
  cases notated : manifest.notations with
  | error error =>
    rw [notated] at done
    cases done
  | ok notations =>
    rw [notated] at done
    refine Graph.editAll_of_established kept (Graph.forall_established (fun edit member => ?_)
      (fun first member second present => ?_) done)
    · exact (asks_of_mem_edits member).repeatable notated
    · exact (asks_of_mem_edits member).agrees sorted (asks_of_mem_edits present)

end Manifest

namespace Session

/-- In every session that operations lead to, a manifest that was applied can be applied again, and
then it changes nothing at all. -/
theorem applyManifest_idempotent (settings : Settings) (project : DeclaringProject)
    (tree : FileTree) (room : Nat) (operations : List Operation) (manifest : Manifest)
    (sorted : manifest.Sorted) :
    let session := (start (.new settings project) tree room).run operations
    let applied := (Operation.applyManifest manifest).perform.perform session
    applied.1 = .ok () →
      (Operation.applyManifest manifest).perform.perform applied.2 = (.ok (), applied.2) := by
  intro session applied done
  have formed : session.graph.WellFormed :=
    Graph.wellFormed_of_reachable ⟨settings, project, tree, room, operations, rfl⟩
  have left : applied = ((manifest.apply session.graph).1,
      { session with graph := (manifest.apply session.graph).2 }) :=
    perform_change manifest.apply session
  rw [left] at done ⊢
  have again := Manifest.apply_again sorted formed (Prod.ext done rfl)
  refine (perform_change manifest.apply _).trans ?_
  simp only [again]

/-- A manifest that lets a configuration inherit from one that may be there already. -/
def layering : Manifest where
  settings := none
  configurations := [
    ("compile", {
      visible := some false, transitive := none, description := some "main sources"
      extendsFrom := ["shared"]
      dependencies := [.string "org.example:lib:1.0"]
      exclude := [⟨some "org.example", none⟩] }),
    ("shared", {
      visible := none, transitive := some false, description := none, extendsFrom := []
      dependencies := [.array [.string "org.example:core:1.0", .string "org.example:lib:1.0"]]
      exclude := [] })]

/-- The operations that make one of its configurations, with one of its dependencies. -/
def sharing : List Operation :=
  [.edit (.create "tools"), .edit (.create "shared"),
    .edit (.add "shared" (.coordinates "org.example:lib:1.0") none)]

/-- Applied after these operations, the manifest adds what is missing. Applied once more, it adds
nothing. -/
theorem applyManifest_idempotent_layering : layering.Sorted ∧
    let session := (start (.new {} .root) ⟨[], []⟩).run sharing
    let applied := (Operation.applyManifest layering).perform.perform session
    applied.1 = .ok () ∧
      (applied.2.graph.configurations.map fun configuration =>
        (configuration.name, configuration.declared.length)) =
          [("tools", 0), ("shared", 2), ("compile", 1)] ∧
      (Operation.applyManifest layering).perform.perform applied.2 = (.ok (), applied.2) := by
  have sorted : layering.Sorted := by
    refine List.pairwise_pair.2 (Text.bytes_lt_of_lt ?_)
    decide
  have done : ((Operation.applyManifest layering).perform.perform
      ((start (.new {} .root) ⟨[], []⟩).run sharing)).1 = .ok () := by cbv
  exact ⟨sorted, done, by cbv,
    applyManifest_idempotent {} .root ⟨[], []⟩ _ sharing layering sorted done⟩

end Session

end BuildPath
