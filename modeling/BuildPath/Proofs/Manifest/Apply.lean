import BuildPath.Proofs.Declaration.Grammar
import BuildPath.Proofs.Graph.Collecting
import BuildPath.Proofs.Graph.Editing
import Mathlib

/-!
# Where applying a manifest stops

A manifest is applied in edits: those of attributes, those of inheritance, and one for every
configuration with dependencies. What has no shape of a notation is noticed before the first edit,
and nothing is done. A notation of the right shape that is malformed is noticed by the edit that is
to declare it and by no other one, and all edits before that one stay done
(`Manifest.apply_error_of_notation`).
-/

namespace BuildPath

/-- A failure for what a graph is, not for what is declared in it. -/
inductive Error.OfState : Error → Prop
  | cyclic (child parent : String) : OfState (.cyclicInheritance child parent)
  | duplicate (name : String) : OfState (.duplicateConfiguration name)
  | unknown (name : String) : OfState (.unknownConfiguration name)
  | frozen (name : String) : OfState (.frozen name)

variable {graph after : Graph} {error : Error}

section Edits

/-- A mutation fails for what the graph is. -/
theorem Graph.ofState_of_mutate {name : String} {change : Configuration → Configuration}
    (failed : graph.mutate name change = .error error) : error.OfState := by
  rcases mutate_eq_error_iff.1 failed with ⟨-, rfl⟩ | ⟨configuration, -, -, rfl⟩
  · exact .unknown name
  · exact .frozen name

/-- A creation fails for what the graph is. -/
theorem Graph.ofState_of_create {name : String} (failed : graph.create name = .error error) :
    error.OfState := by
  rcases create_eq_error_iff.1 failed with ⟨-, rfl⟩ | ⟨-, -, rfl⟩
  · exact .duplicate name
  · exact .frozen name

/-- A link fails for what the graph is. -/
theorem Graph.ofState_of_extend {child parent : String}
    (failed : graph.extend child parent = .error error) : error.OfState := by
  rw [extend_eq] at failed
  split at failed
  · cases failed
    exact .unknown child
  · cases failed
    exact .unknown parent
  · split at failed
    · contradiction
    · split at failed
      · cases failed
        exact .cyclic child parent
      · split at failed
        · cases failed
          exact .frozen child
        · contradiction

/-- An edit fails for what the graph is, unless it is to declare a notation that is refused. -/
theorem Edit.ofState_or_refused {edit : Edit} (failed : edit.apply graph = .error error) :
    error.OfState ∨ ∃ name written action, edit = .add name written action ∧
      written.Refused graph.project action error := by
  cases edit with
  | create name => exact .inl (Graph.ofState_of_create failed)
  | ensure name =>
    change graph.ensure name = .error error at failed
    unfold Graph.ensure at failed
    split at failed
    · contradiction
    · exact .inl (Graph.ofState_of_create failed)
  | extend child parent => exact .inl (Graph.ofState_of_extend failed)
  | setVisible name visible => exact .inl (Graph.ofState_of_mutate failed)
  | setTransitive name transitive => exact .inl (Graph.ofState_of_mutate failed)
  | setDescription name text => exact .inl (Graph.ofState_of_mutate failed)
  | exclude name rule => exact .inl (Graph.ofState_of_mutate failed)
  | addArtifact name binding => exact .inl (Graph.ofState_of_mutate failed)
  | removeArtifacts name producer => exact .inl (Graph.ofState_of_mutate failed)
  | add name written action =>
    cases Graph.add_eq_error_iff.1 failed with
    | written refused => exact .inr ⟨name, written, action, rfl, refused⟩
    | unknown _ _ => exact .inl (.unknown name)
    | closed _ _ _ => exact .inl (.frozen name)

/-- Edits for several items stop at those of one item, in the graph that the edits for the items
before it left. -/
theorem Graph.editAll_flatMap_eq_error {Item : Type} {items : List Item}
    {edits : Item → List Edit}
    (failed : graph.editAll (items.flatMap edits) = (.error error, after)) :
    ∃ earlier item later middle, items = earlier ++ item :: later ∧
      graph.editAll (earlier.flatMap edits) = (.ok (), middle) ∧
      middle.editAll (edits item) = (.error error, after) := by
  induction items generalizing graph with
  | nil => cases failed
  | cons item items ih =>
    rw [List.flatMap_cons, editAll_append] at failed
    cases here : graph.editAll (edits item) with
    | mk outcome changed =>
      rw [here] at failed
      cases outcome with
      | error other =>
        cases failed
        exact ⟨[], item, items, graph, rfl, rfl, here⟩
      | ok =>
        obtain ⟨earlier, other, later, middle, rfl, before, failed⟩ := ih failed
        refine ⟨item :: earlier, other, later, middle, rfl, ?_, failed⟩
        rw [List.flatMap_cons, editAll_append, here]
        exact before

/-- Edits that declare nothing fail for what the graph is. -/
theorem Graph.ofState_of_editAll {edits : List Edit}
    (silent : ∀ name written action, .add name written action ∉ edits)
    (failed : graph.editAll edits = (.error error, after)) : error.OfState := by
  obtain ⟨earlier, failing, later, rfl, -, failed⟩ := editAll_eq_error_iff.1 failed
  rcases failing.ofState_or_refused failed with state | ⟨name, written, action, rfl, -⟩
  · exact state
  · exact absurd (List.mem_append_right _ List.mem_cons_self) (silent name written action)

end Edits

/-- An outcome that fails for nothing but a value that has no shape of a notation. -/
def Outcome.Shapeless {Value : Type} (outcome : Outcome Value) : Prop :=
  ∀ error, outcome = .error error → ∃ shown, error = .unsupported shown

namespace Outcome.Shapeless

variable {Value Result : Type}

/-- To succeed is not to fail. -/
theorem ok (value : Value) : Shapeless (.ok value) := nofun

/-- A sequence fails as its parts do. -/
theorem bind {outcome : Outcome Value} {next : Value → Outcome Result} (first : Shapeless outcome)
    (rest : ∀ value, Shapeless (next value)) : Shapeless (outcome >>= next) := by
  intro error failed
  rcases bind_eq_error_iff.1 failed with failed | ⟨value, -, failed⟩
  · exact first error failed
  · exact rest value error failed

/-- A list fails as its items do. -/
theorem mapM {Item : Type} {find : Item → Outcome Value} {items : List Item}
    (each : ∀ item ∈ items, Shapeless (find item)) : Shapeless (items.mapM find) := by
  intro error failed
  obtain ⟨earlier, failing, later, rfl, -, failed⟩ := mapM_eq_error_iff.1 failed
  exact each failing (List.mem_append_right _ List.mem_cons_self) error failed

end Outcome.Shapeless

namespace Notation

open Outcome

/-- A value is refused for its shape. -/
theorem shapeless_ofJson (document : Json) : Shapeless (ofJson document) := by
  intro error failed
  obtain ⟨-, refused, -, -, -, -, rfl⟩ := (ofJson_eq_error_iff document error).1 failed
  exact ⟨refused.shown, rfl⟩

/-- Values are refused for their shape. -/
theorem shapeless_ofJsonEach (documents : List Json) : Shapeless (ofJsonEach documents) := by
  induction documents with
  | nil => rw [ofJsonEach]; exact .ok _
  | cons document documents ih =>
    rw [ofJsonEach]
    exact (shapeless_ofJson document).bind fun _ => ih.bind fun _ => .ok _

end Notation

namespace Manifest

/-- The notations of a manifest are refused for their shape. -/
theorem shapeless_notations (manifest : Manifest) : manifest.notations.Shapeless :=
  .mapM fun _ _ => (Notation.shapeless_ofJsonEach _).bind fun _ => .ok _

/-- What comes before the notations of a manifest declares nothing. -/
theorem add_not_mem_edits_nil (manifest : Manifest) (name : String) (written : Notation)
    (action : Option Action) : .add name written action ∉ manifest.edits [] := by
  simp [edits, attributeEdits, inheritanceEdits]

/-- The edits for the first notations of a manifest come first. -/
theorem edits_append (manifest : Manifest) (earlier later : List (String × List Notation)) :
    manifest.edits (earlier ++ later) =
      manifest.edits earlier ++
        later.flatMap fun (name, written) => declarationEdits name written := by
  simp [edits]

/-- The notations of one configuration are declared at once, if there are any. -/
theorem editAll_declarationEdits_eq_error_iff {graph after : Graph} {name : String}
    {written : List Notation} {error : Error} :
    graph.editAll (declarationEdits name written) = (.error error, after) ↔
      written ≠ [] ∧ graph.add name (.bundle written) none = .error error ∧ after = graph := by
  unfold declarationEdits
  cases written with
  | nil => simp [Graph.editAll]
  | cons first rest =>
    simp only [List.isEmpty_cons, Bool.false_eq_true, if_false, Graph.editAll, Edit.apply]
    cases graph.add name (.bundle (first :: rest)) none <;> simp [@eq_comm _ after]

/-- The edits of a manifest fail over a notation when all edits before the one that is to declare it
succeeded, and that one refuses it. -/
theorem editAll_edits_eq_error_iff {manifest : Manifest} {graph after : Graph}
    {notations : List (String × List Notation)} {error : Error} (declared : ¬error.OfState) :
    graph.editAll (manifest.edits notations) = (.error error, after) ↔
      ∃ earlier name written later, notations = earlier ++ (name, written) :: later ∧
        graph.editAll (manifest.edits earlier) = (.ok (), after) ∧
        (Notation.bundle written).Refused after.project none error := by
  constructor
  · intro failed
    rw [← List.nil_append notations, edits_append, Graph.editAll_append] at failed
    cases first : graph.editAll (manifest.edits []) with
    | mk outcome filled =>
      rw [first] at failed
      cases outcome with
      | error other =>
        cases failed
        exact absurd (Graph.ofState_of_editAll manifest.add_not_mem_edits_nil first) declared
      | ok =>
        obtain ⟨earlier, ⟨name, written⟩, later, middle, rfl, before, failed⟩ :=
          Graph.editAll_flatMap_eq_error failed
        obtain ⟨-, failed, rfl⟩ := editAll_declarationEdits_eq_error_iff.1 failed
        refine ⟨earlier, name, written, later, rfl, ?_, ?_⟩
        · rw [← List.nil_append earlier, edits_append, Graph.editAll_append, first]
          exact before
        · have failed : (Edit.add name (.bundle written) none).apply after = .error error := failed
          rcases Edit.ofState_or_refused failed with state | ⟨_, _, _, ⟨⟩, refused⟩
          · exact absurd state declared
          · exact refused
  · rintro ⟨earlier, name, written, later, rfl, before, refused⟩
    have failed : after.editAll (declarationEdits name written) = (.error error, after) := by
      refine editAll_declarationEdits_eq_error_iff.2 ⟨?_, ?_, rfl⟩
      · rintro rfl
        -- Nothing is refused where nothing is written.
        cases refused with
        | misread split _ _ _ | mismatch _ split _ _ _ _ _ =>
          simp [Notation.leaves, Notation.leavesEach] at split
      · exact Graph.add_eq_error_iff.2 (.written refused)
    rw [edits_append, Graph.editAll_append, before]
    dsimp only
    rw [List.flatMap_cons, Graph.editAll_append, failed]

/-- How applying a manifest fails over a notation. A value that has no shape of one is noticed
before anything is done. A malformed one is noticed only when the edit that is to declare it comes
up: the attributes and the inheritance of all configurations stay, and the dependencies of those
before. -/
theorem apply_error_of_notation (manifest : Manifest) (graph : Graph) :
    let left := manifest.apply graph
    (∀ shown, left.1 = .error (.unsupported shown) ↔
      manifest.notations = .error (.unsupported shown)) ∧
    (∀ shown, left.1 = .error (.unsupported shown) → left.2 = graph) ∧
    ∀ shown malformation, left.1 = .error (.malformed shown malformation) ↔
      ∃ earlier name written later,
        manifest.notations = .ok (earlier ++ (name, written) :: later) ∧
        graph.editAll (manifest.edits earlier) = (.ok (), left.2) ∧
        (Notation.bundle written).Refused left.2.project none (.malformed shown malformation) := by
  intro left
  cases notated : manifest.notations with
  | error error =>
    have same : left = (.error error, graph) := by
      change manifest.apply graph = _
      rw [apply, notated]
    obtain ⟨quoted, rfl⟩ := manifest.shapeless_notations error notated
    rw [same]
    simp
  | ok notations =>
    have same : left = graph.editAll (manifest.edits notations) := by
      change manifest.apply graph = _
      rw [apply, notated]
    have fails : ∀ error, left.1 = .error error ↔
        graph.editAll (manifest.edits notations) = (.error error, left.2) := by
      intro error
      rw [← same, Prod.ext_iff, and_iff_left rfl]
    have shaped : ∀ shown, left.1 ≠ .error (.unsupported shown) := by
      intro shown failed
      have declared : ¬(Error.unsupported shown).OfState := nofun
      obtain ⟨_, _, _, _, -, -, refused⟩ :=
        (editAll_edits_eq_error_iff declared).1 ((fails _).1 failed)
      obtain ⟨_, _, impossible⟩ := refused.isMalformed
      contradiction
    refine ⟨fun shown => iff_of_false (shaped shown) nofun,
      fun shown failed => absurd failed (shaped shown), fun shown malformation => ?_⟩
    have declared : ¬(Error.malformed shown malformation).OfState := nofun
    rw [fails, editAll_edits_eq_error_iff declared]
    simp only [Except.ok.injEq]

/-- A manifest that declares a module without a name. -/
def nameless : Manifest :=
  ⟨none, [("compile", ⟨none, none, none, [], [.string "org.example::1.0"], []⟩)]⟩

/-- The configuration that was to hold the module is there, although its notation was refused. -/
theorem apply_nameless :
    (nameless.apply (.new {} .root)).1 =
        .error (.malformed (Text.quoted "org.example::1.0") .missingModuleName) ∧
      (nameless.apply (.new {} .root)).2.names = ["compile"] := by
  constructor
  · cbv
  · cbv

end Manifest

end BuildPath
