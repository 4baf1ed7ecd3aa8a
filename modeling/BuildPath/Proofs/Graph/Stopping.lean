import BuildPath.Proofs.FirstMention
import BuildPath.Proofs.Graph.Convention

/-!
# Conventions that stop half-way

A convention that fails leaves the graph as its edits before the first that failed leave it, those
of the convention that it builds upon included; nothing takes them back
(`Convention.exists_stopped`). What was there before is kept, but for descriptions
(`Graph.Retained`): none of these edits takes artifacts back, and they hide only what they created
(`Edit.gentle`). A frozen graph is kept as a whole.
-/

namespace BuildPath

variable {graph before after : Graph} {error : Error}

/-- What a configuration keeps in a later state of it: all but its description, and its artifacts
before others. -/
structure Configuration.Retained (before after : Configuration) : Prop where
  visible : after.visible = before.visible
  transitive : after.transitive = before.transitive
  observed : after.observed = before.observed
  declared : after.declared = before.declared
  excludes : after.excludes = before.excludes
  artifacts : before.artifacts <+: after.artifacts

/-- What a graph keeps in a later state of it: its configurations before others, and its edges. -/
structure Graph.Retained (before after : Graph) : Prop where
  settings : after.settings = before.settings
  project : after.project = before.project
  frozen : after.frozen = before.frozen
  names : before.names <+: after.names
  inheritances : before.inheritances <+: after.inheritances
  found : ∀ name configuration, before.find? name = some configuration →
    ∃ later, after.find? name = some later ∧ configuration.Retained later

/-- Edits that only add and describe. They may also show or hide a configuration, but only one that
an edit before created, or one of the given names. -/
def Edit.gentle (created : List String) : List Edit → Bool
  | [] => true
  | .create name :: rest => gentle (name :: created) rest
  | .setVisible name _ :: rest => created.contains name && gentle created rest
  | .ensure _ :: rest => gentle created rest
  | .extend _ _ :: rest => gentle created rest
  | .setDescription _ _ :: rest => gentle created rest
  | .addArtifact _ _ :: rest => gentle created rest
  | _ => false

/-- The first of gentle edits are gentle. -/
theorem Edit.gentle_of_append {created : List String} {edits more : List Edit}
    (whole : gentle created (edits ++ more) = true) : gentle created edits = true := by
  induction edits generalizing created with
  | nil => rfl
  | cons edit rest ih =>
    cases edit with
    | setVisible name visible =>
      obtain ⟨among, onward⟩ := Bool.and_eq_true_iff.1 whole
      exact Bool.and_eq_true_iff.2 ⟨among, ih onward⟩
    | setTransitive name transitive => exact whole
    | exclude name rule => exact whole
    | removeArtifacts name producer => exact whole
    | add name written action => exact whole
    | _ => exact ih whole

/-- A configuration keeps everything in the same state. -/
theorem Configuration.Retained.refl (configuration : Configuration) :
    configuration.Retained configuration :=
  ⟨rfl, rfl, rfl, rfl, rfl, List.prefix_refl _⟩

namespace Graph

/-- A graph keeps everything in the same state. -/
theorem Retained.refl (graph : Graph) : graph.Retained graph :=
  ⟨rfl, rfl, rfl, List.prefix_refl _, List.prefix_refl _,
    fun _ configuration found => ⟨configuration, found, .refl configuration⟩⟩

/-- What conventions are remembered does not count. -/
theorem Retained.note (retained : before.Retained graph) (conventions : List String) :
    before.Retained { graph with conventions } := by
  obtain ⟨settings, project, frozen, names, inheritances, found⟩ := retained
  exact ⟨settings, project, frozen, names, inheritances, found⟩

/-- A name that is new to a later state was new before. -/
theorem Retained.contains_eq_false (retained : before.Retained graph) {name : String}
    (new : graph.contains name = false) : before.contains name = false := by
  cases known : before.find? name with
  | none => rw [contains, known, Option.isSome_none]
  | some configuration =>
    obtain ⟨later, found, -⟩ := retained.found name configuration known
    rw [contains, found, Option.isSome_some] at new
    contradiction

/-- A configuration that is created leaves the others. -/
theorem Retained.create (retained : before.Retained graph) {name : String}
    (done : graph.create name = .ok after) : before.Retained after := by
  obtain ⟨-, -, rfl⟩ := create_eq_ok_iff.1 done
  refine { retained with
    names := retained.names.trans ?_
    found := fun other configuration known => ?_ }
  · rw [Graph.names, Graph.names, List.map_append]
    exact List.prefix_append _ _
  · obtain ⟨later, found, kept⟩ := retained.found other configuration known
    refine ⟨later, ?_, kept⟩
    rw [find?_create, found]
    rfl

/-- A link that is made leaves the others. -/
theorem Retained.extend (retained : before.Retained graph) {child parent : String}
    (done : graph.extend child parent = .ok after) : before.Retained after := by
  obtain ⟨-, -, -, ⟨-, rfl⟩ | ⟨-, -, -, rfl⟩⟩ := extend_eq_ok_iff.1 done
  · exact retained
  · obtain ⟨settings, project, frozen, names, inheritances, found⟩ := retained
    exact ⟨settings, project, frozen, names, inheritances.trans (List.prefix_append _ _), found⟩

/-- A change that leaves its configuration all that counts, if it was there, leaves the graph that.
-/
theorem Retained.mutate (retained : before.Retained graph) {name : String}
    {change : Configuration → Configuration} (changes : Configuration.Change change)
    (keeps : ∀ configuration later, before.find? name = some configuration →
      configuration.Retained later → configuration.Retained (change later))
    (done : graph.mutate name change = .ok after) : before.Retained after := by
  obtain ⟨-, -, -, rfl⟩ := mutate_eq_ok_iff.1 done
  refine { retained with
    names := ?_
    found := fun other configuration known => ?_ }
  · rw [names_modify changes.name_eq]
    exact retained.names
  · obtain ⟨later, found, kept⟩ := retained.found other configuration known
    rw [find?_modify changes.name_eq]
    split
    next same =>
      subst same
      rw [found]
      exact ⟨change later, rfl, keeps configuration later known kept⟩
    · exact ⟨later, found, kept⟩

/-- Gentle edits leave a graph all that counts. -/
theorem Retained.editAll (retained : before.Retained graph) {edits : List Edit}
    {created : List String} (new : ∀ name ∈ created, before.contains name = false)
    (gentle : Edit.gentle created edits = true) (done : graph.editAll edits = (.ok (), after)) :
    before.Retained after := by
  induction edits generalizing graph created with
  | nil =>
    cases done
    exact retained
  | cons edit rest ih =>
    obtain ⟨changed, first, later⟩ := editAll_cons_eq_ok_iff.1 done
    cases edit with
    | create name =>
      refine ih (retained.create first) (List.forall_mem_cons.2 ⟨?_, new⟩) gentle later
      exact retained.contains_eq_false (create_eq_ok_iff.1 first).1
    | ensure name =>
      rcases ensure_eq_ok_iff.1 first with ⟨-, rfl⟩ | created
      · exact ih retained new gentle later
      · exact ih (retained.create created) new gentle later
    | extend child parent => exact ih (retained.extend first) new gentle later
    | setVisible name visible =>
      obtain ⟨among, gentle⟩ := Bool.and_eq_true_iff.1 gentle
      refine ih (retained.mutate (.visible visible) (fun configuration _ known _ => ?_) first) new
        gentle later
      have absent := new name (List.contains_iff_mem.1 among)
      rw [contains, known, Option.isSome_some] at absent
      contradiction
    | setDescription name text =>
      refine ih (retained.mutate (.description text) (fun _ _ _ kept => ?_) first) new gentle later
      exact { kept with }
    | addArtifact name binding =>
      refine ih (retained.mutate (.addArtifact binding) (fun _ _ _ kept => ?_) first) new gentle
        later
      exact { kept with artifacts := kept.artifacts.trans (Ordered.prefix_insert _ binding) }
    | _ => contradiction

/-- Edits that succeed in a frozen graph find all that they ask for. -/
theorem editAll_of_frozen (frozen : graph.frozen = true) {edits : List Edit}
    (done : graph.editAll edits = (.ok (), after)) : after = graph := by
  have closed (configuration : Configuration) : graph.isMutable configuration ≠ true := by
    simp [isMutable, frozen]
  induction edits with
  | nil =>
    cases done
    rfl
  | cons edit rest ih =>
    obtain ⟨changed, first, later⟩ := editAll_cons_eq_ok_iff.1 done
    cases edited_of_apply first with
    | kept => exact ih later
    | create fresh open_ => exact absurd (frozen.symm.trans open_) Bool.noConfusion
    | extend found known new apart changeable => exact absurd changeable (closed _)
    | change changes found changeable => exact absurd changeable (closed _)

/-- No configuration of a frozen graph is described. -/
theorem setDescription_ne_ok_of_frozen (frozen : graph.frozen = true) (name text : String) :
    (Edit.setDescription name text).apply graph ≠ .ok after := by
  intro done
  obtain ⟨configuration, -, changeable, -⟩ := mutate_eq_ok_iff.1 done
  rw [isMutable, frozen] at changeable
  contradiction

/-- An artifact can be published where artifacts were taken back. -/
theorem addArtifact_ne_error_of_removeArtifacts {name producer : String}
    (done : (Edit.removeArtifacts name producer).apply graph = .ok after)
    (binding : ArtifactBinding) : (Edit.addArtifact name binding).apply after ≠ .error error := by
  intro failed
  obtain ⟨configuration, found, changeable, rfl⟩ := mutate_eq_ok_iff.1 done
  have there : (graph.modify name (·.removeArtifacts producer)).find? name =
      some (configuration.removeArtifacts producer) := by
    rw [find?_modify (Configuration.Change.removeArtifacts producer).name_eq, if_pos rfl, found]
    rfl
  rcases mutate_eq_error_iff.1 failed with ⟨absent, -⟩ | ⟨other, found, closed, -⟩
  · rw [there] at absent
    contradiction
  · rw [there, Option.some.injEq] at found
    subst found
    exact absurd (changeable.symm.trans closed) Bool.noConfusion

end Graph

namespace Convention

variable {convention : Convention} {name first : String} {edits own : Graph → List Edit}

/-- The edits that applying a convention amounts to, those of what it builds upon first. A
convention that was applied before has none. -/
def steps (graph : Graph) : Convention → List Edit
  | .plain name edits => if name ∈ graph.conventions then [] else edits graph
  | .upon base name edits =>
    if name ∈ graph.conventions then [] else base.steps graph ++ edits graph

/-- A convention that failed was new to the graph. -/
theorem unknown_of_apply_eq_error (failed : convention.apply graph = (.error error, after)) :
    convention.name ∉ graph.conventions := by
  intro known
  rw [apply_of_mem known] at failed
  cases failed

/-- Edits that fail after a convention was remembered, and after others upon that, leave the same as
if it had not been. -/
theorem settle_editAll_eq_error_iff (added : List String) (new : name ∉ added)
    {edits : List Edit} :
    settle name (Graph.editAll { graph with conventions := added ++ name :: graph.conventions }
      edits) = (.error error, after) ↔
      Graph.editAll { graph with conventions := added ++ graph.conventions } edits =
        (.error error, after) := by
  have erased : (added ++ name :: graph.conventions).erase name = added ++ graph.conventions := by
    rw [List.erase_append_right _ new, List.erase_cons_head]
  rw [settle_eq_error_iff, Graph.editAll_note_eq_iff]
  constructor
  · rintro ⟨left, stopped, rfl⟩
    obtain ⟨changed, edited, rfl⟩ := Graph.editAll_note_eq_iff.1 stopped
    exact ⟨changed, edited, by rw [erased]⟩
  · rintro ⟨changed, edited, rfl⟩
    exact ⟨_, Graph.editAll_note_eq_iff.2 ⟨changed, edited, rfl⟩, by rw [erased]⟩

/-- A plain convention fails where its edits fail, and leaves what they leave. -/
theorem apply_plain_eq_error_iff :
    (plain name edits).apply graph = (.error error, after) ↔
      name ∉ graph.conventions ∧ graph.editAll (edits graph) = (.error error, after) := by
  have settled (unknown : name ∉ graph.conventions) :
      (plain name edits).apply graph = (.error error, after) ↔
        graph.editAll (edits graph) = (.error error, after) := by
    rw [apply, if_neg (by simpa using unknown)]
    exact settle_editAll_eq_error_iff [] List.not_mem_nil
  constructor
  · intro failed
    have unknown := unknown_of_apply_eq_error failed
    exact ⟨unknown, (settled unknown).1 failed⟩
  · rintro ⟨unknown, stopped⟩
    exact (settled unknown).2 stopped

/-- A convention upon a plain one that fails leaves what that one leaves if it fails, and otherwise
what its own edits leave after it. -/
theorem apply_or_editAll_of_apply_upon_eq_error (blind : Blind edits) (blindOwn : Blind own)
    (apart : first ≠ name)
    (failed : (upon (plain first edits) name own).apply graph = (.error error, after)) :
    (plain first edits).apply graph = (.error error, after) ∨
      ∃ middle, (plain first edits).apply graph = (.ok (), middle) ∧
        middle.editAll (own middle) = (.error error, after) := by
  have unknown : name ∉ graph.conventions := unknown_of_apply_eq_error failed
  rw [apply, if_neg (by simpa using unknown)] at failed
  cases begun : (plain first edits).apply (remember name graph) with
  | mk outcome middle =>
    rw [begun] at failed
    cases outcome with
    | error other =>
      obtain ⟨absent, stopped⟩ := apply_plain_eq_error_iff.1 begun
      change settle name (.error other, middle) = _ at failed
      rw [← stopped, remember, blind] at failed
      refine .inl (apply_plain_eq_error_iff.2 ⟨mt (List.mem_cons_of_mem _) absent, ?_⟩)
      exact (settle_editAll_eq_error_iff [] List.not_mem_nil).1 failed
    | ok _ =>
      change settle name (middle.editAll (own middle)) = _ at failed
      refine .inr ?_
      by_cases known : first ∈ graph.conventions
      · have nothing : (plain first edits).apply (remember name graph) =
            (.ok (), remember name graph) := apply_of_mem (List.mem_cons_of_mem _ known)
        cases begun.symm.trans nothing
        rw [remember, blindOwn] at failed
        exact ⟨graph, apply_of_mem known,
          (settle_editAll_eq_error_iff [] List.not_mem_nil).1 failed⟩
      · obtain ⟨changed, done, rfl⟩ := apply_plain_of_remember blind apart known begun
        let plainly : Graph := { changed with conventions := graph.conventions }
        change settle name (Graph.editAll
          { plainly with conventions := [first] ++ name :: plainly.conventions } _) = _ at failed
        rw [blindOwn, ← blindOwn changed (first :: graph.conventions)] at failed
        have new : name ∉ [first] := mt List.mem_singleton.1 apart.symm
        exact ⟨_, done, (settle_editAll_eq_error_iff [first] new).1 failed⟩

section Stopped

/-- The edits of a web application depend on the project and its settings alone. -/
theorem edits_war_eq (steps : Graph.Steps graph after) : war.edits after = war.edits graph := by
  simp only [war, Convention.edits, steps.archive_eq]

/-- After edits some of which were left out, the convention of libraries is remembered if it was, or
if all of its edits are among those that were carried out. -/
inductive Noted (before : Graph) (earlier : List Edit) (after : Graph) : Prop
  | same (kept : after.conventions = before.conventions)
    (without : java.name ∈ before.conventions ∨ ¬java.edits before <+: earlier) :
    Noted before earlier after
  | java (kept : after.conventions = java.name :: before.conventions)
    (new : java.name ∉ before.conventions) (whole : java.edits before <+: earlier) :
    Noted before earlier after

/-- The convention of libraries, if it fails, stops at one of its edits. -/
theorem exists_stopped_java (failed : java.apply graph = (.error error, after)) :
    java.name ∉ graph.conventions ∧ ∃ earlier failing later,
      java.edits graph = earlier ++ failing :: later ∧ graph.editAll earlier = (.ok (), after) ∧
      failing.apply after = .error error ∧ Noted graph earlier after := by
  obtain ⟨unknown, stopped⟩ := apply_plain_eq_error_iff.1 failed
  obtain ⟨earlier, failing, later, split, carried, refused⟩ :=
    Graph.editAll_eq_error_iff.1 stopped
  have split : java.edits graph = earlier ++ failing :: later := split
  refine ⟨unknown, earlier, failing, later, split, carried, refused,
    .same (Graph.conventions_of_editAll carried) (.inr fun whole => ?_)⟩
  have shorter := whole.length_le
  rw [split, List.length_append, List.length_cons] at shorter
  omega

/-- The convention of web applications, if it fails after that of libraries, stops at one of its own
edits. -/
theorem exists_stopped_war {middle : Graph} (begun : java.apply graph = (.ok (), middle))
    (stopped : middle.editAll (war.edits middle) = (.error error, after)) :
    ∃ earlier failing later done,
      java.steps graph ++ war.edits graph = earlier ++ failing :: later ∧
      graph.editAll earlier = (.ok (), done) ∧ failing.apply done = .error error ∧
      after = { done with conventions := after.conventions } ∧ Noted graph earlier after := by
  have same : war.edits middle = war.edits graph := by
    have steps := (graph.editings_convention java).steps
    rw [begun] at steps
    exact edits_war_eq steps
  rw [same] at stopped
  obtain ⟨earlier, failing, later, split, carried, refused⟩ :=
    Graph.editAll_eq_error_iff.1 stopped
  by_cases known : java.name ∈ graph.conventions
  · cases (apply_of_mem known).symm.trans begun
    have nothing : java.steps graph = [] := if_pos known
    rw [nothing]
    exact ⟨earlier, failing, later, after, split, carried, refused, rfl,
      .same (Graph.conventions_of_editAll carried) (.inl known)⟩
  · have edited := (apply_plain_eq_ok_iff known).1 begun
    obtain ⟨changed, first, rfl⟩ := Graph.editAll_note_eq_iff.1 edited
    obtain ⟨done, second, rfl⟩ := Graph.editAll_note_eq_iff.1 carried
    have own : java.steps graph = java.edits graph := if_neg known
    refine ⟨java.edits graph ++ earlier, failing, later, done, ?_, ?_, ?_, rfl,
      .java rfl known (List.prefix_append _ _)⟩
    · rw [own, split, List.append_assoc]
    · exact Graph.editAll_append_eq_ok_iff.2 ⟨changed, first, second⟩
    · rw [Graph.apply_note] at refused
      cases outcome : failing.apply done with
      | error other =>
        rw [outcome] at refused
        exact refused
      | ok left =>
        rw [outcome] at refused
        cases refused

/-- The conventions of libraries and web applications leave what their edits before the first that
fails leave. -/
theorem exists_stopped (either : convention = java ∨ convention = war)
    (failed : convention.apply graph = (.error error, after)) :
    ∃ earlier failing later done,
      convention.steps graph = earlier ++ failing :: later ∧
      graph.editAll earlier = (.ok (), done) ∧ failing.apply done = .error error ∧
      after = { done with conventions := after.conventions } ∧ Noted graph earlier after := by
  rcases either with rfl | rfl
  · obtain ⟨unknown, earlier, failing, later, split, carried, refused, noted⟩ :=
      exists_stopped_java failed
    exact ⟨earlier, failing, later, after, (if_neg unknown).trans split, carried, refused, rfl,
      noted⟩
  · have unknown := unknown_of_apply_eq_error failed
    have whole : war.steps graph = java.steps graph ++ war.edits graph := if_neg unknown
    rw [whole]
    rcases apply_or_editAll_of_apply_upon_eq_error (fun _ _ => rfl) (fun _ _ => rfl)
      (by decide) failed with before | ⟨middle, begun, stopped⟩
    · obtain ⟨new, earlier, failing, later, split, carried, refused, noted⟩ :=
        exists_stopped_java before
      have own : java.steps graph = java.edits graph := if_neg new
      exact ⟨earlier, failing, later ++ war.edits graph, after, by simp [own, split], carried,
        refused, rfl, noted⟩
    · exact exists_stopped_war begun stopped

/-- All edits of both conventions are gentle but for those that replace the jar by the war. -/
theorem exists_gentle_steps (either : convention = java ∨ convention = war) (graph : Graph) :
    ∃ edits, Edit.gentle [] edits = true ∧
      (convention.steps graph = edits ∨ ∃ binding, convention.steps graph =
        edits ++ [.removeArtifacts archives jarTask, .addArtifact archives binding]) := by
  have nothingOrAll : java.steps graph = [] ∨ java.steps graph = java.edits graph :=
    ite_eq_or_eq (java.name ∈ graph.conventions) [] (java.edits graph)
  rcases either with rfl | rfl
  · refine ⟨java.steps graph, ?_, .inl rfl⟩
    rcases nothingOrAll with own | own <;> rw [own] <;> rfl
  · by_cases known : war.name ∈ graph.conventions
    · exact ⟨[], rfl, .inl (if_pos known)⟩
    · refine ⟨java.steps graph ++ (war.edits graph).take 9, ?_,
        .inr ⟨⟨archive graph "war", some warTask⟩, ?_⟩⟩
      · rcases nothingOrAll with own | own <;> rw [own] <;> rfl
      · rw [List.append_assoc]
        exact if_neg known

/-- The edits of both conventions before one that fails are gentle: an artifact is published where
others were taken back. -/
theorem gentle_of_stopped (either : convention = java ∨ convention = war)
    {earlier later : List Edit} {failing : Edit} {done : Graph}
    (split : convention.steps graph = earlier ++ failing :: later)
    (carried : graph.editAll earlier = (.ok (), done))
    (refused : failing.apply done = .error error) : Edit.gentle [] earlier = true := by
  obtain ⟨edits, gentle, same | ⟨binding, same⟩⟩ := exists_gentle_steps either graph
  · rw [← same, split] at gentle
    exact Edit.gentle_of_append gentle
  · rw [split] at same
    rcases List.append_eq_append_iff.1 same with ⟨more, rfl, -⟩ | ⟨more, rfl, rest⟩
    · exact Edit.gentle_of_append gentle
    · rcases more with _ | ⟨first, _ | ⟨second, more⟩⟩
      · rwa [List.append_nil]
      · cases rest
        obtain ⟨middle, -, removed⟩ := Graph.editAll_append_eq_ok_iff.1 carried
        have removed := Graph.editAll_singleton_eq_ok_iff.1 removed
        exact absurd refused (Graph.addArtifact_ne_error_of_removeArtifacts removed binding)
      · simp at rest

/-- A convention that fails is forgotten, for both have names of their own. -/
theorem name_not_mem_of_failed (either : convention = java ∨ convention = war)
    (failed : convention.apply graph = (.error error, after)) :
    convention.name ∉ after.conventions := by
  refine name_not_mem_of_apply_eq_error (fun part member same => ?_) failed
  rcases either with rfl | rfl
  · exact List.mem_singleton.1 member
  · rcases List.mem_cons.1 member with rfl | below
    · rfl
    · cases List.mem_singleton.1 below
      exact absurd same (by decide)

/-- A convention that fails leaves a frozen graph as it is. -/
theorem eq_of_frozen (either : convention = java ∨ convention = war)
    (failed : convention.apply graph = (.error error, after)) (frozen : graph.frozen = true) :
    after = graph := by
  obtain ⟨earlier, failing, later, done, -, carried, -, same, noted⟩ := exists_stopped either failed
  cases Graph.editAll_of_frozen frozen carried
  cases noted with
  | same kept without => rw [same, kept]
  | java kept new whole =>
    -- The first configuration would have been described.
    obtain ⟨rest, rfl⟩ := whole
    obtain ⟨middle, ensured, onward⟩ := Graph.editAll_cons_eq_ok_iff.1 carried
    cases Graph.editAll_of_frozen frozen (Graph.editAll_singleton_eq_ok_iff.2 ensured)
    obtain ⟨_, described, _⟩ := Graph.editAll_cons_eq_ok_iff.1 onward
    exact absurd described (Graph.setDescription_ne_ok_of_frozen frozen _ _)

/-- A convention that fails leaves a graph all that counts. -/
theorem retained_of_apply_eq_error (either : convention = java ∨ convention = war)
    (failed : convention.apply graph = (.error error, after)) : graph.Retained after := by
  obtain ⟨earlier, failing, later, done, split, carried, refused, same, -⟩ :=
    exists_stopped either failed
  rw [same]
  have gentle := gentle_of_stopped either split carried refused
  exact ((Graph.Retained.refl graph).editAll (List.forall_mem_nil _) gentle carried).note _

end Stopped

end Convention

end BuildPath
