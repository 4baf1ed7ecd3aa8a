import BuildPath.Proofs.Graph.Editing
import BuildPath.Proofs.Outcome

/-!
# What conventions leave behind

A graph remembers conventions by name. Applying a convention remembers it and those that it builds
upon, each of them if it succeeds, and forgets nothing that was remembered before
(`Convention.exists_conventions_apply`). Where a graph remembers a convention, that was carried out,
and so every link among its edits is there (`Graph.Linked`), for edges are never removed. This
presupposes that no other convention goes by the same name (`Convention.Respects`).

A convention upon another one comes to the same whether or not that one was applied before
(`Convention.apply_upon_of_apply_plain`).
-/

namespace BuildPath

variable {graph after : Graph} {child parent : String}

namespace Graph

/-- Where a convention is remembered, a certain link is there. -/
def Linked (convention : Convention) (child parent : String) (graph : Graph) : Prop :=
  convention.name ∈ graph.conventions → Inheritance.Extends graph.inheritances child parent

/-- No step removes an edge. -/
theorem Steps.extends (steps : Steps graph after)
    (edge : Inheritance.Extends graph.inheritances child parent) :
    Inheritance.Extends after.inheritances child parent := by
  induction steps with
  | refl => exact edge
  | tail _ step ih =>
    cases step with
    | create fresh open_ => exact ih
    | extend found known new apart changeable => exact List.mem_append_left _ ih
    | change changes found changeable => exact ih
    | observe name =>
      rw [inheritances_observe]
      exact ih
    | freeze => exact ih
    | note conventions => exact ih

/-- No step changes the project of a graph or its settings. -/
theorem Steps.archive_eq (steps : Steps graph after) (extension : String) :
    Convention.archive after extension = Convention.archive graph extension := by
  have given : after.settings = graph.settings ∧ after.project = graph.project := by
    induction steps with
    | refl => exact ⟨rfl, rfl⟩
    | tail _ step ih =>
      cases step with
      | observe name =>
        rw [observe_eq]
        split <;> exact ih
      | _ => exact ih
  rw [Convention.archive, Convention.archive, Convention.projectName, Convention.projectName,
    given.1, given.2]

/-- A link stays where it belongs by steps that do not remember the convention. -/
theorem Linked.of_steps {convention : Convention} (linked : graph.Linked convention child parent)
    (steps : Steps graph after)
    (known : convention.name ∈ after.conventions → convention.name ∈ graph.conventions) :
    after.Linked convention child parent :=
  fun remembered => steps.extends (linked (known remembered))

/-- Edits keep a link where it belongs. -/
theorem Linked.editAll {convention : Convention} (linked : graph.Linked convention child parent)
    (edits : List Edit) : (graph.editAll edits).2.Linked convention child parent := by
  refine linked.of_steps (graph.steps_editAll edits) fun remembered => ?_
  rwa [conventions_editAll] at remembered

/-- A link that succeeded is there. -/
theorem extends_of_extend (done : graph.extend child parent = .ok after) :
    Inheritance.Extends after.inheritances child parent := by
  obtain ⟨-, -, -, ⟨edge, rfl⟩ | ⟨-, -, -, rfl⟩⟩ := extend_eq_ok_iff.1 done
  · exact edge
  · exact List.mem_append_right _ (List.mem_singleton_self _)

/-- A link among edits that all succeeded is there. -/
theorem extends_of_editAll {edits : List Edit} (member : .extend child parent ∈ edits)
    (done : graph.editAll edits = (.ok (), after)) :
    Inheritance.Extends after.inheritances child parent := by
  obtain ⟨earlier, later, rfl⟩ := List.append_of_mem member
  obtain ⟨middle, -, rest⟩ := editAll_append_eq_ok_iff.1 done
  obtain ⟨linked, first, last⟩ := editAll_cons_eq_ok_iff.1 rest
  have steps := linked.steps_editAll later
  rw [last] at steps
  exact steps.extends (extends_of_extend first)

end Graph

namespace Convention

/-- A convention and those that it builds upon. -/
def parts : Convention → List Convention
  | .plain name edits => [.plain name edits]
  | .upon base name edits => .upon base name edits :: base.parts

/-- The edits of a convention itself, without those of the one that it builds upon. -/
def edits : Convention → Graph → List Edit
  | .plain _ edits => edits
  | .upon _ _ edits => edits

/-- What comes before the own edits of a convention: applying the one that it builds upon. -/
def begun (graph : Graph) : Convention → Changed
  | .plain _ _ => (.ok (), graph)
  | .upon base _ _ => base.apply graph

/-- All that a convention does to a graph that remembers it already, its own edits being those for
a given graph. -/
def carriedOut (convention : Convention) (given graph : Graph) : Changed :=
  match convention.begun graph with
  | (.ok _, changed) => changed.editAll (convention.edits given)
  | failed => failed

/-- No part of a convention goes by the name of another convention. -/
def Respects (original convention : Convention) : Prop :=
  ∀ part ∈ convention.parts, part.name = original.name → part = original

variable {convention base original : Convention} {name : String} {edits : Graph → List Edit}

/-- A convention is one of its parts. -/
theorem mem_parts : convention ∈ convention.parts := by
  cases convention <;> exact List.mem_cons_self

/-- A convention is no larger than what builds upon it. -/
theorem sizeOf_le_of_mem_parts {part : Convention} (member : part ∈ convention.parts) :
    sizeOf part ≤ sizeOf convention := by
  induction convention with
  | plain name edits => exact Nat.le_of_eq (congrArg sizeOf (List.mem_singleton.1 member))
  | upon base name edits ih =>
    rcases List.mem_cons.1 member with rfl | below
    · exact Nat.le_refl _
    · have smaller := ih below
      rw [upon.sizeOf_spec]
      omega

/-- A convention does not build upon itself. -/
theorem not_mem_tail_parts : convention ∉ convention.parts.tail := by
  cases convention with
  | plain name edits => exact List.not_mem_nil
  | upon base name edits =>
    intro below
    have smaller := sizeOf_le_of_mem_parts below
    rw [upon.sizeOf_spec] at smaller
    omega

/-- A convention that was applied before does nothing. -/
theorem apply_of_mem (known : convention.name ∈ graph.conventions) :
    convention.apply graph = (.ok (), graph) := by
  have present : graph.conventions.contains convention.name = true :=
    List.contains_iff_mem.2 known
  cases convention <;> exact if_pos present

/-- A convention that is new to a graph is remembered, carried out and settled. -/
theorem exists_apply_eq (unknown : convention.name ∉ graph.conventions) :
    ∃ given, convention.apply graph =
      settle convention.name (convention.carriedOut given (remember convention.name graph)) := by
  have absent : ¬graph.conventions.contains convention.name = true :=
    mt List.contains_iff_mem.1 unknown
  cases convention with
  | plain name edits => exact ⟨graph, if_neg absent⟩
  | upon base name edits =>
    refine ⟨(base.apply (remember name graph)).2, (if_neg absent).trans ?_⟩
    dsimp only [carriedOut, begun, Convention.name, Convention.edits]
    rcases base.apply (remember name graph) with ⟨error | done, changed⟩ <;> rfl

/-- The own edits of a convention remember and forget nothing. -/
theorem conventions_carriedOut (given graph : Graph) :
    (convention.carriedOut given graph).2.conventions =
      (convention.begun graph).2.conventions := by
  unfold carriedOut
  split
  next changed began => rw [began, Graph.conventions_editAll]
  · rfl

/-- The own edits of a convention take steps. -/
theorem steps_carriedOut (given graph : Graph) :
    Graph.Steps (convention.begun graph).2 (convention.carriedOut given graph).2 := by
  unfold carriedOut
  split
  next changed began =>
    rw [began]
    exact changed.steps_editAll _
  · exact .refl

/-- Settling a convention that was remembered first keeps what else was remembered. -/
theorem exists_conventions_settle {added known : List String} {changed : Changed}
    (kept : changed.2.conventions = added ++ name :: known) :
    ∃ remaining, (settle name changed).2.conventions = remaining ++ known ∧
      ∀ other ∈ remaining, other = name ∨ other ∈ added := by
  obtain ⟨error | done, graph⟩ := changed
  · dsimp only [settle] at kept ⊢
    by_cases again : name ∈ added
    · refine ⟨added.erase name ++ [name], ?_, fun other member => ?_⟩
      · rw [kept, List.erase_append_left _ again, List.append_assoc, List.singleton_append]
      · rcases List.mem_append.1 member with left | right
        · exact .inr (List.mem_of_mem_erase left)
        · exact .inl (List.mem_singleton.1 right)
    · refine ⟨added, ?_, fun other member => .inr member⟩
      rw [kept, List.erase_append_right _ again, List.erase_cons_head]
  · refine ⟨added ++ [name], ?_, fun other member => ?_⟩
    · rw [List.append_assoc]
      exact kept
    · rcases List.mem_append.1 member with left | right
      · exact .inr left
      · exact .inl (List.mem_singleton.1 right)

/-- Applying a convention remembers nothing else than itself and what begins it, and forgets nothing
that was remembered before. -/
theorem exists_conventions_of_begun (convention : Convention) (graph : Graph)
    {added : List String}
    (begins : (convention.begun (remember convention.name graph)).2.conventions =
      added ++ convention.name :: graph.conventions) :
    ∃ remaining, (convention.apply graph).2.conventions = remaining ++ graph.conventions ∧
      ∀ other ∈ remaining, other = convention.name ∨ other ∈ added := by
  by_cases known : convention.name ∈ graph.conventions
  · exact ⟨[], by rw [apply_of_mem known, List.nil_append], nofun⟩
  · obtain ⟨given, applied⟩ := exists_apply_eq known
    rw [applied]
    exact exists_conventions_settle ((conventions_carriedOut given _).trans begins)

/-- Applying a convention remembers it and what it builds upon at most, the latest first, and
forgets nothing that was remembered before. -/
theorem exists_conventions_apply (convention : Convention) (graph : Graph) :
    ∃ added, (convention.apply graph).2.conventions = added ++ graph.conventions ∧
      ∀ name ∈ added, ∃ part ∈ convention.parts, part.name = name := by
  induction convention generalizing graph with
  | plain name edits =>
    have begins : ((plain name edits).begun (remember name graph)).2.conventions =
        [] ++ name :: graph.conventions := rfl
    obtain ⟨added, kept, members⟩ :=
      exists_conventions_of_begun (.plain name edits) graph begins
    refine ⟨added, kept, fun other member => ⟨_, List.mem_singleton_self _, ?_⟩⟩
    rcases members other member with rfl | none
    · rfl
    · cases none
  | upon base name edits ih =>
    obtain ⟨below, begins, parts⟩ := ih (remember name graph)
    obtain ⟨added, kept, members⟩ :=
      exists_conventions_of_begun (.upon base name edits) graph begins
    refine ⟨added, kept, fun other member => ?_⟩
    rcases members other member with rfl | below
    · exact ⟨_, List.mem_cons_self, rfl⟩
    · obtain ⟨part, among, named⟩ := parts other below
      exact ⟨part, List.mem_cons_of_mem _ among, named⟩

/-- What begins a convention remembers what it builds upon at most. -/
theorem exists_conventions_begun (convention : Convention) (graph : Graph) :
    ∃ added, (convention.begun graph).2.conventions = added ++ graph.conventions ∧
      ∀ name ∈ added, ∃ part ∈ convention.parts.tail, part.name = name := by
  cases convention with
  | plain name edits => exact ⟨[], rfl, nofun⟩
  | upon base name edits => exact base.exists_conventions_apply graph

/-- Settling succeeds where all was carried out. -/
theorem settle_eq_ok_iff {changed : Changed} :
    settle name changed = (.ok (), after) ↔ changed = (.ok (), after) := by
  obtain ⟨_ | _, graph⟩ := changed <;> simp [settle]

/-- Settling fails where something could not be carried out, and the convention is forgotten. -/
theorem settle_eq_error_iff {changed : Changed} {error : Error} :
    settle name changed = (.error error, after) ↔ ∃ left, changed = (.error error, left) ∧
      after = { left with conventions := left.conventions.erase name } := by
  obtain ⟨_ | _, graph⟩ := changed <;> simp [settle, @eq_comm _ after]

/-- Settling remembers nothing new. -/
theorem mem_conventions_of_settle {changed : Changed} {other : String}
    (remembered : other ∈ (settle name changed).2.conventions) :
    other ∈ changed.2.conventions := by
  obtain ⟨_ | _, graph⟩ := changed
  · exact List.mem_of_mem_erase remembered
  · exact remembered

/-- A convention is carried out when what begins it succeeds and then its own edits. -/
theorem carriedOut_eq_ok_iff {given : Graph} :
    convention.carriedOut given graph = (.ok (), after) ↔
      ∃ middle, convention.begun graph = (.ok (), middle) ∧
        middle.editAll (convention.edits given) = (.ok (), after) := by
  rw [carriedOut]
  rcases convention.begun graph with ⟨_ | _, middle⟩ <;> simp

/-- A plain convention that is new to a graph is its edits. -/
theorem apply_plain_eq_ok_iff {edits : Graph → List Edit} (absent : name ∉ graph.conventions) :
    (plain name edits).apply graph = (.ok (), after) ↔
      (remember name graph).editAll (edits graph) = (.ok (), after) := by
  rw [apply, if_neg (by simpa using absent), settle_eq_ok_iff]

/-- A convention upon another one that is new to a graph is that one and then its own edits. -/
theorem apply_upon_eq_ok_iff (absent : name ∉ graph.conventions) :
    (upon base name edits).apply graph = (.ok (), after) ↔
      ∃ middle, base.apply (remember name graph) = (.ok (), middle) ∧
        middle.editAll (edits middle) = (.ok (), after) := by
  rw [apply, if_neg (by simpa using absent), settle_eq_ok_iff]
  rcases base.apply (remember name graph) with ⟨_ | _, middle⟩ <;> simp

/-- A convention that succeeded is remembered. -/
theorem name_mem_of_apply_eq_ok (done : convention.apply graph = (.ok (), after)) :
    convention.name ∈ after.conventions := by
  by_cases known : convention.name ∈ graph.conventions
  · cases (apply_of_mem known).symm.trans done
    exact known
  · obtain ⟨given, applied⟩ := exists_apply_eq known
    have carried := settle_eq_ok_iff.1 (applied.symm.trans done)
    obtain ⟨added, kept, -⟩ :=
      exists_conventions_begun convention (remember convention.name graph)
    have left := (conventions_carriedOut given _).trans kept
    rw [carried] at left
    change after.conventions = added ++ convention.name :: graph.conventions at left
    rw [left]
    exact List.mem_append_right _ List.mem_cons_self

/-- A convention that failed is forgotten. -/
theorem name_not_mem_of_apply_eq_error {error : Error}
    (respectful : convention.Respects convention)
    (failed : convention.apply graph = (.error error, after)) :
    convention.name ∉ after.conventions := by
  by_cases known : convention.name ∈ graph.conventions
  · cases (apply_of_mem known).symm.trans failed
  · obtain ⟨given, applied⟩ := exists_apply_eq known
    obtain ⟨left, carried, rfl⟩ := settle_eq_error_iff.1 (applied.symm.trans failed)
    obtain ⟨added, kept, parts⟩ :=
      exists_conventions_begun convention (remember convention.name graph)
    have stays := (conventions_carriedOut given _).trans kept
    rw [carried] at stays
    change left.conventions = added ++ convention.name :: graph.conventions at stays
    -- What it builds upon goes by other names.
    have apart : convention.name ∉ added := by
      intro member
      obtain ⟨part, below, named⟩ := parts _ member
      have whole := respectful part (List.mem_of_mem_tail below) named
      exact absurd (whole ▸ below) not_mem_tail_parts
    change convention.name ∉ left.conventions.erase convention.name
    rw [stays, List.erase_append_right _ apart, List.erase_cons_head, List.mem_append, not_or]
    exact ⟨apart, known⟩

/-- The links of a convention that is new to a graph are there if it succeeded. -/
theorem extends_of_apply_eq_ok (linking : ∀ given, .extend child parent ∈ convention.edits given)
    (unknown : convention.name ∉ graph.conventions)
    (done : convention.apply graph = (.ok (), after)) :
    Inheritance.Extends after.inheritances child parent := by
  obtain ⟨given, applied⟩ := exists_apply_eq unknown
  have carried := settle_eq_ok_iff.1 (applied.symm.trans done)
  obtain ⟨middle, -, edited⟩ := carriedOut_eq_ok_iff.1 carried
  exact Graph.extends_of_editAll (linking given) edited

section Respects

variable (linking : ∀ given, .extend child parent ∈ original.edits given)
  (respectful : original.Respects convention)
include linking respectful

/-- A convention that is remembered when another one was applied has left its links, if this is so
where it was remembered by what begins the other. -/
theorem extends_of_remembered_of_begun (unknown : original.name ∉ graph.conventions)
    (begins : convention.name ≠ original.name →
      original.name ∈ (convention.begun (remember convention.name graph)).2.conventions →
      Inheritance.Extends (convention.begun (remember convention.name graph)).2.inheritances
        child parent)
    (remembered : original.name ∈ (convention.apply graph).2.conventions) :
    Inheritance.Extends (convention.apply graph).2.inheritances child parent := by
  by_cases known : convention.name ∈ graph.conventions
  · rw [apply_of_mem known] at remembered
    exact absurd remembered unknown
  by_cases same : convention.name = original.name
  · -- It is the convention itself, which is forgotten if it fails.
    have itself := respectful convention mem_parts same
    subst itself
    rcases outcome : convention.apply graph with ⟨error | _, after⟩
    · rw [outcome] at remembered
      exact absurd remembered (name_not_mem_of_apply_eq_error respectful outcome)
    · exact extends_of_apply_eq_ok linking known outcome
  · -- It is one that the other builds upon; what follows keeps edges and remembers nothing.
    obtain ⟨given, applied⟩ := exists_apply_eq known
    rw [applied] at remembered ⊢
    have carried := mem_conventions_of_settle remembered
    rw [conventions_carriedOut] at carried
    have settled := (Graph.editings_settle convention.name
      (convention.carriedOut given (remember convention.name graph))).steps
    exact settled.extends ((steps_carriedOut given _).extends (begins same carried))

/-- A convention that is remembered from now on was carried out, unless another one goes by its
name: its links are there. -/
theorem extends_of_remembered (unknown : original.name ∉ graph.conventions)
    (remembered : original.name ∈ (convention.apply graph).2.conventions) :
    Inheritance.Extends (convention.apply graph).2.inheritances child parent := by
  induction convention generalizing graph with
  | plain name edits =>
    refine extends_of_remembered_of_begun linking respectful unknown
      (fun apart begun => ?_) remembered
    rcases List.mem_cons.1 begun with same | before
    · exact absurd same.symm apart
    · exact absurd before unknown
  | upon base name edits ih =>
    refine extends_of_remembered_of_begun linking respectful unknown
      (fun apart begun => ih (fun part below => ?_) (fun member => ?_) begun) remembered
    · exact respectful part (List.mem_cons_of_mem _ below)
    · rcases List.mem_cons.1 member with same | before
      · exact apart same.symm
      · exact unknown before

/-- Applying a convention keeps the links of another one where they belong. -/
theorem linked_apply (linked : graph.Linked original child parent) :
    (convention.apply graph).2.Linked original child parent := by
  intro remembered
  by_cases known : original.name ∈ graph.conventions
  · exact (Graph.editings_convention graph convention).steps.extends (linked known)
  · exact extends_of_remembered linking respectful known remembered

end Respects

/-- A convention that succeeded has left its links, whether it was remembered or carried out. -/
theorem extends_of_linked (linked : graph.Linked convention child parent)
    (linking : ∀ given, .extend child parent ∈ convention.edits given)
    (done : convention.apply graph = (.ok (), after)) :
    Inheritance.Extends after.inheritances child parent := by
  by_cases known : convention.name ∈ graph.conventions
  · cases (apply_of_mem known).symm.trans done
    exact linked known
  · exact Convention.extends_of_apply_eq_ok linking known done

section Order

/-- Edits that do not depend on what conventions a graph remembers. -/
def Blind (edits : Graph → List Edit) : Prop :=
  ∀ (graph : Graph) (conventions : List String), edits { graph with conventions } = edits graph

variable {first : String} {before : Graph → List Edit}

/-- A plain convention can be carried out whatever else is remembered, and comes to the same graph
but for that. -/
theorem apply_plain_of_remember (blind : Blind before) (apart : first ≠ name)
    (unknown : first ∉ graph.conventions)
    (done : (plain first before).apply (remember name graph) = (.ok (), after)) :
    ∃ changed : Graph,
      (plain first before).apply graph =
        (.ok (), { changed with conventions := first :: graph.conventions }) ∧
      after = { changed with conventions := first :: name :: graph.conventions } := by
  have absent : first ∉ (remember name graph).conventions :=
    List.not_mem_cons_of_ne_of_not_mem apart unknown
  have carried : Graph.editAll { graph with conventions := first :: name :: graph.conventions }
      (before (remember name graph)) = (.ok (), after) := (apply_plain_eq_ok_iff absent).1 done
  obtain ⟨changed, edited, rfl⟩ := Graph.editAll_note_eq_iff.1 carried
  rw [remember, blind] at edited
  exact ⟨changed, (apply_plain_eq_ok_iff unknown).2
    (Graph.editAll_note_eq_iff.2 ⟨changed, edited, rfl⟩), rfl⟩

/-- Where a convention can be carried out that is built upon a plain one, the plain one can be
applied before. This comes to the same graph, but for the order in which both are remembered. -/
theorem apply_upon_of_apply_plain (blind : Blind edits) (blindBefore : Blind before)
    (apart : first ≠ name) (unknown : name ∉ graph.conventions)
    (done : (upon (plain first before) name edits).apply graph = (.ok (), after)) :
    ∃ middle last, (plain first before).apply graph = (.ok (), middle) ∧
      (upon (plain first before) name edits).apply middle = (.ok (), last) ∧
      last.conventions.Perm after.conventions ∧
      last = { after with conventions := last.conventions } := by
  by_cases known : first ∈ graph.conventions
  · exact ⟨graph, after, apply_of_mem known, done, .refl _, rfl⟩
  -- What the edits of both make of the graph, whatever conventions it remembers.
  obtain ⟨begun, begins, edited⟩ := (apply_upon_eq_ok_iff unknown).1 done
  obtain ⟨changed, firstApplied, rfl⟩ := apply_plain_of_remember blindBefore apart known begins
  obtain ⟨left, thenEdited, rfl⟩ := Graph.editAll_note_eq_iff.1 edited
  rw [blind] at thenEdited
  let middle : Graph := { changed with conventions := first :: graph.conventions }
  have new : name ∉ middle.conventions :=
    List.not_mem_cons_of_ne_of_not_mem apart.symm unknown
  have there : first ∈ (remember name middle).conventions :=
    List.mem_cons_of_mem _ List.mem_cons_self
  have again : Graph.editAll { changed with conventions := name :: first :: graph.conventions }
      (edits (remember name middle)) =
        (.ok (), { left with conventions := name :: first :: graph.conventions }) :=
    Graph.editAll_note_eq_iff.2 ⟨left, (blind changed _).symm ▸ thenEdited, rfl⟩
  exact ⟨middle, _, firstApplied,
    (apply_upon_eq_ok_iff new).2 ⟨_, apply_of_mem there, again⟩, .swap _ _ _, rfl⟩

end Order

/-- What a convention builds upon is remembered when the convention succeeded. -/
theorem base_name_mem_of_apply_eq_ok (unknown : name ∉ graph.conventions)
    (done : (upon base name edits).apply graph = (.ok (), after)) :
    base.name ∈ after.conventions := by
  obtain ⟨middle, begins, edited⟩ := (apply_upon_eq_ok_iff unknown).1 done
  rw [Graph.conventions_of_editAll edited]
  exact name_mem_of_apply_eq_ok begins

/-- What a convention builds upon has left its links when the convention succeeded. -/
theorem base_extends_of_apply_eq_ok (linked : graph.Linked base child parent)
    (linking : ∀ given, .extend child parent ∈ base.edits given) (apart : base.name ≠ name)
    (unknown : name ∉ graph.conventions)
    (done : (upon base name edits).apply graph = (.ok (), after)) :
    Inheritance.Extends after.inheritances child parent := by
  obtain ⟨middle, begins, edited⟩ := (apply_upon_eq_ok_iff unknown).1 done
  have begun : (remember name graph).Linked base child parent := fun remembered =>
    linked ((List.mem_cons.1 remembered).resolve_left apart)
  have steps := middle.steps_editAll (edits middle)
  rw [edited] at steps
  exact steps.extends (extends_of_linked begun linking begins)

section Links

variable (given : Graph)

/-- A program runs with what it is compiled against. -/
theorem extend_mem_edits_java : .extend runtime compile ∈ java.edits given := by
  simp [java, edits]

/-- A web application is compiled against what its container provides. -/
theorem extend_compile_mem_edits_war : .extend compile providedCompile ∈ war.edits given := by
  simp [war, edits]

/-- A web application runs with what its container provides. -/
theorem extend_mem_edits_war : .extend runtime providedRuntime ∈ war.edits given := by
  simp [war, edits]

end Links

end Convention

end BuildPath
