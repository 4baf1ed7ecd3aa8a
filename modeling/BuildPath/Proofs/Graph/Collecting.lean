import BuildPath.Proofs.Declaration.Leaves
import BuildPath.Proofs.Graph.WellFormed
import Mathlib

/-!
# Collecting dependencies

To declare a notation in a configuration is all or nothing. It is refused for what is wrong with the
notation, then for what is wrong with the configuration (`Graph.Refuses`), and a refusal leaves
everything as it was. Otherwise the configuration has more declarations than before, those of the
leaves in order but for dependencies that it had already (`Declared.Appended`), and nothing else is
different (`Session.add_all_or_nothing`).
-/

namespace BuildPath

/-- What a list of declarations becomes when others are declared after it. A dependency equal to one
that is declared already is dropped; what waits for its evaluation never is. -/
inductive Declared.Appended (existing : List Declared) : List Declared → List Declared → Prop
  | nothing : Appended existing [] existing
  | resolved {given kept : List Declared} {dependency : Dependency}
      (prior : Appended existing given kept)
      (new : ∀ present, .resolved present ∈ kept → (present == dependency) = false) :
      Appended existing (given ++ [.resolved dependency]) (kept ++ [.resolved dependency])
  | again {given kept : List Declared} {dependency present : Dependency}
      (prior : Appended existing given kept) (there : .resolved present ∈ kept)
      (same : (present == dependency) = true) :
      Appended existing (given ++ [.resolved dependency]) kept
  | deferred {given kept : List Declared} {value : LazyValue Dependency}
      (prior : Appended existing given kept) :
      Appended existing (given ++ [.deferred value]) (kept ++ [.deferred value])

/-- A dependency is declared when a declaration that waits for nothing is equal to it. -/
theorem Declared.any_isResolvedAs_iff {declared : List Declared} {dependency : Dependency} :
    declared.any (·.isResolvedAs dependency) = true ↔
      ∃ present, .resolved present ∈ declared ∧ (present == dependency) = true := by
  rw [List.any_eq_true]
  constructor
  · rintro ⟨declaration, member, same⟩
    cases declaration with
    | resolved present => exact ⟨present, member, same⟩
    | deferred value => contradiction
  · rintro ⟨present, member, same⟩
    exact ⟨.resolved present, member, same⟩

/-- The last one of some declarations is declared after the others. -/
theorem Configuration.declareAll_concat (configuration : Configuration) (given : List Declared)
    (last : Declared) :
    configuration.declareAll (given ++ [last]) = (configuration.declareAll given).declare last :=
  List.foldl_append

/-- Declarations are appended to those that are there. -/
theorem Configuration.appended_declareAll (configuration : Configuration)
    (given : List Declared) :
    Declared.Appended configuration.declared given (configuration.declareAll given).declared := by
  induction given using List.reverseRecOn with
  | nil => exact .nothing
  | append_singleton given last ih =>
    rw [declareAll_concat]
    cases last with
    | deferred value => exact .deferred ih
    | resolved dependency =>
      rw [declare]
      split
      next present =>
        obtain ⟨existing, there, same⟩ := Declared.any_isResolvedAs_iff.1 present
        exact .again ih there same
      next absent =>
        refine .resolved ih fun present there => Bool.eq_false_iff.2 fun same => ?_
        exact absent (Declared.any_isResolvedAs_iff.2 ⟨present, there, same⟩)

/-- What declarations become when others are appended is what declaring these makes of them. -/
theorem Declared.Appended.eq_declareAll {configuration : Configuration}
    {given kept : List Declared} (appended : Appended configuration.declared given kept) :
    kept = (configuration.declareAll given).declared := by
  induction appended with
  | nothing => rfl
  | @resolved given kept dependency _ new ih =>
    have absent : ¬kept.any (·.isResolvedAs dependency) = true := by
      rw [any_isResolvedAs_iff]
      rintro ⟨present, there, same⟩
      exact absurd same (Bool.eq_false_iff.1 (new present there))
    rw [ih] at absent ⊢
    rw [Configuration.declareAll_concat, Configuration.declare, if_neg absent]
  | @again given kept dependency present _ there same ih =>
    have known : kept.any (·.isResolvedAs dependency) = true :=
      any_isResolvedAs_iff.2 ⟨present, there, same⟩
    rw [ih] at known ⊢
    rw [Configuration.declareAll_concat, Configuration.declare, if_pos known]
  | deferred _ ih => rw [ih, Configuration.declareAll_concat, Configuration.declare]

/-- A call of a collector: what is declared, and the action on it if there is one. -/
structure Call where
  written : Notation
  action : Option Action

namespace Graph

/-- Makes the calls of the collector of a configuration one after the other, up to one that fails.
-/
def addAll (graph : Graph) (name : String) (calls : List Call) : Outcome Graph :=
  calls.foldlM (fun graph call => graph.add name call.written call.action) graph

/-- Why declaring a notation in a configuration fails. What is wrong with the notation or with the
action on it comes first, then that the configuration is unknown, and then that it takes no
changes. -/
inductive Refuses (graph : Graph) (name : String) (written : Notation) (action : Option Action) :
    Error → Prop
  | written {error : Error} (refused : written.Refused graph.project action error) :
      Refuses graph name written action error
  | unknown {given : List Declared}
      (recorded : List.Forall₂ (Notation.Recorded graph.project action) written.leaves given)
      (absent : graph.find? name = none) :
      Refuses graph name written action (.unknownConfiguration name)
  | closed {given : List Declared} {configuration : Configuration}
      (recorded : List.Forall₂ (Notation.Recorded graph.project action) written.leaves given)
      (found : graph.find? name = some configuration)
      (shut : graph.frozen = true ∨ configuration.observed = true) :
      Refuses graph name written action (.frozen name)

variable {graph after : Graph} {name : String} {written : Notation} {action : Option Action}
  {error : Error}

/-- A configuration takes no changes when the graph was frozen or its own view was read. -/
theorem isMutable_eq_false_iff {configuration : Configuration} :
    graph.isMutable configuration = false ↔
      graph.frozen = true ∨ configuration.observed = true := by
  rw [isMutable]
  cases graph.frozen <;> cases configuration.observed <;> simp

/-- To declare a notation is to understand it, with the action on it, and then to mutate the
configuration. -/
theorem add_eq (graph : Graph) (name : String) (written : Notation) (action : Option Action) :
    graph.add name written action =
      (written.declare graph.project >>= List.mapM (Declared.configured action)) >>=
        fun given => graph.mutate name (·.declareAll given) := by
  unfold add declarations
  cases action with
  | some given => rfl
  | none =>
    cases written.declare graph.project with
    | error error => rfl
    | ok declared =>
      have kept : declared.mapM (Declared.configured none) = .ok (declared.map id) :=
        List.mapM_pure
      change _ = declared.mapM (Declared.configured none) >>= _
      rw [kept, List.map_id]
      rfl

/-- To change the configuration of a name twice is to change it once. -/
theorem modify_modify {first : Configuration → Configuration}
    (keeps : ∀ configuration, (first configuration).name = configuration.name)
    (second : Configuration → Configuration) :
    (graph.modify name first).modify name second =
      graph.modify name fun configuration => second (first configuration) := by
  unfold modify
  rw [List.map_map]
  congr 2
  funext configuration
  rw [Function.comp_apply]
  split
  next same => rw [keeps, if_pos same]
  · rfl

/-- Calls that all succeed declare, one after the other, what each of them gives. -/
theorem exists_of_addAll {calls : List Call} (called : graph.addAll name calls = .ok after) :
    ∃ givens, List.Forall₂ (fun call given =>
        call.written.declare graph.project >>= List.mapM (Declared.configured call.action) =
          .ok given) calls givens ∧
      after = graph.modify name (·.declareAll givens.flatten) := by
  induction calls generalizing graph with
  | nil =>
    cases called
    refine ⟨[], .nil, ?_⟩
    simp [modify, Configuration.declareAll]
  | cons call calls ih =>
    obtain ⟨middle, added, rest⟩ := Outcome.bind_eq_ok_iff.1 (List.foldlM_cons.symm.trans called)
    rw [add_eq, Outcome.bind_eq_ok_iff] at added
    obtain ⟨given, here, changed⟩ := added
    obtain ⟨-, -, -, rfl⟩ := mutate_eq_ok_iff.1 changed
    obtain ⟨others, later, rfl⟩ := ih rest
    refine ⟨given :: others, .cons here later, ?_⟩
    rw [modify_modify (Configuration.Change.name_eq (.declareAll given))]
    simp only [Configuration.declareAll, List.flatten_cons, List.foldl_append]

/-- Declaring a notation succeeds when all of its leaves are recorded and the configuration takes
changes. -/
theorem add_eq_ok_iff : graph.add name written action = .ok after ↔
    ∃ given configuration,
      List.Forall₂ (Notation.Recorded graph.project action) written.leaves given ∧
      graph.find? name = some configuration ∧ graph.isMutable configuration = true ∧
      after = graph.modify name (·.declareAll given) := by
  rw [add_eq, Outcome.bind_eq_ok_iff]
  simp only [Notation.configured_eq_ok_iff, mutate_eq_ok_iff, exists_and_left]

/-- Declaring a notation fails exactly for the reasons that it can be refused. -/
theorem add_eq_error_iff : graph.add name written action = .error error ↔
    graph.Refuses name written action error := by
  rw [add_eq, Outcome.bind_eq_error_iff]
  simp only [Notation.configured_eq_error_iff, Notation.configured_eq_ok_iff, mutate_eq_error_iff]
  constructor
  · rintro (refused | ⟨given, recorded, ⟨absent, rfl⟩ | ⟨configuration, found, fixed, rfl⟩⟩)
    · exact .written refused
    · exact .unknown recorded absent
    · exact .closed recorded found (isMutable_eq_false_iff.1 fixed)
  · rintro (refused | ⟨recorded, absent⟩ | ⟨recorded, found, shut⟩)
    · exact .inl refused
    · exact .inr ⟨_, recorded, .inl ⟨absent, rfl⟩⟩
    · exact .inr ⟨_, recorded, .inr ⟨_, found, isMutable_eq_false_iff.2 shut, rfl⟩⟩

/-- Declaring a notation fails exactly when a direct leaf is malformed, the action does not accept
the dependency of one, or the configuration is unknown or takes no changes. -/
theorem exists_add_eq_error_iff : (∃ error, graph.add name written action = .error error) ↔
    (∃ leaf ∈ written.leaves, leaf.Direct ∧
      ∃ error, leaf.parse graph.project = .failed error) ∨
    (∃ leaf ∈ written.leaves, leaf.Direct ∧
      ∃ dependency, leaf.parse graph.project = .done dependency ∧
        ∃ given ∈ action, given.expects.accepts dependency.kind = false) ∨
    graph.find? name = none ∨
    ∃ configuration, graph.find? name = some configuration ∧
      (graph.frozen = true ∨ configuration.observed = true) := by
  constructor
  · rintro ⟨error, failed⟩
    cases add_eq_error_iff.1 failed with
    | written refused =>
      cases refused with
      | misread split before direct failed =>
        exact .inl ⟨_, by rw [split]; simp, direct, _, failed⟩
      | mismatch understood split before direct read chosen refused =>
        exact .inr (.inl ⟨_, by rw [split]; simp, direct, _, read, _, chosen, refused⟩)
    | unknown recorded absent => exact .inr (.inr (.inl absent))
    | closed recorded found shut => exact .inr (.inr (.inr ⟨_, found, shut⟩))
  · intro reason
    cases done : graph.add name written action with
    | error error => exact ⟨error, rfl⟩
    | ok after =>
      -- Where all of it was done, each of the reasons is contradicted.
      obtain ⟨given, configuration, recorded, found, changeable, -⟩ := add_eq_ok_iff.1 done
      have each : ∀ leaf ∈ written.leaves, leaf.Direct → ∃ dependency changed,
          leaf.parse graph.project = .done dependency ∧
            Action.Makes action dependency changed :=
        ((List.forall₂_and_left _ _).1 (recorded.imp fun _ _ here =>
          ⟨here.exists_of_direct, here⟩)).1
      rcases reason with ⟨leaf, member, direct, error, failed⟩ |
        ⟨leaf, member, direct, other, read, chosen, given, refused⟩ | absent |
        ⟨other, present, shut⟩
      · obtain ⟨dependency, changed, read, -⟩ := each leaf member direct
        rw [failed] at read
        contradiction
      · obtain ⟨dependency, changed, parsed, made⟩ := each leaf member direct
        rw [read] at parsed
        cases parsed
        have done := Action.applied_eq_ok_iff.2 made
        rw [Action.applied_eq_error_iff.2 ⟨chosen, given, refused, rfl⟩] at done
        contradiction
      · rw [absent] at found
        contradiction
      · rw [present] at found
        cases found
        rw [isMutable_eq_false_iff.2 shut] at changeable
        contradiction

/-- In a well-formed graph, to change the configuration of a name is to replace it. -/
theorem WellFormed.modify_eq (formed : graph.WellFormed) {configuration : Configuration}
    (found : graph.find? name = some configuration) (change : Configuration → Configuration) :
    graph.modify name change =
      { graph with
        configurations := graph.configurations.map fun other =>
          if other.name == name then change configuration else other } := by
  unfold modify
  congr 1
  refine List.map_congr_left fun other member => ?_
  split
  next same =>
    rw [formed.find?_eq_some_iff.2 ⟨member, eq_of_beq same⟩, Option.some.injEq] at found
    rw [found]
  · rfl

end Graph

namespace Session

/-- In every session that operations lead to, declaring a notation, with or without an action, fails
exactly when a direct leaf of it is malformed, the action does not accept the dependency of one, or
the configuration is unknown or takes no changes; the first of these that applies decides the error,
and the session stays as it was. Otherwise nothing changes but the declarations of the
configuration, to which those of the leaves are appended in order. -/
theorem add_all_or_nothing (settings : Settings) (project : DeclaringProject) (tree : FileTree)
    (room : Nat) (operations : List Operation) (name : String) (written : Notation)
    (action : Option Action) :
    let session := (start (.new settings project) tree room).run operations
    let graph := session.graph
    let call := (Operation.edit (.add name written action)).perform.perform session
    ((∃ error, call.1 = .error error) ↔
      (∃ leaf ∈ written.leaves, leaf.Direct ∧
        ∃ error, leaf.parse graph.project = .failed error) ∨
      (∃ leaf ∈ written.leaves, leaf.Direct ∧
        ∃ dependency, leaf.parse graph.project = .done dependency ∧
          ∃ given ∈ action, given.expects.accepts dependency.kind = false) ∨
      graph.find? name = none ∨
      ∃ configuration, graph.find? name = some configuration ∧
        (graph.frozen = true ∨ configuration.observed = true)) ∧
    (∀ error, call.1 = .error error ↔ graph.Refuses name written action error) ∧
    (∀ error, call.1 = .error error → call.2 = session) ∧
    (call.1 = .ok () → ∃ configuration given kept,
      graph.find? name = some configuration ∧
      List.Forall₂ (Notation.Recorded graph.project action) written.leaves given ∧
      Declared.Appended configuration.declared given kept ∧
      call.2 = { session with graph := { graph with
        configurations := graph.configurations.map fun other =>
          if other.name == name then { configuration with declared := kept } else other } }) := by
  intro session graph call
  have formed : graph.WellFormed :=
    Graph.wellFormed_of_reachable ⟨settings, project, tree, room, operations, rfl⟩
  have errors : ∀ error, call.1 = .error error ↔ graph.add name written action = .error error :=
    fun error => perform_edit_eq_error
  refine ⟨?_, fun error => ?_, fun error failed => ?_, fun done => ?_⟩
  · simp only [errors]
    exact Graph.exists_add_eq_error_iff
  · rw [errors]
    exact Graph.add_eq_error_iff
  · exact perform_edit_of_error ((errors error).1 failed)
  · cases applied : graph.add name written action with
    | error error =>
      rw [(errors error).2 applied] at done
      contradiction
    | ok after =>
      obtain ⟨given, configuration, recorded, found, changeable, same⟩ :=
        Graph.add_eq_ok_iff.1 applied
      refine ⟨configuration, given, _, found, recorded,
        configuration.appended_declareAll given, ?_⟩
      have left : call.2 = { session with graph := after } := by
        change ((Session.change (·.edit (.add name written action))).perform session).2 = _
        rw [perform_change]
        change { session with graph := (Graph.edit graph (.add name written action)).2 } = _
        rw [Graph.edit, Edit.apply, applied]
      rw [left, same, formed.modify_eq found, Configuration.declareAll_eq]

section Witness

/-- A module of a version. -/
def released (version : Option String) (name : String) : Dependency :=
  .externalModule (.ofCoordinates none name version none none)

/-- The action that sets the version of a module. -/
def upgrading : Action := .externalModule fun details => { details with version := some "2" }

/-- A session in which `app` declares an engine. -/
def equipped : Session :=
  (start (.new {} .root) ⟨[], []⟩).run
    [.edit (.create "app"), .edit (.add "app" (.dependency (released (some "2") "engine")) none)]

/-- A plugin, something that is not known yet, and the engine without a version. -/
def upgradable : Notation :=
  .bundle [.dependency (released none "plugin"),
    .bundle [.deferred ⟨"unknown", fun _ => .done []⟩, .dependency (released none "engine")]]

/-- With the action, the plugin is declared in the version that it sets, and what is not known once;
the engine is declared already in that version. -/
theorem add_all_or_nothing_upgrading :
    let call := (Operation.edit (.add "app" upgradable (some upgrading))).perform.perform equipped
    call.1 = .ok () ∧ ∃ waiting, (call.2.graph.find? "app").map Configuration.declared =
      some [.resolved (released (some "2") "engine"), .resolved (released (some "2") "plugin"),
        .deferred waiting] := by
  intro call
  have done : call.1 = .ok () := by cbv
  have leaves : upgradable.leaves = [.dependency (released none "plugin"),
      .deferred ⟨"unknown", fun _ => .done []⟩, .dependency (released none "engine")] := by
    simp [upgradable, Notation.leaves, Notation.leavesEach]
  have declares : ∀ name declaration, Notation.Recorded .root (some upgrading)
      (.dependency (released none name)) declaration →
        declaration = .resolved (released (some "2") name) := by
    intro name declaration recorded
    cases recorded with
    | direct direct read made =>
      rw [Notation.parse, Notation.parseAll, Notation.declare] at read
      cases read
      cases made
      rfl
  have configurations : equipped.graph.configurations = [{ Configuration.named "app" with
      declared := [.resolved (released (some "2") "engine")] }] := by cbv
  obtain ⟨-, -, -, succeeds⟩ := add_all_or_nothing {} .root ⟨[], []⟩ _ _ "app" upgradable
    (some upgrading)
  obtain ⟨configuration, given, kept, found, recorded, appended, left⟩ := succeeds done
  change equipped.graph.find? "app" = _ at found
  rw [Graph.find?, configurations] at found
  cases found
  obtain ⟨waiting, same⟩ : ∃ waiting, kept = [.resolved (released (some "2") "engine"),
      .resolved (released (some "2") "plugin"), .deferred waiting] := by
    rw [leaves] at recorded
    obtain _ | ⟨plugin, _ | ⟨unknown, _ | ⟨engine, ⟨⟩⟩⟩⟩ := recorded
    cases declares _ _ plugin
    cases declares _ _ engine
    cases unknown with
    | direct direct _ _ => exact direct.elim
    | lazy source => exact ⟨_, appended.eq_declareAll⟩
  have after : call.2.graph.configurations = equipped.graph.configurations.map _ :=
    congrArg (fun session => session.graph.configurations) left
  rw [configurations, same] at after
  refine ⟨done, waiting, ?_⟩
  rw [Graph.find?, after]
  rfl

end Witness

end Session

end BuildPath
