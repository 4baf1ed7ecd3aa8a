import BuildPath.Lazy.Source
import BuildPath.Proofs.Graph.Collecting
import BuildPath.Proofs.Session.Parsing
import Mathlib

/-!
# What was collected and what is read

Dependencies are declared in calls of a collector, directly or lazily, with or without an action,
and read all at once. What is read is what parsing the notations of the calls gives, each dependency
after the action of its call and at its first mention (`Session.readDependencies_of_addAll`). That
an equal dependency is not declared twice makes no difference to it
(`Declared.Appended.distinct_eq`), nor does it whether the action comes before the evaluation or
after it (`Session.Constant.configured`).
-/

namespace BuildPath

/-- A dependency is accepted by an action when its kind is. -/
theorem Action.exists_applied_iff {action : Option Action} {dependency : Dependency} :
    (∃ changed, applied action dependency = .ok changed) ↔
      ∀ given ∈ action, given.expects.accepts dependency.kind = true := by
  cases action with
  | none => simp [applied]
  | some given => simpa [applied] using exists_apply_iff

namespace Declared

variable {yield : Declared → Outcome (List Dependency)}

/-- What declarations yield together, each dependency once. -/
def view (yield : Declared → Outcome (List Dependency)) (declared : List Declared) :
    Outcome (List Dependency) :=
  (fun lists => Ordered.distinct lists.flatten) <$> declared.mapM yield

/-- What a last declaration yields comes after what the others yield. -/
theorem view_concat (declared : List Declared) (last : Declared) :
    view yield (declared ++ [last]) =
      view yield declared >>= fun found =>
        (fun more => Ordered.distinct (found ++ more)) <$> yield last := by
  unfold view
  rw [List.mapM_append, List.mapM_cons, List.mapM_nil]
  cases declared.mapM yield with
  | error error => rfl
  | ok lists =>
    cases yield last with
    | error error => rfl
    | ok more =>
      have joined : (lists ++ [more]).flatten = lists.flatten ++ more := by simp
      change Except.ok (Ordered.distinct (lists ++ [more]).flatten) =
        .ok (Ordered.distinct (Ordered.distinct lists.flatten ++ more))
      rw [joined, Ordered.distinct_distinct_append]

/-- What several lists of declarations yield is what each of them does. -/
theorem view_flatten (givens : List (List Declared)) :
    view yield givens.flatten = (fun results => Ordered.distinct results.flatten) <$>
      givens.mapM fun given => List.flatten <$> given.mapM yield := by
  rw [view, Outcome.mapM_flatten, Outcome.mapM_map]
  cases givens.mapM (List.mapM yield) with
  | error error => rfl
  | ok lists => exact congrArg (Except.ok ∘ Ordered.distinct) List.flatten_flatten

/-- Leaving out what is declared already makes no difference to what declarations yield. -/
theorem Appended.view_eq {existing given kept : List Declared}
    (resolved : ∀ dependency, yield (.resolved dependency) = .ok [dependency])
    (appended : Appended existing given kept) :
    view yield kept = view yield (existing ++ given) := by
  induction appended with
  | nothing => rw [List.append_nil]
  | resolved prior new ih => rw [← List.append_assoc, view_concat, view_concat, ih]
  | deferred prior ih => rw [← List.append_assoc, view_concat, view_concat, ih]
  | @again given kept dependency present prior there same ih =>
    rw [← List.append_assoc, view_concat, ← ih, resolved]
    cases found : kept.mapM yield with
    | error error => rw [view, found]; rfl
    | ok lists =>
      rw [view, found]
      refine congrArg Except.ok ?_
      have mentions : Ordered.FirstMentions lists.flatten (Ordered.distinct lists.flatten) :=
        Ordered.firstMentions_iff_distinct.2 rfl
      have mentioned : (Ordered.distinct lists.flatten).contains dependency = true := by
        obtain ⟨list, listed, obtained⟩ := Outcome.exists_mem_of_mapM_eq_ok found _ there
        rw [resolved] at obtained
        cases obtained
        rw [mentions.contains_eq, List.contains_iff_exists_mem_beq]
        exact ⟨present, List.mem_flatten.2 ⟨_, listed, List.mem_singleton_self present⟩,
          BEq.symm same⟩
      change _ = Ordered.distinct (Ordered.distinct lists.flatten ++ [dependency])
      exact Ordered.firstMentions_iff_distinct.1 (.again mentions.distinct.firstMentions mentioned)

/-- What was appended is what is there already or is given. -/
theorem Appended.mem_or_mem {existing given kept : List Declared}
    (appended : Appended existing given kept) {declaration : Declared}
    (member : declaration ∈ kept) : declaration ∈ existing ∨ declaration ∈ given := by
  induction appended with
  | nothing => exact .inl member
  | resolved prior new ih | deferred prior ih =>
    rw [List.mem_append] at member ⊢
    rcases member with before | last
    · exact (ih before).imp_right .inl
    · exact .inr (.inr last)
  | again prior there same ih => exact (ih member).imp_right (List.mem_append_left _)

end Declared

/-- What is collected for a new configuration is what it was changed to hold. -/
theorem Graph.collect_modify_of_create {graph fresh : Graph} {name : String} {Item : Type}
    {change : Configuration → Configuration} (items : Configuration → List Item)
    (formed : graph.WellFormed) (created : graph.create name = .ok fresh)
    (keeps : ∀ configuration, (change configuration).name = configuration.name) :
    (fresh.modify name change).collect name items = .ok (items (change (.named name))) := by
  obtain ⟨absent, -, rfl⟩ := create_eq_ok_iff.1 created
  have missing : graph.find? name = none :=
    Option.not_isSome_iff_eq_none.1 (Bool.eq_false_iff.1 absent)
  have orphan : Inheritance.parents graph.inheritances name = [] := by
    refine List.eq_nil_iff_forall_not_mem.2 fun parent member => Bool.eq_false_iff.1 absent ?_
    exact (formed.known _ (Inheritance.mem_parents.1 member)).1
  have found : (Graph.modify { graph with
      configurations := graph.configurations ++ [.named name] } name change).find? name =
        some (change (.named name)) := by
    refine (find?_map (fun configuration => ?_) name).trans ?_
    · split
      · exact keeps configuration
      · rfl
    · rw [find?_create, missing, if_pos (beq_self_eq_true name)]
      exact congrArg some (if_pos (beq_self_eq_true name))
  rw [collect_eq, found]
  change Except.ok (List.flatMap items (List.filterMap _
    (Inheritance.hierarchy graph.inheritances name))) = _
  rw [Inheritance.hierarchy_of_parents_eq_nil orphan, List.filterMap_cons_some found]
  simp

namespace Session

variable {session : Session}

/-- An action on a declaration that comes out alike is an action on what comes of it. -/
theorem Constant.configured {action : Option Action} {declaration changed : Declared}
    (constant : session.Constant declaration.evaluate)
    (done : declaration.configured action = .ok changed) :
    session.Constant changed.evaluate ∧
      session.outcome changed.evaluate =
        session.outcome declaration.evaluate >>= List.mapM (Action.applied action) := by
  cases declaration with
  | resolved dependency =>
    rw [Declared.configured_resolved, Outcome.map_eq_ok_iff] at done
    obtain ⟨result, accepted, rfl⟩ := done
    refine ⟨constant_pure session [result], ?_⟩
    change _ = [dependency].mapM (Action.applied action)
    rw [List.mapM_cons, accepted]
    rfl
  | deferred value =>
    rw [Declared.configured_deferred] at done
    cases done
    have known : ∀ found, session.outcome value.evaluate = .ok found →
        session.Constant (.ofOutcome (found.mapM (Action.applied action))) :=
      fun found _ => constant_ofOutcome session _
    refine ⟨constant.bind known, (constant.outcome_bind known).trans ?_⟩
    simp only [outcome_ofOutcome]

/-- What comes of a call of a collector: the action of the call on what parsing its notation gives.
-/
theorem Fixed.outcome_call {call : Call} {project : DeclaringProject} {given : List Declared}
    (fixed : session.Fixed call.written)
    (done : call.written.declare project >>= List.mapM (Declared.configured call.action) =
      .ok given) :
    (∀ declaration ∈ given, session.Constant declaration.evaluate) ∧
      ∀ result, List.flatten <$> given.mapM (fun declaration =>
          session.outcome declaration.evaluate) = .ok result ↔
        ∃ parsed, session.outcome (call.written.parseAll project) = .ok parsed ∧
          parsed.mapM (Action.applied call.action) = .ok result := by
  obtain ⟨plain, declared, configured⟩ := Outcome.bind_eq_ok_iff.1 done
  have constant := fixed.constant_of_declare declared
  have parsed : session.outcome (call.written.parseAll project) = List.flatten <$>
      plain.mapM fun declaration => session.outcome declaration.evaluate := by
    rw [Notation.parseAll, declared]
    exact outcome_evaluateAll constant
  have each : given.mapM (fun declaration => session.outcome declaration.evaluate) =
      plain.mapM fun declaration => session.outcome declaration.evaluate >>=
        List.mapM (Action.applied call.action) := by
    refine (Outcome.mapM_eq_mapM_of_forall₂ ?_).symm
    have paired := (List.forall₂_and_left _ _).2
      ⟨constant, Outcome.mapM_eq_ok_iff_forall₂.1 configured⟩
    exact paired.imp fun declaration changed both => (both.1.configured both.2).2.symm
  constructor
  · intro changed member
    obtain ⟨declaration, present, obtained⟩ :=
      Outcome.exists_of_mem_mapM_eq_ok configured changed member
    exact ((constant declaration present).configured obtained).1
  · intro result
    rw [each, parsed, Outcome.map_eq_ok_iff]
    simp only [Outcome.map_eq_ok_iff, ← Outcome.mapM_bind_mapM_eq_ok_iff, Outcome.bind_eq_ok_iff]
    constructor
    · rintro ⟨_, ⟨lists, found, accepted⟩, rfl⟩
      refine ⟨_, ⟨lists, found, rfl⟩, ?_⟩
      rw [Outcome.mapM_flatten, accepted]
      rfl
    · rintro ⟨_, ⟨lists, found, rfl⟩, accepted⟩
      rw [Outcome.mapM_flatten, Outcome.map_eq_ok_iff] at accepted
      obtain ⟨results, accepted, rfl⟩ := accepted
      exact ⟨results, ⟨lists, found, accepted⟩, rfl⟩

/-- What comes of reading a configuration whose declarations come out alike. -/
theorem outcome_readDependencies {name : String} {declared : List Declared}
    (collected : session.graph.collect name Configuration.declared = .ok declared)
    (each : ∀ declaration ∈ declared, session.Constant declaration.evaluate) :
    ((readDependencies name).perform session).1 =
      Declared.view (fun declaration => session.outcome declaration.evaluate) declared := by
  obtain ⟨depth, deep⟩ := exists_depth_eq_succ (Graph.contains_of_collect collected)
  have together := constant_evaluateAll each session .refl depth (.inr deep)
  rw [fst_perform_readDependencies collected deep, together, outcome_evaluateAll each,
    Declared.view, Functor.map_map]

section Calls

variable {before : Session} {name : String} {calls : List Call} {fresh after : Graph}

/-- After calls with notations that come out alike each time, what is read is what each of them
gave, evaluated on its own, at its first mention. -/
theorem exists_givens_of_addAll (reachable : before.Reachable)
    (created : before.graph.create name = .ok fresh)
    (called : fresh.addAll name calls = .ok after)
    (fixed : ∀ call ∈ calls, Fixed { before with graph := after } call.written) :
    let session : Session := { before with graph := after }
    ∃ givens : List (List Declared), List.Forall₂ (fun call given =>
        ∀ result, List.flatten <$> given.mapM (fun declaration =>
          session.outcome declaration.evaluate) = .ok result ↔
        ∃ parsed, session.outcome (call.written.parseAll after.project) = .ok parsed ∧
          parsed.mapM (Action.applied call.action) = .ok result) calls givens ∧
      ((readDependencies name).perform session).1 =
        (fun results => Ordered.distinct results.flatten) <$> givens.mapM fun given =>
          List.flatten <$> given.mapM fun declaration => session.outcome declaration.evaluate := by
  intro session
  obtain ⟨givens, given, same⟩ := Graph.exists_of_addAll called
  have project : after.project = fresh.project := by rw [same]; rfl
  have each := ((List.forall₂_and_left _ _).2 ⟨fixed, given⟩).imp fun call given both =>
    both.1.outcome_call both.2
  have constant : ∀ given ∈ givens, ∀ declaration ∈ given,
      session.Constant declaration.evaluate := by
    have turned : List.Forall₂ (fun given _ => (∀ declaration ∈ given,
        session.Constant declaration.evaluate) ∧ True) givens calls :=
      (each.imp fun call given both => ⟨both.1, trivial⟩).flip
    exact ((List.forall₂_and_left _ _).1 turned).1
  have collected := Graph.collect_modify_of_create Configuration.declared
    (Graph.wellFormed_of_reachable reachable) created
    (Configuration.Change.name_eq (.declareAll givens.flatten))
  rw [← same] at collected
  have appended := (Configuration.named name).appended_declareAll givens.flatten
  refine ⟨givens, each.imp fun call given both => ?_, ?_⟩
  · rw [project]
    exact both.2
  · rw [@outcome_readDependencies session _ _ collected, appended.view_eq fun _ => rfl]
    · exact Declared.view_flatten givens
    · intro declaration member
      rcases appended.mem_or_mem member with impossible | member
      · exact absurd impossible List.not_mem_nil
      · obtain ⟨given, listed, member⟩ := List.mem_flatten.1 member
        exact constant given listed declaration member

/-- After any calls of the collector of a new configuration, with notations that come out alike each
time, its effective dependencies are read exactly when parsing succeeds for the notation of each
call and the action of the call accepts all that it gives. They are then the first mentions of what
parsing gives, in the order of the calls, each dependency after the action of its call. -/
theorem readDependencies_of_addAll (reachable : before.Reachable)
    (created : before.graph.create name = .ok fresh)
    (called : fresh.addAll name calls = .ok after)
    (fixed : ∀ call ∈ calls, Fixed { before with graph := after } call.written) :
    let session : Session := { before with graph := after }
    let parsed (call : Call) := session.outcome (call.written.parseAll after.project)
    ((∃ found, ((readDependencies name).perform session).1 = .ok found) ↔
      ∀ call ∈ calls, ∃ dependencies, parsed call = .ok dependencies ∧
        ∀ dependency ∈ dependencies, ∀ action ∈ call.action,
          action.expects.accepts dependency.kind = true) ∧
    ∀ found, ((readDependencies name).perform session).1 = .ok found ↔
      ∃ results, List.Forall₂ (fun call result => ∃ dependencies,
          parsed call = .ok dependencies ∧
          dependencies.mapM (Action.applied call.action) = .ok result) calls results ∧
        Ordered.FirstMentions results.flatten found := by
  intro session parsed
  obtain ⟨givens, each, outcome⟩ := exists_givens_of_addAll reachable created called fixed
  have succeeds : ∀ found, ((readDependencies name).perform session).1 = .ok found ↔
      ∃ results, List.Forall₂ (fun call result => ∃ dependencies,
          parsed call = .ok dependencies ∧
          dependencies.mapM (Action.applied call.action) = .ok result) calls results ∧
        Ordered.FirstMentions results.flatten found := by
    intro found
    rw [outcome, Outcome.map_eq_ok_iff]
    refine exists_congr fun results => and_congr (Outcome.mapM_eq_ok_iff_of_forall₂ each) ?_
    rw [Ordered.firstMentions_iff_distinct, eq_comm]
  refine ⟨?_, succeeds⟩
  simp only [succeeds]
  constructor
  · rintro ⟨found, results, related, -⟩
    refine ((List.forall₂_and_left _ _).1 (related.imp fun call result here => ⟨?_, here⟩)).1
    obtain ⟨dependencies, parsed, changed⟩ := here
    refine ⟨dependencies, parsed, fun dependency member => ?_⟩
    exact Action.exists_applied_iff.1 (Outcome.exists_mapM_eq_ok_iff.1 ⟨result, changed⟩ _ member)
  · intro accepted
    have obtained : ∀ call ∈ calls, ∃ result,
        parsed call >>= List.mapM (Action.applied call.action) = .ok result := by
      intro call member
      obtain ⟨dependencies, parsed, accepts⟩ := accepted call member
      obtain ⟨result, changed⟩ := Outcome.exists_mapM_eq_ok_iff.2 fun dependency member =>
        Action.exists_applied_iff.2 (accepts dependency member)
      exact ⟨result, Outcome.bind_eq_ok_iff.2 ⟨dependencies, parsed, changed⟩⟩
    obtain ⟨results, related⟩ := Outcome.exists_mapM_eq_ok_iff.2 obtained
    have related := (Outcome.mapM_eq_ok_iff_forall₂.1 related).imp fun call result =>
      Outcome.bind_eq_ok_iff.1
    exact ⟨_, results, related, Ordered.firstMentions_iff_distinct.2 rfl⟩

end Calls

section Witness

/-- A session in which a variable names a module. -/
def naming : Session :=
  (start (.new {} .root) ⟨[], []⟩).run [.edit (.create "base"), .setVariable "engine" "turbine"]

/-- A lazy notation of the module that the variable names. -/
def engineSource : LazyValue Notation :=
  .ofVariable 0 "engine" fun name => .dependency (released none name)

/-- Calls that give two modules, one of them by the variable, and both again. -/
def upgradingCalls : List Call :=
  [⟨.bundle [.dependency (released none "plugin"), .bundle [.deferred engineSource]],
      some upgrading⟩,
    ⟨.dependency (released (some "2") "turbine"), none⟩,
    ⟨.dependency (released (some "2") "plugin"), none⟩]

/-- The graph with a new configuration. -/
def opened : Graph :=
  { naming.graph with configurations := [.named "base", .named "app"] }

/-- The session after the calls: of the two modules that were declared again, one was known. -/
def upgraded : Session :=
  { naming with graph := { naming.graph with
    configurations := [.named "base", { Configuration.named "app" with declared :=
      [.resolved (released (some "2") "plugin"),
        .deferred ⟨engineSource.label, fun reported =>
          Notation.parseProduced .root (engineSource.produce reported) >>= fun found =>
            Computation.concatMap (fun dependency => do
              return [← Computation.ofOutcome (upgrading.apply dependency)]) found⟩,
        .resolved (released (some "2") "turbine")] }] } }

/-- The variable names the same module wherever evaluation leads to. -/
theorem constant_engineSource : upgraded.Constant engineSource.evaluate ∧
    upgraded.outcome engineSource.evaluate = .ok [.dependency (released none "turbine")] := by
  have read : ∀ reached : Session, reached.assigned = upgraded.assigned → ∀ depth,
      ((evaluateWithin depth engineSource.evaluate).perform reached).1 =
        .ok [.dependency (released none "turbine")] := by
    rintro ⟨graph, tree, assigned, runs, classpaths, room⟩ ⟨⟩ depth
    rfl
  have comes : upgraded.outcome engineSource.evaluate =
      .ok [.dependency (released none "turbine")] := by
    rw [outcome, perform_evaluate _ rfl]
    exact read upgraded rfl _
  refine ⟨fun reached readings depth deep => ?_, comes⟩
  have kept : reached.assigned = upgraded.assigned :=
    Readings.unchanged (·.assigned) (fun _ _ => rfl) (fun _ _ => rfl) readings
  rw [read reached kept depth, comes]

/-- The notations of the calls come out alike each time. -/
theorem fixed_upgradingCalls : ∀ call ∈ upgradingCalls, upgraded.Fixed call.written := by
  have direct : ∀ dependency, upgraded.Fixed (.dependency dependency) := by
    intro dependency
    refine .intro (fun other leaf => ?_) (fun other leaf => ?_) <;>
      simp [Notation.leaves] at leaf
  have leaves : (Notation.bundle [.dependency (released none "plugin"),
      .bundle [.deferred engineSource]]).leaves =
        [.dependency (released none "plugin"), .deferred engineSource] := by
    simp [Notation.leaves, Notation.leavesEach]
  obtain ⟨constant, comes⟩ := constant_engineSource
  refine List.forall_mem_cons.2 ⟨?_, List.forall_mem_cons.2 ⟨direct _,
    List.forall_mem_cons.2 ⟨direct _, List.forall_mem_nil _⟩⟩⟩
  refine .intro (fun other leaf => ?_) (fun other leaf items yields item member => ?_)
  · rw [leaves] at leaf
    obtain ⟨⟩ | ⟨_, ⟨⟩ | ⟨_, ⟨⟩⟩⟩ := leaf
    exact constant
  · rw [leaves] at leaf
    obtain ⟨⟩ | ⟨_, ⟨⟩ | ⟨_, ⟨⟩⟩⟩ := leaf
    rw [comes] at yields
    cases yields
    rw [List.mem_singleton.1 member]
    exact direct _

/-- The two modules are read once each, of the version that was set. -/
theorem readDependencies_of_addAll_upgrading :
    naming.Reachable ∧ naming.graph.create "app" = .ok opened ∧
      opened.addAll "app" upgradingCalls = .ok upgraded.graph ∧
      (∀ call ∈ upgradingCalls, upgraded.Fixed call.written) ∧
      ((readDependencies "app").perform upgraded).1 =
        .ok [released (some "2") "plugin", released (some "2") "turbine"] := by
  have reachable : naming.Reachable := ⟨_, _, _, _, _, rfl⟩
  have created : naming.graph.create "app" = .ok opened := by cbv
  have called : opened.addAll "app" upgradingCalls = .ok upgraded.graph := by cbv
  have fixed : ∀ call ∈ upgradingCalls, upgraded.Fixed call.written := fixed_upgradingCalls
  have parsed : ∀ dependency, upgraded.outcome (Notation.parseAll .root (.dependency dependency)) =
      .ok [dependency] := fun _ => by rw [Notation.parseAll, Notation.declare]; rfl
  obtain ⟨-, succeeds⟩ := readDependencies_of_addAll reachable created called fixed
  refine ⟨reachable, created, called, fixed, (succeeds _).2
    ⟨[[released (some "2") "plugin", released (some "2") "turbine"],
      [released (some "2") "turbine"], [released (some "2") "plugin"]], ?_, ?_⟩⟩
  · refine .cons ⟨[released none "plugin", released none "turbine"], ?_, rfl⟩
      (.cons ⟨_, parsed _, rfl⟩ (.cons ⟨_, parsed _, rfl⟩ .nil))
    cbv
  · exact Ordered.firstMentions_iff_distinct.2 (by cbv)

end Witness

end Session

end BuildPath
