import BuildPath.Lazy.Source
import BuildPath.Proofs.Equality
import BuildPath.Proofs.Graph.Effective
import BuildPath.Proofs.Session.Reading
import Mathlib

/-!
# Effective views as ordered unions

An effective view is read off the ancestry of a configuration, in its order, and mentions everything
in it once. For dependencies the declarations along the ancestry are evaluated in turn; the first
that fails decides the error, and then nothing is observed but by declarations that read the graph
themselves.
-/

namespace BuildPath

open Relation

variable {Value : Type}

/-- A request that calls the graph. -/
def Request.CallsGraph : Request → Prop
  | .dependencies _ | .excludes _ => True
  | .run _ | .runs _ | .assigned _ | .files => False

namespace Session

variable {session before after : Session} {name : String}

/-- What does not call the graph leaves it as it was. -/
theorem graph_eq_of_asksOnly (depth : Nat) {computation : Computation Value}
    (outside : computation.AsksOnly fun asked => ¬asked.CallsGraph) (session : Session) :
    ((evaluateWithin depth computation).perform session).2.graph = session.graph := by
  have answered (asked : Request) (apart : ¬asked.CallsGraph) :
      Event.Alike (fun first second => second = first ∧ first.graph = session.graph)
        (answer (readDependenciesWithin depth) asked)
        (answer (readDependenciesWithin depth) asked) := by
    rintro first _ ⟨rfl, kept⟩
    refine ⟨rfl, rfl, ?_⟩
    cases asked with
    | dependencies other => exact absurd trivial apart
    | excludes other => exact absurd trivial apart
    | run source => exact kept
    | runs source => exact kept
    | assigned key => exact kept
    | files => exact kept
  exact (Computation.alike_runWith answered outside session session ⟨rfl, rfl⟩).2.2

variable {depth : Nat}

/-- Declarations that do not call the graph leave it as it was, evaluated in turn. -/
theorem InTurn.graph_eq {declared : List Declared} {yields : List (List Dependency)}
    (turns : InTurn depth before declared yields after)
    (outside : ∀ declaration ∈ declared,
      declaration.evaluate.AsksOnly fun asked => ¬asked.CallsGraph) :
    after.graph = before.graph := by
  induction turns with
  | nothing => rfl
  | @next before middle after declaration yielded declarations others first rest ih =>
    obtain ⟨here, later⟩ := List.forall_mem_cons.1 outside
    have kept := graph_eq_of_asksOnly depth here before
    rw [first] at kept
    exact (ih later).trans kept

/-- What is yielded is yielded by a declaration. -/
theorem InTurn.contains_flatten_iff {declared : List Declared} {yields : List (List Dependency)}
    (turns : InTurn depth before declared yields after) {dependency : Dependency} :
    yields.flatten.contains dependency = true ↔
      ∃ declaration yielded, (declaration, yielded) ∈ declared.zip yields ∧
        yielded.contains dependency = true := by
  induction turns with
  | nothing => simp
  | next first rest ih =>
    rw [List.flatten_cons, List.contains_append, Bool.or_eq_true, ih, List.zip_cons_cons]
    simp only [List.mem_cons, Prod.mk.injEq]
    constructor
    · rintro (here | ⟨declaration, yielded, later, mentioned⟩)
      · exact ⟨_, _, .inl ⟨rfl, rfl⟩, here⟩
      · exact ⟨declaration, yielded, .inr later, mentioned⟩
    · rintro ⟨declaration, yielded, ⟨rfl, rfl⟩ | later, mentioned⟩
      · exact .inl mentioned
      · exact .inr ⟨declaration, yielded, later, mentioned⟩

/-- Effective views of a known configuration are read off its ancestry. Artifacts and exclude rules
are the first mentions along it. Dependencies are read exactly when the declarations along it
evaluate in turn, and are then the first mentions of what these yield: none twice, and exactly those
that a declaration of the configuration or of one that it inherits from yields. Otherwise reading
fails as the first declaration that fails does, and leaves the graph as it was if no declaration
calls it. -/
theorem effective_views_of_ancestry (reachable : session.Reachable)
    (known : session.graph.contains name = true) :
    ∃ members, session.graph.Ancestry name members ∧
      (∃ found, (readArtifacts name).perform session = (.ok found, session.observing name) ∧
        Ordered.FirstMentions (members.flatMap Configuration.artifacts) found) ∧
      (∃ found, (readExcludes name).perform session = (.ok found, session.observing name) ∧
        Ordered.FirstMentions (members.flatMap Configuration.excludes) found) ∧
      ∃ depth, session.depth = depth + 1 ∧
        let declared := members.flatMap Configuration.declared
        (∀ found after, (readDependencies name).perform session = (.ok found, after) ↔
          ∃ yields middle, InTurn depth session declared yields middle ∧
            Ordered.FirstMentions yields.flatten found ∧ after = middle.observing name) ∧
        (∀ found yields middle, InTurn depth session declared yields middle →
          Ordered.FirstMentions yields.flatten found →
            Ordered.Distinct found ∧ ∀ dependency, found.contains dependency = true ↔
              ∃ configuration ∈ session.graph.configurations,
                ReflTransGen (Inheritance.Extends session.graph.inheritances) name
                  configuration.name ∧
                ∃ declaration ∈ configuration.declared, ∃ yielded,
                  (declaration, yielded) ∈ declared.zip yields ∧
                    yielded.contains dependency = true) ∧
        (∀ error after, (readDependencies name).perform session = (.error error, after) ↔
          ∃ earlier failing later yields middle, declared = earlier ++ failing :: later ∧
            InTurn depth session earlier yields middle ∧
            (evaluateWithin depth failing.evaluate).perform middle = (.error error, after)) ∧
        ((∀ declaration ∈ declared,
            declaration.evaluate.AsksOnly fun asked => ¬asked.CallsGraph) →
          ∀ error after, (readDependencies name).perform session = (.error error, after) →
            after.graph = session.graph) := by
  obtain ⟨members, lineage, ancestry⟩ :=
    (Graph.wellFormed_of_reachable reachable).exists_lineage known
  obtain ⟨depth, deep⟩ := exists_depth_eq_succ known
  have reads : (readDependencies name).perform session =
      (readDependenciesWithin (depth + 1) name).perform session :=
    perform_readDependencies name deep
  have collected : session.graph.collect name Configuration.declared =
      .ok (members.flatMap Configuration.declared) := Graph.collect_of_lineage lineage
  have failures : ∀ error after, (readDependencies name).perform session = (.error error, after) ↔
      ∃ earlier failing later yields middle,
        members.flatMap Configuration.declared = earlier ++ failing :: later ∧
        InTurn depth session earlier yields middle ∧
        (evaluateWithin depth failing.evaluate).perform middle = (.error error, after) := by
    intro error after
    rw [reads, perform_readDependenciesWithin_eq_error collected, perform_evaluateAll_eq_error]
  refine ⟨members, ancestry, ?_, ?_, depth, deep, ?_, ?_, failures, ?_⟩
  · obtain ⟨found, read, mentions⟩ := Graph.effectiveArtifacts_of_lineage lineage
    refine ⟨found, ?_, mentions⟩
    rw [perform_readArtifacts, read]
  · obtain ⟨found, read, mentions⟩ := Graph.effectiveExcludes_of_lineage lineage
    refine ⟨found, ?_, mentions⟩
    rw [perform_readExcludes, read]
  · intro found after
    rw [reads, perform_readDependenciesWithin_eq_ok, collected]
    simp only [Except.ok.injEq, exists_and_left, exists_eq_left',
      Ordered.firstMentions_iff_distinct]
  · intro found yields middle turns mentions
    refine ⟨mentions.distinct, fun dependency => ?_⟩
    rw [mentions.contains_eq, turns.contains_flatten_iff]
    constructor
    · rintro ⟨declaration, yielded, paired, mentioned⟩
      obtain ⟨configuration, member, own⟩ := List.mem_flatMap.1 (List.of_mem_zip paired).1
      obtain ⟨present, path⟩ := (ancestry.mem_iff configuration).1 member
      exact ⟨configuration, present, path, declaration, own, yielded, paired, mentioned⟩
    · rintro ⟨configuration, -, -, declaration, -, yielded, paired, mentioned⟩
      exact ⟨declaration, yielded, paired, mentioned⟩
  · intro outside error after failed
    obtain ⟨earlier, failing, later, yields, middle, split, turns, failed⟩ :=
      (failures error after).1 failed
    rw [split] at outside
    have unchanged : middle.graph = session.graph := turns.graph_eq fun declaration member =>
      outside declaration (List.mem_append_left _ member)
    have kept := graph_eq_of_asksOnly depth
      (outside failing (List.mem_append_right _ List.mem_cons_self)) middle
    rw [failed] at kept
    exact kept.trans unchanged

section Witness

/-- A module. -/
def plugin : Dependency := .externalModule (.ofCoordinates none "plugin" none none none)

/-- Another module. -/
def engine : Dependency := .externalModule (.ofCoordinates none "engine" none none none)

/-- A third module. -/
def tracer : Dependency := .externalModule (.ofCoordinates none "tracer" none none none)

/-- A notation of a module that is only known when a variable is looked at. -/
def namedTool : LazyValue Notation :=
  .ofVariable 0 "tool" fun name =>
    .dependency (.externalModule (.ofCoordinates none name none none none))

/-- A session in which `app` inherits from `base` twice over, by way of `left` and `right`, the
latter of which looks at a variable. -/
def diamond : Session :=
  (start (.new {} .root) ⟨[], []⟩).run [
    .edit (.create "base"), .edit (.create "left"), .edit (.create "right"), .edit (.create "app"),
    .edit (.extend "left" "base"), .edit (.extend "right" "base"),
    .edit (.extend "app" "left"), .edit (.extend "app" "right"),
    .edit (.add "base" (.dependency engine) none),
    .edit (.add "left" (.bundle [.dependency plugin, .dependency engine]) none),
    .edit (.add "right" (.deferred namedTool) none), .setVariable "tool" "tracer"]

/-- What `app` depends on: the modules of `left`, the one of `base` once, and the one that the
variable names, whose source was run for it. -/
theorem effective_views_of_ancestry_diamond :
    diamond.Reachable ∧ diamond.graph.contains "app" = true ∧
      ∃ members, diamond.graph.Ancestry "app" members ∧
        ∃ depth yields middle, InTurn depth diamond (members.flatMap Configuration.declared)
            yields middle ∧
          Ordered.FirstMentions yields.flatten [plugin, engine, tracer] ∧
          (readDependencies "app").perform diamond =
            (.ok [plugin, engine, tracer], middle.observing "app") ∧
          diamond.runs = [] ∧ middle.runs = [0] := by
  have reachable : diamond.Reachable := ⟨_, _, _, _, _, rfl⟩
  have known : diamond.graph.contains "app" = true := by cbv
  have outcome : ((readDependencies "app").perform diamond).1 =
      .ok [plugin, engine, tracer] := by cbv
  have ran : ((readDependencies "app").perform diamond).2.runs = [0] := by cbv
  have read : (readDependencies "app").perform diamond =
      (.ok [plugin, engine, tracer], ((readDependencies "app").perform diamond).2) := by
    rw [← outcome]
  obtain ⟨members, ancestry, -, -, depth, -, succeeds, -⟩ :=
    effective_views_of_ancestry reachable known
  obtain ⟨yields, middle, turns, mentions, same⟩ := (succeeds _ _).1 read
  rw [same] at ran
  exact ⟨reachable, known, members, ancestry, depth, yields, middle, turns, mentions,
    read.trans (by rw [same]), by cbv, ran⟩

end Witness

end Session

end BuildPath
