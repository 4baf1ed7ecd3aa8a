import BuildPath.Proofs.Graph.Linking
import BuildPath.Proofs.Session.Collecting
import BuildPath.Proofs.Session.Locality

/-!
# Links in any order

Several links between known configurations are made one after the other, each tested against those
that are there when its turn comes. Whether all of them succeed is a question of whether they close
a cycle together, and so it does not depend on their order; neither does the set of edges that is
there in the end (`Session.links_in_any_order`). Every view then contains the same, in an order that
may differ, for a hierarchy is what edges lead to. Of dependencies this holds where what a
declaration yields does not depend on which others were evaluated before it
(`Session.Undisturbed`); this is so for all declarations that ask neither the graph nor how often
something was run (`Session.undisturbed_of_unvarying`). Where it is not, or where equal dependencies
are written differently, the order of links can be seen (`Session.links_order_matters`).
-/

namespace BuildPath

namespace Outcome

variable {Item : Type} [BEq Item]

/-- Outcomes that are lists of equal items, in whatever order and however often, or both errors. -/
def SameItems : Outcome (List Item) → Outcome (List Item) → Prop
  | .ok first, .ok second => ∀ item, first.contains item = second.contains item
  | .error _, .error _ => True
  | _, _ => False

variable {first second : List Item}

/-- A list has the same items in any order. -/
theorem sameItems_of_perm (perm : first.Perm second) : SameItems (.ok first) (.ok second) := by
  intro item
  rw [Bool.eq_iff_iff, List.contains_iff_exists_mem_beq, List.contains_iff_exists_mem_beq]
  simp only [perm.mem_iff]

/-- A list has the same first mentions in any order. -/
theorem sameItems_distinct [EquivBEq Item] (perm : first.Perm second) :
    SameItems (.ok (Ordered.distinct first)) (.ok (Ordered.distinct second)) := by
  intro item
  rw [(Ordered.firstMentions_iff_distinct.2 rfl).contains_eq,
    (Ordered.firstMentions_iff_distinct.2 rfl).contains_eq]
  exact sameItems_of_perm perm item

end Outcome

/-- A request whose answer evaluation leaves alone, whatever else is evaluated. -/
def Request.Unvarying : Request → Prop
  | .run _ | .assigned _ | .files => True
  | .runs _ | .dependencies _ | .excludes _ => False

namespace Declared

/-- Declarations yield the same in any order, if what each of them yields is the same. -/
theorem sameItems_view {first second : List Declared} (yield : Declared → Outcome (List Dependency))
    (perm : first.Perm second) : Outcome.SameItems (view yield first) (view yield second) := by
  unfold view
  cases here : first.mapM yield with
  | ok lists =>
    obtain ⟨others, there, same⟩ := Outcome.exists_mapM_eq_ok_of_perm perm here
    rw [there]
    exact Outcome.sameItems_distinct same.flatten
  | error error =>
    cases there : second.mapM yield with
    | ok others =>
      obtain ⟨lists, found, -⟩ := Outcome.exists_mapM_eq_ok_of_perm perm.symm there
      cases here.symm.trans found
    | error other => trivial

end Declared

namespace Inheritance

variable {first second : List Inheritance}

/-- The same edges in another order lead to the same names in another order. -/
theorem hierarchy_perm (same : ∀ edge, edge ∈ first ↔ edge ∈ second) (name : String) :
    (hierarchy first name).Perm (hierarchy second name) := by
  have edges : Extends first = Extends second := by
    funext child parent
    exact propext (same ⟨child, parent⟩)
  refine (List.perm_ext_iff_of_nodup (nodup_hierarchy name) (nodup_hierarchy name)).2 ?_
  intro other
  rw [mem_hierarchy_iff, mem_hierarchy_iff, edges]

/-- Edges that are inserted one after the other are there besides those that were. -/
theorem mem_foldl_insert {edge : Inheritance} : edge ∈ second.foldl Ordered.insert first ↔
    edge ∈ first ∨ edge ∈ second := by
  induction second generalizing first with
  | nil => simp
  | cons link links ih => rw [List.foldl_cons, ih, Ordered.mem_insert, List.mem_cons, or_assoc]

end Inheritance

namespace Graph

variable {graph : Graph} {name : String}

section Collect

variable {first second : List Inheritance} (same : ∀ edge, edge ∈ first ↔ edge ∈ second)
  (known : graph.contains name = true)
include same known

/-- With the same edges in another order, a hierarchy has the same names. -/
theorem sameItems_hierarchy :
    Outcome.SameItems (hierarchy { graph with inheritances := first } name)
      (hierarchy { graph with inheritances := second } name) := by
  have reached (links : List Inheritance) :
      hierarchy { graph with inheritances := links } name =
        .ok (Inheritance.hierarchy links name) := hierarchy_of_contains known
  rw [reached, reached]
  exact Outcome.sameItems_of_perm (Inheritance.hierarchy_perm same name)

/-- With the same edges in another order, the same is collected in another order. -/
theorem exists_collect_perm {Item : Type} (items : Configuration → List Item) :
    ∃ one other, collect { graph with inheritances := first } name items = .ok one ∧
      collect { graph with inheritances := second } name items = .ok other ∧ one.Perm other := by
  obtain ⟨configuration, found⟩ := Option.isSome_iff_exists.1 known
  have collected (links : List Inheritance) :
      collect { graph with inheritances := links } name items =
        .ok (((Inheritance.hierarchy links name).filterMap graph.find?).flatMap items) := by
    have there : find? { graph with inheritances := links } name = some configuration := found
    rw [collect_eq, there]
    rfl
  refine ⟨_, _, collected first, collected second, List.Perm.flatMap_right items ?_⟩
  exact (Inheritance.hierarchy_perm same name).filterMap graph.find?

/-- With the same edges in another order, what is collected has the same first mentions. -/
theorem sameItems_collect {Item : Type} [BEq Item] [EquivBEq Item]
    (items : Configuration → List Item) :
    Outcome.SameItems
      (Ordered.distinct <$> collect { graph with inheritances := first } name items)
      (Ordered.distinct <$> collect { graph with inheritances := second } name items) := by
  obtain ⟨one, other, here, there, perm⟩ := exists_collect_perm same known items
  rw [here, there]
  exact Outcome.sameItems_distinct perm

end Collect

/-- Between known configurations of which the child takes changes, linking fails for nothing but a
cycle. -/
theorem extend_eq_error_of_known {child parent : String} {error : Error}
    (children : ∃ configuration, graph.find? child = some configuration ∧
      graph.isMutable configuration = true) (parents : graph.contains parent = true)
    (failed : graph.extend child parent = .error error) :
    error = .cyclicInheritance child parent := by
  obtain ⟨inheriting, found, changeable⟩ := children
  obtain ⟨inherited, present⟩ := Option.isSome_iff_exists.1 parents
  simp only [extend_eq, found, present, changeable] at failed
  split at failed
  · contradiction
  · split at failed
    · exact (Except.error.inj failed).symm
    · contradiction

end Graph

namespace Session

/-- The session after calls that link configurations, whether they succeed or fail. -/
def linked (session : Session) (links : List Inheritance) : Session :=
  session.run (links.map fun link => .edit link.edit)

variable {session : Session} {links order : List Inheritance}

/-- Links that can all be made are there after the calls. -/
theorem linked_of_editAll {graph : Graph}
    (done : session.graph.editAll (links.map Inheritance.edit) = (.ok (), graph)) :
    session.linked links = { session with graph } := by
  induction links generalizing session with
  | nil =>
    cases done
    rfl
  | cons link links ih =>
    obtain ⟨changed, applied, done⟩ := Graph.editAll_cons_eq_ok_iff.1 done
    change linked ((Operation.edit link.edit).perform.perform session).2 links = _
    rw [perform_edit, applied]
    exact @ih { session with graph := changed } done

/-- Links between known configurations of which each child takes changes. -/
structure Linkable (graph : Graph) (links : List Inheritance) : Prop where
  children : ∀ link ∈ links, ∃ configuration, graph.find? link.child = some configuration ∧
    graph.isMutable configuration = true
  parents : ∀ link ∈ links, graph.contains link.parent = true

/-- In a graph that is not frozen, a child takes changes unless it was observed. -/
theorem linkable_of_unobserved {graph : Graph} (thawed : graph.frozen = false)
    (children : ∀ link ∈ links, ∃ configuration,
      graph.find? link.child = some configuration ∧ configuration.observed = false)
    (parents : ∀ link ∈ links, graph.contains link.parent = true) : Linkable graph links := by
  refine ⟨fun link member => ?_, parents⟩
  obtain ⟨configuration, found, unobserved⟩ := children link member
  exact ⟨configuration, found, by simp [Graph.isMutable, thawed, unobserved]⟩

/-- Links that can be made in one order can be made in any. -/
theorem Linkable.perm {graph : Graph} (linkable : Linkable graph links) (perm : order.Perm links) :
    Linkable graph order :=
  ⟨fun link member => linkable.children link (perm.mem_iff.1 member),
    fun link member => linkable.parents link (perm.mem_iff.1 member)⟩

section Linked

variable (formed : session.graph.WellFormed) (linkable : Linkable session.graph links)
include formed linkable

/-- Links are made in a row exactly if they close no cycle together. -/
theorem editAll_linkable_eq_ok_iff {after : Graph} :
    session.graph.editAll (links.map Inheritance.edit) = (.ok (), after) ↔
      Inheritance.Acyclic (session.graph.inheritances ++ links) ∧
        after = { session.graph with
          inheritances := links.foldl Ordered.insert session.graph.inheritances } := by
  have changeable : ∀ link ∈ links, ∀ configuration,
      session.graph.find? link.child = some configuration →
        session.graph.isMutable configuration = true := by
    intro link member configuration found
    obtain ⟨other, present, changeable⟩ := linkable.children link member
    rw [found] at present
    cases present
    exact changeable
  have known : ∀ link ∈ links, session.graph.contains link.child = true ∧
      session.graph.contains link.parent = true := by
    intro link member
    obtain ⟨configuration, found, -⟩ := linkable.children link member
    exact ⟨Option.isSome_iff_exists.2 ⟨configuration, found⟩, linkable.parents link member⟩
  rw [Graph.editAll_links_eq_ok_iff formed.acyclic changeable, and_iff_right known]

/-- Links that close no cycle together are all there after the calls. -/
theorem linked_eq (acyclic : Inheritance.Acyclic (session.graph.inheritances ++ links)) :
    session.linked links = { session with graph := { session.graph with
      inheritances := links.foldl Ordered.insert session.graph.inheritances } } :=
  linked_of_editAll ((editAll_linkable_eq_ok_iff formed linkable).2 ⟨acyclic, rfl⟩)

/-- Where links close no cycle together, each call succeeds after those before it. -/
theorem perform_link_of_acyclic
    (acyclic : Inheritance.Acyclic (session.graph.inheritances ++ links))
    {earlier later : List Inheritance} {link : Inheritance}
    (split : links = earlier ++ link :: later) :
    ((Operation.edit link.edit).perform.perform (session.linked earlier)).1 = .ok () := by
  have done := (editAll_linkable_eq_ok_iff formed linkable).2 ⟨acyclic, rfl⟩
  rw [split, List.map_append, Graph.editAll_append_eq_ok_iff] at done
  obtain ⟨middle, before, done⟩ := done
  obtain ⟨changed, applied, -⟩ := Graph.editAll_cons_eq_ok_iff.1 done
  have performed := perform_edit link.edit { session with graph := middle }
  simp only [applied] at performed
  rw [linked_of_editAll before, performed]

/-- Where links close a cycle together, one of the calls is refused for it. -/
theorem exists_cyclic_link (cyclic : ¬Inheritance.Acyclic (session.graph.inheritances ++ links)) :
    ∃ earlier link later, links = earlier ++ link :: later ∧
      ((Operation.edit link.edit).perform.perform (session.linked earlier)).1 =
        .error (.cyclicInheritance link.child link.parent) := by
  cases done : session.graph.editAll (links.map Inheritance.edit) with
  | mk outcome after =>
    cases outcome with
    | ok => exact absurd ((editAll_linkable_eq_ok_iff formed linkable).1 done).1 cyclic
    | error error =>
      obtain ⟨before, failing, rest, split, made, failed⟩ := Graph.editAll_eq_error_iff.1 done
      obtain ⟨earlier, others, rfl, rfl, same⟩ := List.map_eq_append_iff.1 split
      obtain ⟨link, later, rfl, rfl, -⟩ := List.map_eq_cons_iff.1 same
      refine ⟨earlier, link, later, rfl, ?_⟩
      have possible : Linkable session.graph earlier :=
        ⟨fun other member => linkable.children other (List.mem_append_left _ member),
          fun other member => linkable.parents other (List.mem_append_left _ member)⟩
      obtain ⟨-, rfl⟩ := (editAll_linkable_eq_ok_iff formed possible).1 made
      have here : link ∈ earlier ++ link :: later := List.mem_append_right _ List.mem_cons_self
      have refused := @Graph.extend_eq_error_of_known { session.graph with
          inheritances := earlier.foldl Ordered.insert session.graph.inheritances } _ _ _
        (linkable.children link here) (linkable.parents link here) failed
      rw [linked_of_editAll made, perform_edit_eq_error, failed, refused]

end Linked

/-- Two sessions give a configuration views of the same elements but for its dependencies. -/
structure SameContents (first second : Session) (name : String) : Prop where
  hierarchy : Outcome.SameItems (first.graph.hierarchy name) (second.graph.hierarchy name)
  artifacts : Outcome.SameItems ((readArtifacts name).perform first).1
    ((readArtifacts name).perform second).1
  excludes : Outcome.SameItems ((readExcludes name).perform first).1
    ((readExcludes name).perform second).1

/-- With the same edges in another order, views have the same elements. -/
theorem sameContents_of_edges {name : String} {first second : List Inheritance}
    (same : ∀ edge, edge ∈ first ↔ edge ∈ second) (known : session.graph.contains name = true) :
    SameContents { session with graph := { session.graph with inheritances := first } }
      { session with graph := { session.graph with inheritances := second } } name where
  hierarchy := Graph.sameItems_hierarchy same known
  artifacts := by
    have read (reached : Session) : ((readArtifacts name).perform reached).1 =
        Ordered.distinct <$> reached.graph.collect name Configuration.artifacts := by
      rw [perform_readArtifacts, Graph.effectiveArtifacts]
      cases reached.graph.collect name Configuration.artifacts <;> rfl
    rw [read, read]
    exact Graph.sameItems_collect same known Configuration.artifacts
  excludes := by
    have read (reached : Session) : ((readExcludes name).perform reached).1 =
        Ordered.distinct <$> reached.graph.collect name Configuration.excludes := by
      rw [perform_readExcludes, Graph.effectiveExcludes]
      cases reached.graph.collect name Configuration.excludes <;> rfl
    rw [read, read]
    exact Graph.sameItems_collect same known Configuration.excludes

/-- What each of some declarations yields after any others of them is what it yields on its own. -/
def Undisturbed (session : Session) (declared : List Declared) : Prop :=
  ∀ depth earlier declaration yields middle, (earlier ++ [declaration]).Subperm declared →
    InTurn depth session earlier yields middle →
      middle.outcome declaration.evaluate = session.outcome declaration.evaluate

section Undisturbed

variable {depth : Nat} {declared : List Declared}

/-- One more declaration is evaluated after those that were evaluated in turn. -/
theorem InTurn.concat {before middle after : Session} {declaration : Declared}
    {yields : List (List Dependency)} {yielded : List Dependency}
    (turns : InTurn depth before declared yields middle)
    (last : (evaluateWithin depth declaration.evaluate).perform middle = (.ok yielded, after)) :
    InTurn depth before (declared ++ [declaration]) (yields ++ [yielded]) after := by
  induction turns with
  | nothing => exact .next last .nothing
  | next first rest ih => exact .next first (ih last)

/-- What does not call the graph comes out alike however deep reads may be nested. -/
theorem fst_evaluateWithin_of_asksOnly {Value : Type} {computation : Computation Value}
    (outside : computation.AsksOnly fun asked => ¬asked.CallsGraph) (depth : Nat)
    (session : Session) :
    ((evaluateWithin depth computation).perform session).1 = session.outcome computation := by
  have same : SameSurroundings session session := ⟨rfl, rfl, rfl⟩
  rw [outcome, perform_evaluate computation rfl]
  exact (same.evaluateWithin _ depth outside).1

/-- What comes of undisturbed declarations is what comes of each on its own, after whichever of them
were evaluated before. -/
theorem Undisturbed.fst_evaluateAll {earlier rest : List Declared}
    {yields : List (List Dependency)} {middle : Session}
    (undisturbed : session.Undisturbed declared)
    (outside : ∀ declaration ∈ rest,
      declaration.evaluate.AsksOnly fun asked => ¬asked.CallsGraph)
    (among : (earlier ++ rest).Subperm declared)
    (turns : InTurn depth session earlier yields middle) :
    ((evaluateWithin depth (Notation.evaluateAll rest)).perform middle).1 =
      List.flatten <$> rest.mapM fun declaration => session.outcome declaration.evaluate := by
  induction rest generalizing earlier yields middle with
  | nil => rfl
  | cons declaration rest ih =>
    obtain ⟨here, later⟩ := List.forall_mem_cons.1 outside
    have first : ((evaluateWithin depth declaration.evaluate).perform middle).1 =
        session.outcome declaration.evaluate := by
      rw [fst_evaluateWithin_of_asksOnly here]
      refine undisturbed depth earlier declaration yields middle (.trans ?_ among) turns
      exact (List.Sublist.append_left (List.singleton_sublist.2 List.mem_cons_self) _).subperm
    rw [evaluateWithin_evaluateAll_cons, Event.perform_bind, List.mapM_cons, ← first]
    cases performed : (evaluateWithin depth declaration.evaluate).perform middle with
    | mk outcome after =>
      cases outcome with
      | error error => rfl
      | ok yielded =>
        have among : (earlier ++ [declaration] ++ rest).Subperm declared := by
          rwa [List.append_assoc]
        have onward := ih later among (turns.concat performed)
        dsimp only
        rw [Event.perform_bind]
        generalize (evaluateWithin depth (Notation.evaluateAll rest)).perform after = others
          at onward
        obtain ⟨outcome, last⟩ := others
        cases onward
        cases rest.mapM fun declaration => session.outcome declaration.evaluate <;> rfl

/-- What is read of a configuration is what its declarations yield on their own, where these are
undisturbed and the surroundings are the same. -/
theorem Undisturbed.fst_readDependencies {other : Session} {name : String} {found : List Declared}
    (undisturbed : session.Undisturbed declared)
    (outside : ∀ declaration ∈ found,
      declaration.evaluate.AsksOnly fun asked => ¬asked.CallsGraph)
    (same : SameSurroundings session other) (perm : found.Perm declared)
    (collected : other.graph.collect name Configuration.declared = .ok found) :
    ((readDependencies name).perform other).1 =
      Declared.view (fun declaration => session.outcome declaration.evaluate) found := by
  obtain ⟨depth, deep⟩ := exists_depth_eq_succ (Graph.contains_of_collect collected)
  have alone : (Notation.evaluateAll found).AsksOnly fun asked => ¬asked.CallsGraph :=
    Computation.asksOnly_concatMap outside
  have evaluated := @Undisturbed.fst_evaluateAll _ depth _ [] _ _ _ undisturbed outside perm.subperm
    .nothing
  rw [fst_perform_readDependencies collected deep, (same.evaluateWithin depth depth alone).1,
    evaluated, Declared.view, Functor.map_map]

/-- What asks only for answers that evaluation leaves alone comes out alike with the same files and
variables. -/
theorem outcome_eq_of_unvarying {Value : Type} {computation : Computation Value}
    {first second : Session} (tree : second.tree = first.tree)
    (assigned : second.assigned = first.assigned)
    (unvarying : computation.AsksOnly Request.Unvarying) :
    second.outcome computation = first.outcome computation := by
  have answered (asked : Request) (unvarying : asked.Unvarying) :
      Event.Alike (fun first second => second.tree = first.tree ∧ second.assigned = first.assigned)
        (answer readDependencies asked) (answer readDependencies asked) := by
    rintro first second ⟨tree, assigned⟩
    cases asked with
    | run source => exact ⟨rfl, tree, assigned⟩
    | assigned key =>
      exact ⟨congrArg (fun assigned : List (String × String) => Except.ok (assigned.lookup key))
        assigned, tree, assigned⟩
    | files => exact ⟨congrArg Except.ok tree, tree, assigned⟩
    | runs source => exact unvarying.elim
    | dependencies name => exact unvarying.elim
    | excludes name => exact unvarying.elim
  exact (Computation.alike_runWith answered unvarying first second ⟨tree, assigned⟩).1

/-- Declarations that ask neither the graph nor how often something was run are undisturbed. -/
theorem undisturbed_of_unvarying (unvarying : ∀ declaration ∈ declared,
      declaration.evaluate.AsksOnly Request.Unvarying) : session.Undisturbed declared := by
  intro depth earlier declaration yields middle among turns
  have readings := turns.readings
  have kept : middle.assigned = session.assigned :=
    Readings.unchanged (·.assigned) (fun _ _ => rfl) (fun _ _ => rfl) readings
  exact outcome_eq_of_unvarying readings.tree_eq kept
    (unvarying declaration (among.subset (by simp)))

end Undisturbed

/-- Links between known configurations of which no child was observed, in a graph that is not
frozen. If they close no cycle together with the edges that are there, then in any order each of
them is made when its turn comes, the edges that are there in the end are the same, and every view
of a configuration has the same elements: dependencies as well, where declarations do not call the
graph and what one of them yields does not depend on which others were evaluated before. If they do
close a cycle, then in any order one of them is refused for it. -/
theorem links_in_any_order (reachable : session.Reachable) (thawed : session.graph.frozen = false)
    (children : ∀ link ∈ links, ∃ configuration,
      session.graph.find? link.child = some configuration ∧ configuration.observed = false)
    (parents : ∀ link ∈ links, session.graph.contains link.parent = true) :
    (Inheritance.Acyclic (session.graph.inheritances ++ links) →
      ∀ order, order.Perm links →
        (∀ earlier link later, order = earlier ++ link :: later →
          ((Operation.edit link.edit).perform.perform (session.linked earlier)).1 = .ok ()) ∧
        (∀ edge, edge ∈ (session.linked order).graph.inheritances ↔
          edge ∈ session.graph.inheritances ∨ edge ∈ links) ∧
        ∀ other, other.Perm links → ∀ name, session.graph.contains name = true →
          SameContents (session.linked order) (session.linked other) name ∧
          ∀ declared,
            (session.linked order).graph.collect name Configuration.declared = .ok declared →
            (∀ declaration ∈ declared,
              declaration.evaluate.AsksOnly fun asked => ¬asked.CallsGraph) →
            session.Undisturbed declared →
            Outcome.SameItems ((readDependencies name).perform (session.linked order)).1
              ((readDependencies name).perform (session.linked other)).1) ∧
    (¬Inheritance.Acyclic (session.graph.inheritances ++ links) →
      ∀ order, order.Perm links → ∃ earlier link later, order = earlier ++ link :: later ∧
        ((Operation.edit link.edit).perform.perform (session.linked earlier)).1 =
          .error (.cyclicInheritance link.child link.parent)) := by
  have formed := Graph.wellFormed_of_reachable reachable
  have linkable := linkable_of_unobserved thawed children parents
  have together {order : List Inheritance} (perm : order.Perm links) :
      Inheritance.Acyclic (session.graph.inheritances ++ order) ↔
        Inheritance.Acyclic (session.graph.inheritances ++ links) :=
    ⟨fun acyclic => acyclic.mono (perm.symm.append_left _).subset,
      fun acyclic => acyclic.mono (perm.append_left _).subset⟩
  constructor
  · intro acyclic order perm
    have made {order : List Inheritance} (perm : order.Perm links) :=
      linked_eq formed (linkable.perm perm) ((together perm).2 acyclic)
    refine ⟨fun earlier link later split => ?_, fun edge => ?_, fun other same name known => ?_⟩
    · exact perform_link_of_acyclic formed (linkable.perm perm) ((together perm).2 acyclic) split
    · rw [made perm, Inheritance.mem_foldl_insert, perm.mem_iff]
    · have edges (edge : Inheritance) :
          edge ∈ order.foldl Ordered.insert session.graph.inheritances ↔
            edge ∈ other.foldl Ordered.insert session.graph.inheritances := by
        rw [Inheritance.mem_foldl_insert, Inheritance.mem_foldl_insert, perm.mem_iff, same.mem_iff]
      rw [made perm, made same]
      refine ⟨sameContents_of_edges edges known, fun declared collected outside undisturbed => ?_⟩
      obtain ⟨_, found, here, there, moved⟩ :=
        Graph.exists_collect_perm edges known Configuration.declared
      cases here.symm.trans collected
      have alike (inheritances : List Inheritance) : SameSurroundings session
          { session with graph := { session.graph with inheritances } } := ⟨rfl, rfl, rfl⟩
      rw [undisturbed.fst_readDependencies outside (alike _) (.refl _) collected,
        undisturbed.fst_readDependencies
          (fun declaration member => outside declaration (moved.mem_iff.2 member)) (alike _)
          moved.symm there]
      exact Declared.sameItems_view _ moved
  · intro cyclic order perm
    exact exists_cyclic_link formed (linkable.perm perm) (mt (together perm).1 cyclic)

section Witness

/-- Links that let `tools` inherit from `app` and then from `base` as well. -/
def toolLinks : List Inheritance := [⟨"tools", "app"⟩, ⟨"tools", "base"⟩]

/-- Links of configurations that were not observed close no cycle if they are made in a row. -/
theorem acyclic_of_editAll {after : Graph} (reachable : session.Reachable)
    (thawed : session.graph.frozen = false)
    (children : ∀ link ∈ links, ∃ configuration,
      session.graph.find? link.child = some configuration ∧ configuration.observed = false)
    (parents : ∀ link ∈ links, session.graph.contains link.parent = true)
    (made : session.graph.editAll (links.map Inheritance.edit) = (.ok (), after)) :
    Inheritance.Acyclic (session.graph.inheritances ++ links) :=
  ((editAll_linkable_eq_ok_iff (Graph.wellFormed_of_reachable reachable)
    (linkable_of_unobserved thawed children parents)).1 made).1

/-- What `tools` inherits then are declarations that ask for a variable and nothing else. -/
theorem exists_collect_tools : ∃ declared,
    (assembled.linked toolLinks).graph.collect "tools" Configuration.declared = .ok declared ∧
      ∀ allowed : Request → Prop, allowed (.assigned "fitting") →
        ∀ declaration ∈ declared, declaration.evaluate.AsksOnly allowed := by
  refine ⟨[.deferred ⟨"component", fun reported =>
    Notation.parseProduced .root (fitted.produce reported)⟩, .resolved (component "engine")],
    by cbv, fun allowed permitted => ?_⟩
  refine List.forall_mem_cons.2 ⟨⟨permitted, fun given => ?_⟩, List.forall_mem_singleton.2 trivial⟩
  change (Notation.parseProduced .root (.done [.dependency _])).AsksOnly _
  rw [Notation.parseProduced, Notation.parseEach, Notation.declare, Notation.parseEach]
  trivial

/-- The two links may be made in either order: the hierarchies differ, what is in them does not. -/
theorem links_in_any_order_tools :
    let swapped := toolLinks.reverse
    assembled.Reachable ∧ assembled.graph.frozen = false ∧
      (∀ link ∈ toolLinks, ∃ configuration,
        assembled.graph.find? link.child = some configuration ∧ configuration.observed = false) ∧
      (∀ link ∈ toolLinks, assembled.graph.contains link.parent = true) ∧
      Inheritance.Acyclic (assembled.graph.inheritances ++ toolLinks) ∧
      (assembled.linked toolLinks).graph.hierarchy "tools" = .ok ["tools", "app", "base"] ∧
      (assembled.linked swapped).graph.hierarchy "tools" = .ok ["tools", "base", "app"] ∧
      SameContents (assembled.linked toolLinks) (assembled.linked swapped) "tools" ∧
      Outcome.SameItems ((readDependencies "tools").perform (assembled.linked toolLinks)).1
        ((readDependencies "tools").perform (assembled.linked swapped)).1 := by
  intro swapped
  have reachable : assembled.Reachable := ⟨_, _, _, _, _, rfl⟩
  have thawed : assembled.graph.frozen = false := by cbv
  have child : ∃ configuration, assembled.graph.find? "tools" = some configuration ∧
      configuration.observed = false := ⟨.named "tools", by cbv, rfl⟩
  have children : ∀ link ∈ toolLinks, ∃ configuration,
      assembled.graph.find? link.child = some configuration ∧ configuration.observed = false :=
    List.forall_mem_cons.2 ⟨child, List.forall_mem_singleton.2 child⟩
  have parents : ∀ link ∈ toolLinks, assembled.graph.contains link.parent = true :=
    List.forall_mem_cons.2 ⟨by cbv, List.forall_mem_singleton.2 (by cbv)⟩
  have made : assembled.graph.editAll (toolLinks.map Inheritance.edit) =
      (.ok (), (assembled.linked toolLinks).graph) := by cbv
  have acyclic := acyclic_of_editAll reachable thawed children parents made
  obtain ⟨declared, collected, asks⟩ := exists_collect_tools
  have views := ((links_in_any_order reachable thawed children parents).1 acyclic toolLinks
    (.refl _)).2.2 swapped (List.reverse_perm _) "tools" (by cbv)
  exact ⟨reachable, thawed, children, parents, acyclic, by cbv, by cbv, views.1,
    views.2 declared collected (asks _ id) (undisturbed_of_unvarying (asks _ trivial))⟩

/-- Links that close no cycle, in a session in which they can be made in any order and in which no
declaration calls the graph. -/
structure Permits (session : Session) (links : List Inheritance) : Prop where
  reachable : session.Reachable
  thawed : session.graph.frozen = false
  children : ∀ link ∈ links, ∃ configuration,
    session.graph.find? link.child = some configuration ∧ configuration.observed = false
  parents : ∀ link ∈ links, session.graph.contains link.parent = true
  acyclic : Inheritance.Acyclic (session.graph.inheritances ++ links)
  outside : ∀ configuration ∈ session.graph.configurations, ∀ declaration ∈ configuration.declared,
    declaration.evaluate.AsksOnly fun asked => ¬asked.CallsGraph

/-- A session in which `base` and `app` each declare something, and `tools` inherits nothing. -/
def declaring (inBase inApp : Notation) : Session :=
  (start (.new {} .root) ⟨[], []⟩).run [
    .edit (.create "base"), .edit (.create "app"), .edit (.create "tools"),
    .edit (.add "base" inBase none), .edit (.add "app" inApp none)]

/-- Such a session permits the links if what it declares does not call the graph. -/
theorem permits_declaring {inBase inApp : Notation} {base app : Declared}
    (comes : (declaring inBase inApp).graph = { Graph.new {} .root with configurations := [
      { Configuration.named "base" with declared := [base] },
      { Configuration.named "app" with declared := [app] }, .named "tools"] })
    (outside : ∀ declaration ∈ [base, app],
      declaration.evaluate.AsksOnly fun asked => ¬asked.CallsGraph) :
    (declaring inBase inApp).Permits toolLinks := by
  have reachable : (declaring inBase inApp).Reachable := ⟨_, _, _, _, _, rfl⟩
  have thawed : (declaring inBase inApp).graph.frozen = false := by rw [comes]; rfl
  have child : ∃ configuration, (declaring inBase inApp).graph.find? "tools" = some configuration ∧
      configuration.observed = false := ⟨.named "tools", by rw [comes]; rfl, rfl⟩
  have children : ∀ link ∈ toolLinks, ∃ configuration,
      (declaring inBase inApp).graph.find? link.child = some configuration ∧
        configuration.observed = false :=
    List.forall_mem_cons.2 ⟨child, List.forall_mem_singleton.2 child⟩
  have parents : ∀ link ∈ toolLinks,
      (declaring inBase inApp).graph.contains link.parent = true := by
    rw [comes]
    exact List.forall_mem_cons.2 ⟨rfl, List.forall_mem_singleton.2 rfl⟩
  have made : (declaring inBase inApp).graph.editAll (toolLinks.map Inheritance.edit) =
      (.ok (), { (declaring inBase inApp).graph with inheritances := toolLinks }) := by
    rw [comes]
    cbv
  refine ⟨reachable, thawed, children, parents,
    acyclic_of_editAll reachable thawed children parents made, ?_⟩
  rw [comes]
  intro configuration present declaration own
  refine outside declaration ?_
  have listed := List.mem_flatMap.2 ⟨configuration, present, own⟩
  exact listed

/-- A lazy notation of a module that is named for whether the source runs for the first time. -/
def ordinal (name : String) : LazyValue Notation :=
  ⟨"component", fun _ => .ask (.run 0) fun _ => .ask (.runs 0) fun count =>
    .done [.dependency (component (if count = 1 then name else name ++ "-again"))]⟩

/-- A session in which two configurations declare modules of one counted source. -/
def disturbing : Session := declaring (.deferred (ordinal "base")) (.deferred (ordinal "app"))

/-- A session in which two configurations declare the same files, in base directories that are
written differently. -/
def spelling : Session :=
  declaring (.files ⟨some ⟨"lib/**//"⟩, [.glob "*.jar"]⟩)
    (.files ⟨some ⟨"lib/**"⟩, [.glob "*.jar"]⟩)

/-- The base directories of file collections, as they are written. -/
def basesOf (dependencies : List Dependency) : List String :=
  dependencies.filterMap fun
    | .files details => details.files.base.map Path.text
    | _ => none

/-- The order of links matters to dependencies although no declaration calls the graph. Where one
source is run for two of them, other modules are read. Where two of them are equal, the one is read
or the other, and they may be written differently. -/
theorem links_order_matters :
    (disturbing.Permits toolLinks ∧
      ((readDependencies "tools").perform (disturbing.linked toolLinks)).1 =
        .ok [component "app", component "base-again"] ∧
      ((readDependencies "tools").perform (disturbing.linked toolLinks.reverse)).1 =
        .ok [component "base", component "app-again"]) ∧
    spelling.Permits toolLinks ∧
    basesOf <$> ((readDependencies "tools").perform (spelling.linked toolLinks)).1 =
      .ok ["lib/**"] ∧
    basesOf <$> ((readDependencies "tools").perform (spelling.linked toolLinks.reverse)).1 =
      .ok ["lib/**//"] := by
  have alone (name : String) : Computation.AsksOnly (fun asked => ¬asked.CallsGraph)
      (Declared.deferred ⟨"component", fun reported =>
        Notation.parseProduced .root ((ordinal name).produce reported)⟩).evaluate := by
    refine ⟨id, fun _ => ⟨id, fun given => ?_⟩⟩
    change (Notation.parseProduced .root (.done [.dependency _])).AsksOnly _
    rw [Notation.parseProduced, Notation.parseEach, Notation.declare, Notation.parseEach]
    trivial
  refine ⟨⟨permits_declaring (by cbv) ?_, by cbv, by cbv⟩, permits_declaring (by cbv) ?_,
    by decide +kernel, by decide +kernel⟩
  · exact List.forall_mem_cons.2 ⟨alone "base", List.forall_mem_singleton.2 (alone "app")⟩
  · exact List.forall_mem_cons.2 ⟨trivial, List.forall_mem_singleton.2 trivial⟩

end Witness

end Session

end BuildPath
