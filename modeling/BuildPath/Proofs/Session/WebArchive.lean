import BuildPath.Proofs.Classpath.Algebra
import BuildPath.Proofs.Classpath.Resolving
import BuildPath.Proofs.Graph.Effective
import BuildPath.Proofs.Session.Convention
import Mathlib

/-!
# What web archives package

Once the convention of web applications was applied, whatever happens afterwards, a web archive
packages no file that its container provides (`Session.webArchive_packages_nothing_provided`).

The two sides of the difference are resolved under different exclude rules, and a rule that takes a
module from what is provided would leave it in what is packaged. But a program runs with what its
container provides from then on: all rules of `providedRuntime` are rules of `runtime`, and rules
only take files away. Applying a convention that was applied before does nothing, so that the link
is missing where another convention of the same name came first (`Session.Honest`).
-/

namespace BuildPath

/-- A dependency of a program that may be packaged for a file: it resolves to that; if it is a
module, then no rule leaves it out; and if it is provided as well, then as a file collection that is
spelled differently, so that a pattern finds other files there. -/
structure Layout.Packages (layout : Layout) (tree : FileTree) (excludes : List ExcludeRule)
    (provided : List Dependency) (dependency : Dependency) (path : Path) : Prop where
  resolved : ∃ files, layout.resolve tree dependency excludes = .ok files ∧
    ∃ file ∈ files, file.normalize = path
  permitted : ∀ details, dependency = .externalModule details →
    ∀ rule ∈ excludes, rule.excludes details.group details.name = false
  apart : ∀ other ∈ provided, (dependency == other) = true →
    dependency.Respelled tree layout.root other path

namespace Session

variable {session before after : Session}

section Linked

/-- A session that operations lead to from an empty graph, none of which applies another convention
under the name of that of web applications. -/
def Honest (session : Session) : Prop :=
  ∃ settings project tree room operations, (∀ operation ∈ operations, operation.Respects .war) ∧
    session = (start (.new settings project) tree room).run operations

/-- Without false conventions a program runs with what its container provides, where the convention
of web applications is remembered. -/
theorem Honest.linked (honest : session.Honest) :
    session.graph.Linked .war Convention.runtime Convention.providedRuntime := by
  obtain ⟨settings, project, tree, room, operations, respectful, rfl⟩ := honest
  exact linked_run Convention.extend_mem_edits_war respectful nofun

/-- After the convention of web applications a program runs with what its container provides,
whatever happens then. -/
theorem Honest.extends_run (honest : before.Honest)
    (applied : ((Operation.applyConvention .war).perform.perform before).1 = .ok ())
    (operations : List Operation) :
    Inheritance.Extends (before.run (.applyConvention .war :: operations)).graph.inheritances
      Convention.runtime Convention.providedRuntime := by
  change ((Session.change Convention.war.apply).perform before).1 = _ at applied
  rw [perform_change] at applied
  have later := (steps_run ((Operation.applyConvention .war).perform.perform before).2
    operations).steps_graph
  refine later.extends ?_
  change Inheritance.Extends ((Session.change Convention.war.apply).perform
    before).2.graph.inheritances _ _
  rw [perform_change]
  exact Convention.extends_of_linked honest.linked Convention.extend_mem_edits_war
    (Prod.ext applied rfl)

/-- Without false conventions a session is reachable, and so is every session that it leads to. -/
theorem Honest.reachable_run (honest : before.Honest) (operations : List Operation) :
    (before.run operations).Reachable := by
  obtain ⟨settings, project, tree, room, earlier, -, reached⟩ := honest
  exact Reachable.run ⟨settings, project, tree, room, earlier, reached⟩ operations

end Linked

section Packaged

variable {resolver : Resolver} {name : String} {path : Path}

/-- The classpath of a configuration holds the files of its dependencies, all of which resolve. -/
theorem Steady.exists_dependencies_of_classpath (steady : session.Steady) {found : Classpath}
    (comes : session.classpath resolver (.configuration name) = .ok found) :
    ∃ dependencies excludes, ((readDependencies name).perform session).1 = .ok dependencies ∧
      session.graph.effectiveExcludes name = .ok excludes ∧
      (∀ dependency ∈ dependencies, ∃ files,
        resolver session.tree dependency excludes = .ok files) ∧
      ∀ path, path ∈ found.files ↔ ∃ dependency ∈ dependencies, ∃ files,
        resolver session.tree dependency excludes = .ok files ∧
          ∃ file ∈ files, file.normalize = path := by
  obtain ⟨dependencies, excludes, resolved, read, rules, each, listed⟩ :=
    steady.classpath_configuration_eq_ok_iff.1 comes
  have normal : ∀ path ∈ resolved.flatten.map Path.normalize, path.Normal := by
    intro path member
    obtain ⟨file, -, rfl⟩ := List.mem_map.1 member
    exact Path.normal_normalize file
  refine ⟨dependencies, excludes, read, rules, fun dependency member => ?_, fun path => ?_⟩
  · obtain ⟨files, -, resolves⟩ := Outcome.exists_mem_of_mapM_eq_ok each dependency member
    exact ⟨files, resolves⟩
  rw [Path.mem_iff_of_firstMentions (Path.firstMentions_iff.2 listed) normal, List.mem_map]
  constructor
  · rintro ⟨file, member, same⟩
    obtain ⟨files, present, member⟩ := List.mem_flatten.1 member
    obtain ⟨dependency, given, resolves⟩ := Outcome.exists_of_mem_mapM_eq_ok each files present
    exact ⟨dependency, given, files, resolves, file, member, same⟩
  · rintro ⟨dependency, given, files, resolves, file, member, same⟩
    obtain ⟨others, present, again⟩ := Outcome.exists_mem_of_mapM_eq_ok each dependency given
    cases resolves.symm.trans again
    exact ⟨file, List.mem_flatten.2 ⟨files, present, member⟩, same⟩

/-- What a program runs with, less what its container provides, where the one inherits from the
other: each file is one of a dependency that may be packaged. -/
theorem Steady.packages_of_mem_libraries (steady : session.Steady)
    (formed : session.graph.WellFormed)
    (edge : Inheritance.Extends session.graph.inheritances Convention.runtime
      Convention.providedRuntime)
    {layout : Layout} {found : Classpath}
    (comes : session.classpath layout.resolve WebArchive.libraries = .ok found) :
    ∃ runtime provided excludes removed,
      ((readDependencies Convention.runtime).perform session).1 = .ok runtime ∧
      ((readDependencies Convention.providedRuntime).perform session).1 = .ok provided ∧
      session.graph.effectiveExcludes Convention.runtime = .ok excludes ∧
      session.classpath layout.resolve (.configuration Convention.providedRuntime) = .ok removed ∧
      ∀ path ∈ found.files, removed.contains path = false ∧
        ∃ dependency ∈ runtime,
          layout.Packages session.tree excludes provided dependency path := by
  obtain ⟨whole, removed, here, there, rfl⟩ := steady.classpath_minus_eq_ok_iff.1 comes
  obtain ⟨runtime, excludes, run, rules, -, mem_whole_iff⟩ :=
    steady.exists_dependencies_of_classpath here
  obtain ⟨provided, others, given, inherited, resolvable, mem_removed_iff⟩ :=
    steady.exists_dependencies_of_classpath there
  have fewer : ∀ rule ∈ others, rule ∈ excludes :=
    formed.effectiveExcludes_subset (.single edge) rules inherited
  refine ⟨runtime, provided, excludes, removed, run, given, rules, there, fun path member => ?_⟩
  obtain ⟨member, absent⟩ := ((listing_of_classpath here).mem_filter_not_contains_iff
    (listing_of_classpath there)).1 member
  have normal : path.normalize = path := (listing_of_classpath here).normal path member
  obtain ⟨dependency, present, files, resolved, file, among, same⟩ := (mem_whole_iff path).1 member
  refine ⟨?_, dependency, present, ⟨files, resolved, file, among, same⟩, ?_, ?_⟩
  · rwa [← Bool.not_eq_true, Classpath.contains_iff (listing_of_classpath there), normal]
  · rintro details rfl
    exact Layout.not_excludes_of_resolve resolved among
  · intro other member equal
    obtain ⟨found, again⟩ := resolvable other member
    obtain shared | respelled := Layout.mem_of_resolve equal fewer resolved again among
    · have removed := (mem_removed_iff path).2 ⟨other, member, found, again, file, shared, same⟩
      exact absurd removed absent
    · rwa [← same, respelled.normal]

/-- Once the convention of web applications was applied, where no other convention goes by its name,
and after whatever operations since then: if the archive that was described at some time comes to a
classpath, then this holds no file of `providedRuntime`, and each of its files is one of a
dependency of `runtime` that may be packaged. -/
theorem webArchive_packages_nothing_provided (honest : before.Honest)
    (applied : ((Operation.applyConvention .war).perform.perform before).1 = .ok ())
    (later more : List Operation)
    (reached : session = before.run (.applyConvention .war :: (later ++ more)))
    (steady : session.Steady) (layout : Layout) {archive : WebArchive} {found : Classpath}
    (described : WebArchive.ofGraph (before.run (.applyConvention .war :: later)).graph
      layout.resolve = .ok archive)
    (comes : session.outcome archive.classpath.evaluateOne = .ok found) :
    ∃ runtime provided excludes removed,
      ((readDependencies Convention.runtime).perform session).1 = .ok runtime ∧
      ((readDependencies Convention.providedRuntime).perform session).1 = .ok provided ∧
      session.graph.effectiveExcludes Convention.runtime = .ok excludes ∧
      session.classpath layout.resolve (.configuration Convention.providedRuntime) = .ok removed ∧
      ∀ path ∈ found.files, removed.contains path = false ∧
        ∃ dependency ∈ runtime,
          layout.Packages session.tree excludes provided dependency path := by
  subst reached
  have edge := honest.extends_run applied (later ++ more)
  have formed := Graph.wellFormed_of_reachable
    (honest.reachable_run (.applyConvention .war :: (later ++ more)))
  obtain ⟨-, -, packed⟩ := Outcome.bind_eq_ok_iff.1 described
  cases packed
  exact steady.packages_of_mem_libraries formed edge comes

end Packaged

section Witness

/-- A module of a web shop. -/
def shopModule (name : String) : Dependency :=
  .externalModule (.ofCoordinates (some "shop") name (some "1") none none)

/-- A session with a library in a directory below `lib`. -/
def blank : Session :=
  start (.new {} .root) ((FileTree.new []).add ["lib", "x", "a.jar"] (.file ""))

/-- A container provides a module and excludes it from what it runs with. The program asks for that
module as well, and for one of its own. -/
def excluding : List Operation := [
  .edit (.add Convention.providedCompile (.dependency (shopModule "api")) none),
  .edit (.exclude Convention.providedRuntime ⟨some "shop", some "api"⟩),
  .edit (.add Convention.runtime
    (.bundle [.dependency (shopModule "api"), .dependency (shopModule "cart")]) none)]

/-- The module that a container provides is not packaged, though no file of it is taken away. -/
theorem webArchive_packages_nothing_provided_excluding :
    ∃ session archive found, session = blank.run (.applyConvention .war :: excluding) ∧
      blank.Honest ∧ ((Operation.applyConvention .war).perform.perform blank).1 = .ok () ∧
      session.Steady ∧
      WebArchive.ofGraph session.graph (Layout.ofSettings {}).resolve = .ok archive ∧
      session.outcome archive.classpath.evaluateOne = .ok found ∧
      found.files.map Path.text = [".repository/shop/cart/1/cart-1.jar"] ∧
      ∃ runtime provided excludes,
        ((readDependencies Convention.runtime).perform session).1 = .ok runtime ∧
        ((readDependencies Convention.providedRuntime).perform session).1 = .ok provided ∧
        session.graph.effectiveExcludes Convention.runtime = .ok excludes ∧
        ∀ path ∈ found.files, ∃ dependency ∈ runtime,
          (Layout.ofSettings {}).Packages session.tree excludes provided dependency path := by
  have honest : blank.Honest := ⟨{}, .root, _, _, [], nofun, rfl⟩
  have applied : ((Operation.applyConvention .war).perform.perform blank).1 = .ok () := by
    decide +kernel
  have steady : (blank.run (.applyConvention .war :: (excluding ++ []))).Steady :=
    steady_of_isResolved (by decide +kernel)
  have packed : (do
      let archive ← WebArchive.ofGraph (blank.run (.applyConvention .war :: excluding)).graph
        (Layout.ofSettings {}).resolve
      (fun found : Classpath => found.files.map Path.text) <$>
        (blank.run (.applyConvention .war :: excluding)).outcome archive.classpath.evaluateOne) =
          .ok [".repository/shop/cart/1/cart-1.jar"] := by decide +kernel
  obtain ⟨archive, described, evaluated⟩ := Outcome.bind_eq_ok_iff.1 packed
  obtain ⟨found, comes, listed⟩ := Outcome.map_eq_ok_iff.1 evaluated
  obtain ⟨runtime, provided, excludes, removed, run, given, rules, -, each⟩ :=
    webArchive_packages_nothing_provided honest applied excluding [] rfl steady (.ofSettings {})
      described comes
  exact ⟨_, archive, found, rfl, honest, applied, steady, described, comes, listed, runtime,
    provided, excludes, run, given, rules, fun path member => (each path member).2⟩

/-- What the web archive of a session packages, and whether all that its program runs with is
provided. -/
def packaged (session : Session) : Outcome (List String × Bool) := do
  let archive ← WebArchive.ofGraph session.graph (Layout.ofSettings {}).resolve
  let found ← session.outcome archive.classpath.evaluateOne
  let runtime ← ((readDependencies Convention.runtime).perform session).1
  let provided ← ((readDependencies Convention.providedRuntime).perform session).1
  return (found.files.map Path.text, runtime.all provided.contains)

/-- Files found below `lib`, and the same files of a base directory that is written differently. -/
def respelling : List Operation := [
  .edit (.add Convention.runtime (.files ⟨some ⟨"lib/**"⟩, [.glob "*.jar"]⟩) none),
  .edit (.add Convention.providedRuntime (.files ⟨some ⟨"lib/**//"⟩, [.glob "*.jar"]⟩) none)]

/-- Another convention goes by the name of that of web applications. -/
def impostor : Convention :=
  .plain Convention.war.name fun _ => []

/-- A module of a program is provided, and excluded from what is. -/
def deceiving : List Operation := [
  .edit (.create Convention.runtime), .edit (.create Convention.providedRuntime),
  .edit (.add Convention.runtime (.dependency (shopModule "api")) none),
  .edit (.add Convention.providedRuntime (.dependency (shopModule "api")) none),
  .edit (.exclude Convention.providedRuntime ⟨some "shop", some "api"⟩)]

/-- Files are packaged although all that a program runs with is provided: of file collections in
base directories that are spelled differently, and of a module where the convention was not carried
out. -/
theorem webArchive_packages_provided :
    (((Operation.applyConvention .war).perform.perform blank).1 = .ok () ∧
      (blank.run (.applyConvention .war :: respelling)).Steady ∧
      (blank.run (.applyConvention .war :: respelling)).packaged =
        .ok (["lib/x/a.jar"], true)) ∧
    ((Operation.applyConvention .war).perform.perform
      (blank.run [.applyConvention impostor])).1 = .ok () ∧
    (blank.run (.applyConvention impostor :: .applyConvention .war :: deceiving)).Steady ∧
    (blank.run (.applyConvention impostor :: .applyConvention .war :: deceiving)).packaged =
      .ok ([".repository/shop/api/1/api-1.jar"], true) := by
  refine ⟨⟨?_, steady_of_isResolved ?_, ?_⟩, ?_, steady_of_isResolved ?_, ?_⟩ <;> decide +kernel

end Witness

end Session

end BuildPath
