import BuildPath.Proofs.Classpath.Listing
import BuildPath.Proofs.Session.Outcome
import Mathlib

/-!
# The algebra of views

Views compose classpaths as sets of normalized paths, in an order: a union holds what its members
hold, by first mention; a difference and a selection keep what they keep in the order of their base;
and a view has a classpath exactly when all configurations and file sets in it have theirs
(`Session.classpath_algebra`).

That the whole depends on its parts only, although these are evaluated one after the other, is where
declarations have to evaluate alike each time. That each part lists normalized paths, each once, is
what every leaf provides on its own (`View.yields_evaluate`).
-/

namespace BuildPath

namespace View

/-- Views by their shape, the members of a union taken together. -/
theorem induction {motive : View → Prop} (configuration : ∀ name, motive (.configuration name))
    (files : ∀ set, motive (.files set))
    (union : ∀ views, (∀ view ∈ views, motive view) → motive (.union views))
    (minus : ∀ base subtrahend, motive base → motive subtrahend → motive (.minus base subtrahend))
    (filter : ∀ view keeps, motive view → motive (.filter view keeps)) (view : View) :
    motive view :=
  @View.rec motive (fun views => ∀ view ∈ views, motive view) configuration files union minus filter
    nofun (fun _ _ first rest => List.forall_mem_cons.2 ⟨first, rest⟩) view

mutual

/-- The configurations and file sets in a view. -/
def leaves : View → List View
  | .configuration name => [.configuration name]
  | .files set => [.files set]
  | .union views => leavesEach views
  | .minus base subtrahend => base.leaves ++ subtrahend.leaves
  | .filter view _ => view.leaves

/-- The configurations and file sets in several views. -/
def leavesEach : List View → List View
  | [] => []
  | view :: views => view.leaves ++ leavesEach views

end

/-- The leaves of several views are those of each. -/
theorem mem_leavesEach {leaf : View} {views : List View} :
    leaf ∈ leavesEach views ↔ ∃ view ∈ views, leaf ∈ view.leaves := by
  induction views with
  | nil => simp [leavesEach]
  | cons first rest ih => simp [leavesEach, ih]

section Computation

variable {settings : Settings} {resolver : Resolver}

/-- The files of dependencies under exclude rules, as a classpath lists them. -/
def filesUnder (resolver : Resolver) (tree : FileTree) (dependencies : List Dependency)
    (excludes : List ExcludeRule) : Outcome (List Path) := do
  let resolved ← dependencies.mapM fun dependency => resolver tree dependency excludes
  return Ordered.distinctBy Path.components (resolved.flatten.map Path.normalize)

/-- Once dependencies, rules and files are known, so is what comes of a configuration. -/
theorem configurationFiles_eq (name : String) :
    configurationFiles resolver name =
      Computation.request (.dependencies name) >>= fun dependencies =>
        Computation.request (.excludes name) >>= fun excludes =>
          Computation.request .files >>= fun tree =>
            Computation.ofOutcome (filesUnder resolver tree dependencies excludes) := by
  unfold configurationFiles filesUnder
  refine bind_congr fun dependencies => bind_congr fun excludes => bind_congr fun tree => ?_
  rw [Computation.mapM_monadLift]
  cases dependencies.mapM fun dependency => resolver tree dependency excludes <;> rfl

/-- The files of a configuration are asked for as views ask. -/
theorem asksOnly_configurationFiles (name : String) :
    (configurationFiles resolver name).AsksOnly Request.OfViews := by
  rw [configurationFiles_eq]
  refine (Computation.asksOnly_request trivial).bind fun dependencies => ?_
  refine (Computation.asksOnly_request trivial).bind fun excludes => ?_
  refine (Computation.asksOnly_request trivial).bind fun tree => ?_
  exact Computation.asksOnly_ofOutcome _

/-- The files of several views are asked for as those of each. -/
theorem asksOnly_evaluateEach {views : List View}
    (each : ∀ view ∈ views, (view.evaluate settings resolver).AsksOnly Request.OfViews) :
    (evaluateEach settings resolver views).AsksOnly Request.OfViews := by
  induction views with
  | nil =>
    rw [evaluateEach]
    trivial
  | cons first rest ih =>
    obtain ⟨here, later⟩ := List.forall_mem_cons.1 each
    rw [evaluateEach]
    exact here.bind fun _ => (ih later).bind fun _ => trivial

/-- A view asks for effective dependencies, exclude rules and files. -/
theorem asksOnly_evaluate (view : View) :
    (view.evaluate settings resolver).AsksOnly Request.OfViews := by
  induction view using View.induction with
  | configuration name =>
    rw [evaluate]
    exact asksOnly_configurationFiles name
  | files set =>
    rw [evaluate]
    refine (Computation.asksOnly_request trivial).bind fun tree => ?_
    exact Computation.asksOnly_ofOutcome _
  | union views each =>
    rw [evaluate]
    exact (asksOnly_evaluateEach each).bind fun _ => trivial
  | minus base subtrahend whole removed =>
    rw [evaluate]
    exact whole.bind fun _ => removed.bind fun _ => trivial
  | filter view keeps whole =>
    rw [evaluate]
    exact whole.bind fun _ => trivial

/-- The files of a configuration are a listing. -/
theorem yields_configurationFiles (name : String) :
    (configurationFiles resolver name).Yields Path.Listing := by
  unfold configurationFiles
  refine (Computation.yields_trivial _).bind fun dependencies _ => ?_
  refine (Computation.yields_trivial _).bind fun excludes _ => ?_
  refine (Computation.yields_trivial _).bind fun tree _ => ?_
  refine (Computation.yields_trivial _).bind fun resolved _ => ?_
  refine Path.Listing.distinctBy fun path member => ?_
  obtain ⟨written, -, rfl⟩ := List.mem_map.1 member
  exact Path.normal_normalize written

/-- The files of several views are normalized if those of each are. -/
theorem yields_evaluateEach {views : List View}
    (each : ∀ view ∈ views, (view.evaluate settings resolver).Yields Path.Listing) :
    (evaluateEach settings resolver views).Yields fun files => ∀ path ∈ files, path.Normal := by
  induction views with
  | nil =>
    rw [evaluateEach]
    exact nofun
  | cons first rest ih =>
    obtain ⟨here, later⟩ := List.forall_mem_cons.1 each
    rw [evaluateEach]
    refine here.bind fun files listing => (ih later).bind fun others normal => ?_
    exact List.forall_mem_append.2 ⟨listing.normal, normal⟩

/-- The files of a view are a listing. -/
theorem yields_evaluate (view : View) :
    (view.evaluate settings resolver).Yields Path.Listing := by
  induction view using View.induction with
  | configuration name =>
    rw [evaluate]
    exact yields_configurationFiles name
  | files set =>
    rw [evaluate]
    refine (Computation.yields_trivial _).bind fun tree _ => ?_
    exact Computation.yields_ofOutcome fun files => FileSet.listing_of_resolve
  | union views each =>
    rw [evaluate]
    exact (yields_evaluateEach each).bind fun members normal => Path.Listing.distinctBy normal
  | minus base subtrahend whole removed =>
    rw [evaluate]
    refine whole.bind fun files listing => (Computation.yields_trivial _).bind fun unwanted _ => ?_
    exact listing.filter _
  | filter view keeps whole =>
    rw [evaluate]
    exact whole.bind fun files listing => listing.filter keeps

/-- Several views and one more are evaluated one after the other. -/
theorem evaluateEach_append (views more : List View) :
    evaluateEach settings resolver (views ++ more) =
      evaluateEach settings resolver views >>= fun files =>
        evaluateEach settings resolver more >>= fun others => pure (files ++ others) := by
  induction views with
  | nil =>
    rw [List.nil_append, evaluateEach, pure_bind]
    exact (bind_pure _).symm
  | cons first rest ih =>
    rw [List.cons_append, evaluateEach, evaluateEach, ih]
    simp only [bind_assoc, pure_bind, List.append_assoc]

/-- A union with one more view is evaluated like the union of both. -/
theorem evaluate_plus (view other : View) :
    (view.plus other).evaluate settings resolver =
      (View.union [view, other]).evaluate settings resolver := by
  cases view with
  | union views =>
    have key := Ordered.distinctBy_distinctBy_append Path.beq_eq
    simp only [plus, evaluate, evaluateEach, evaluateEach_append, bind_assoc, pure_bind, key]
  | _ => rfl

end Computation

end View

/-- A classpath contains a path, however it is written, when it lists its normal form. -/
theorem Classpath.contains_iff {classpath : Classpath} (listing : Path.Listing classpath.files)
    (path : Path) : classpath.contains path = true ↔ path.normalize ∈ classpath.files := by
  rw [contains, List.any_eq_true]
  constructor
  · rintro ⟨file, member, same⟩
    rw [← Path.eq_of_beq_of_normal same (listing.normal file member) (Path.normal_normalize path)]
    exact member
  · intro member
    exact ⟨_, member, BEq.rfl⟩

namespace Session

/-- What comes of evaluating the classpath of a view. -/
def classpath (session : Session) (resolver : Resolver) (view : View) : Outcome Classpath :=
  session.outcome (view.compose session.graph.settings resolver).evaluateOne

variable {session : Session} {resolver : Resolver}

/-- The classpath of a view holds the files of the view. -/
theorem classpath_eq (session : Session) (resolver : Resolver) (view : View) :
    session.classpath resolver view =
      Classpath.mk <$> session.outcome (view.evaluate session.graph.settings resolver) := by
  rw [← outcome_map]
  refine congrArg session.outcome ?_
  change (view.evaluate session.graph.settings resolver >>= fun files => pure [Classpath.mk files])
    >>= _ = _
  rw [bind_assoc]
  rfl

/-- The classpath of a view lists normalized files, each once. -/
theorem listing_of_classpath {view : View} {found : Classpath}
    (comes : session.classpath resolver view = .ok found) : Path.Listing found.files := by
  rw [classpath_eq, Outcome.map_eq_ok_iff] at comes
  obtain ⟨files, comes, rfl⟩ := comes
  exact holds_of_yields (View.yields_evaluate view) comes

/-- A selection has a classpath when its base has one. -/
theorem classpath_filter_eq_ok_iff {view : View} {keeps : Path → Bool} {found : Classpath} :
    session.classpath resolver (.filter view keeps) = .ok found ↔
      ∃ whole, session.classpath resolver view = .ok whole ∧
        found = ⟨whole.files.filter keeps⟩ := by
  rw [classpath_eq, classpath_eq, View.evaluate, outcome_map]
  cases session.outcome (view.evaluate session.graph.settings resolver) with
  | error error => simp
  | ok files => simp [eq_comm]

section Steady

variable (steady : session.Steady)
include steady

/-- A configuration has a classpath when its dependencies can be read, its rules as well, and all
dependencies be resolved under these. -/
theorem Steady.classpath_configuration_eq_ok_iff {name : String} {found : Classpath} :
    session.classpath resolver (.configuration name) = .ok found ↔
      ∃ dependencies excludes resolved,
        ((readDependencies name).perform session).1 = .ok dependencies ∧
        session.graph.effectiveExcludes name = .ok excludes ∧
        dependencies.mapM (fun dependency => resolver session.tree dependency excludes) =
          .ok resolved ∧
        found.files = Ordered.distinctBy Path.components (resolved.flatten.map Path.normalize) := by
  have rules : ((answer readDependencies (.excludes name)).perform session).1 =
      session.graph.effectiveExcludes name := by
    change ((readExcludes name).perform session).1 = _
    rw [perform_readExcludes]
    cases session.graph.effectiveExcludes name <;> rfl
  have parts : session.outcome (View.configurationFiles resolver name) =
      ((readDependencies name).perform session).1 >>= fun dependencies =>
        session.graph.effectiveExcludes name >>= fun excludes =>
          View.filesUnder resolver session.tree dependencies excludes := by
    rw [View.configurationFiles_eq]
    refine (steady.outcome_request_bind fun dependencies => ?_).trans
      (bind_congr fun dependencies => ?_)
    · refine (Computation.asksOnly_request trivial).bind fun excludes => ?_
      exact (Computation.asksOnly_request trivial).bind fun tree => Computation.asksOnly_ofOutcome _
    refine (steady.outcome_request_bind fun excludes => ?_).trans ?_
    · exact (Computation.asksOnly_request trivial).bind fun tree => Computation.asksOnly_ofOutcome _
    refine (congrArg (· >>= _) rules).trans (bind_congr fun excludes => ?_)
    refine (steady.outcome_request_bind fun tree => Computation.asksOnly_ofOutcome _).trans ?_
    exact outcome_ofOutcome session _
  rw [classpath_eq, View.evaluate, parts]
  simp only [View.filesUnder, Outcome.map_eq_ok_iff, Outcome.bind_eq_ok_iff]
  constructor
  · rintro ⟨_, ⟨dependencies, read, excludes, rules, resolved, each, ⟨⟩⟩, rfl⟩
    exact ⟨dependencies, excludes, resolved, read, rules, each, rfl⟩
  · rintro ⟨dependencies, excludes, resolved, read, rules, each, listed⟩
    exact ⟨_, ⟨dependencies, read, excludes, rules, resolved, each, rfl⟩,
      congrArg Classpath.mk listed.symm⟩

/-- A difference has a classpath when both of its sides have one. -/
theorem Steady.classpath_minus_eq_ok_iff {base subtrahend : View} {found : Classpath} :
    session.classpath resolver (.minus base subtrahend) = .ok found ↔
      ∃ whole removed, session.classpath resolver base = .ok whole ∧
        session.classpath resolver subtrahend = .ok removed ∧
        found = ⟨whole.files.filter fun path =>
          !(removed.files.map Path.components).contains path.components⟩ := by
  have parts : session.outcome
      ((View.minus base subtrahend).evaluate session.graph.settings resolver) =
        session.outcome (base.evaluate session.graph.settings resolver) >>= fun files =>
          session.outcome (subtrahend.evaluate session.graph.settings resolver >>= fun removed =>
            pure (files.filter fun path =>
              !(removed.map Path.components).contains path.components)) := by
    rw [View.evaluate]
    exact steady.outcome_bind _ fun _ => (View.asksOnly_evaluate subtrahend).bind fun _ => trivial
  simp only [classpath_eq, parts, outcome_map, Outcome.map_eq_ok_iff, Outcome.bind_eq_ok_iff]
  constructor
  · rintro ⟨_, ⟨files, whole, unwanted, removed, rfl⟩, rfl⟩
    exact ⟨⟨files⟩, ⟨unwanted⟩, ⟨files, whole, rfl⟩, ⟨unwanted, removed, rfl⟩, rfl⟩
  · rintro ⟨_, _, ⟨files, whole, rfl⟩, ⟨unwanted, removed, rfl⟩, rfl⟩
    exact ⟨_, ⟨files, whole, unwanted, removed, rfl⟩, rfl⟩

/-- The files of several views are those of their classpaths. -/
theorem Steady.outcome_evaluateEach_eq_ok_iff {views : List View} {files : List Path} :
    session.outcome (View.evaluateEach session.graph.settings resolver views) = .ok files ↔
      ∃ members, views.mapM (session.classpath resolver) = .ok members ∧
        files = members.flatMap Classpath.files := by
  induction views generalizing files with
  | nil =>
    rw [View.evaluateEach]
    constructor
    · rintro ⟨⟩
      exact ⟨[], rfl, rfl⟩
    · rintro ⟨_, ⟨⟩, rfl⟩
      rfl
  | cons first rest ih =>
    have others : (View.evaluateEach session.graph.settings resolver rest).AsksOnly
        Request.OfViews := View.asksOnly_evaluateEach fun view _ => View.asksOnly_evaluate view
    have parts : session.outcome
        (View.evaluateEach session.graph.settings resolver (first :: rest)) =
          session.outcome (first.evaluate session.graph.settings resolver) >>= fun files =>
            session.outcome (View.evaluateEach session.graph.settings resolver rest >>=
              fun others => pure (files ++ others)) := by
      rw [View.evaluateEach]
      exact steady.outcome_bind _ fun _ => others.bind fun _ => trivial
    simp only [parts, outcome_map, Outcome.map_eq_ok_iff, Outcome.bind_eq_ok_iff, ih,
      Outcome.mapM_cons_eq_ok_iff, classpath_eq]
    constructor
    · rintro ⟨files, here, _, ⟨members, later, rfl⟩, rfl⟩
      exact ⟨_, ⟨⟨files⟩, members, ⟨files, here, rfl⟩, later, rfl⟩, rfl⟩
    · rintro ⟨_, ⟨_, members, ⟨files, here, rfl⟩, later, rfl⟩, rfl⟩
      exact ⟨files, here, _, ⟨members, later, rfl⟩, rfl⟩

/-- A union has a classpath when each of its members has one. -/
theorem Steady.classpath_union_eq_ok_iff {views : List View} {found : Classpath} :
    session.classpath resolver (.union views) = .ok found ↔
      ∃ members, views.mapM (session.classpath resolver) = .ok members ∧
        Ordered.FirstMentions (members.flatMap Classpath.files) found.files := by
  rw [classpath_eq, View.evaluate, outcome_map]
  simp only [Outcome.map_eq_ok_iff, steady.outcome_evaluateEach_eq_ok_iff, Path.firstMentions_iff]
  constructor
  · rintro ⟨_, ⟨_, ⟨members, each, rfl⟩, rfl⟩, rfl⟩
    exact ⟨members, each, rfl⟩
  · rintro ⟨members, each, same⟩
    exact ⟨_, ⟨_, ⟨members, each, rfl⟩, rfl⟩, congrArg Classpath.mk same.symm⟩

/-- A view has a classpath exactly when all its leaves have one. -/
theorem Steady.exists_classpath_iff (view : View) :
    (∃ found, session.classpath resolver view = .ok found) ↔
      ∀ leaf ∈ view.leaves, ∃ found, session.classpath resolver leaf = .ok found := by
  induction view using View.induction with
  | configuration name => simp [View.leaves]
  | files set => simp [View.leaves]
  | union views each =>
    have members : (∃ found, session.classpath resolver (.union views) = .ok found) ↔
        ∀ view ∈ views, ∃ member, session.classpath resolver view = .ok member := by
      rw [← Outcome.exists_mapM_eq_ok_iff]
      constructor
      · rintro ⟨found, comes⟩
        obtain ⟨members, each, -⟩ := steady.classpath_union_eq_ok_iff.1 comes
        exact ⟨members, each⟩
      · rintro ⟨members, each⟩
        have mentions := Path.firstMentions_iff.2
          (rfl : Ordered.distinctBy Path.components (members.flatMap Classpath.files) = _)
        exact ⟨⟨_⟩, steady.classpath_union_eq_ok_iff.2 ⟨members, each, mentions⟩⟩
    rw [members, View.leaves]
    constructor
    · intro all leaf member
      obtain ⟨view, present, member⟩ := View.mem_leavesEach.1 member
      exact (each view present).1 (all view present) leaf member
    · intro all view present
      exact (each view present).2 fun leaf member =>
        all leaf (View.mem_leavesEach.2 ⟨view, present, member⟩)
  | minus base subtrahend whole removed =>
    rw [View.leaves, List.forall_mem_append, ← whole, ← removed]
    constructor
    · rintro ⟨found, comes⟩
      obtain ⟨files, unwanted, here, there, -⟩ := steady.classpath_minus_eq_ok_iff.1 comes
      exact ⟨⟨files, here⟩, ⟨unwanted, there⟩⟩
    · rintro ⟨⟨files, here⟩, ⟨unwanted, there⟩⟩
      exact ⟨_, steady.classpath_minus_eq_ok_iff.2 ⟨files, unwanted, here, there, rfl⟩⟩
  | filter view keeps whole =>
    rw [View.leaves, ← whole]
    constructor
    · rintro ⟨found, comes⟩
      obtain ⟨files, here, -⟩ := classpath_filter_eq_ok_iff.1 comes
      exact ⟨files, here⟩
    · rintro ⟨files, here⟩
      exact ⟨_, classpath_filter_eq_ok_iff.2 ⟨files, here, rfl⟩⟩

end Steady

/-- If declarations evaluate alike each time, then a view has a classpath exactly when all its
leaves have one. It lists normalized paths, each once, and contains a path, however written, when
its normal form is listed. A union lists what its members list, by first mention; a difference and
a selection list what they keep of their base, in its order; and to add a view is to form the union
with it. -/
theorem classpath_algebra {session : Session} (steady : session.Steady) (resolver : Resolver) :
    (∀ view, (∃ found, session.classpath resolver view = .ok found) ↔
      ∀ leaf ∈ view.leaves, ∃ found, session.classpath resolver leaf = .ok found) ∧
    (∀ view found, session.classpath resolver view = .ok found →
      Ordered.Distinct found.files ∧ (∀ path ∈ found.files, path.normalize = path) ∧
        ∀ path, found.contains path = true ↔ path.normalize ∈ found.files) ∧
    (∀ views found, session.classpath resolver (.union views) = .ok found →
      (∃ members, views.mapM (session.classpath resolver) = .ok members ∧
        Ordered.FirstMentions (members.flatMap Classpath.files) found.files) ∧
      ∀ path, path ∈ found.files ↔ ∃ view ∈ views, ∃ member,
        session.classpath resolver view = .ok member ∧ path ∈ member.files) ∧
    (∀ base subtrahend found, session.classpath resolver (.minus base subtrahend) = .ok found →
      ∃ whole removed, session.classpath resolver base = .ok whole ∧
        session.classpath resolver subtrahend = .ok removed ∧
        found.files.Sublist whole.files ∧
        ∀ path, path ∈ found.files ↔ path ∈ whole.files ∧ path ∉ removed.files) ∧
    (∀ view keeps found, session.classpath resolver (.filter view keeps) = .ok found →
      ∃ whole, session.classpath resolver view = .ok whole ∧
        found.files.Sublist whole.files ∧
        ∀ path, path ∈ found.files ↔ path ∈ whole.files ∧ keeps path = true) ∧
    ∀ view other, session.classpath resolver (view.plus other) =
      session.classpath resolver (.union [view, other]) := by
  refine ⟨steady.exists_classpath_iff, ?_, ?_, ?_, ?_, ?_⟩
  · intro view found comes
    have listing := listing_of_classpath comes
    exact ⟨listing.distinct, listing.normal, Classpath.contains_iff listing⟩
  · intro views found comes
    obtain ⟨members, each, mentions⟩ := steady.classpath_union_eq_ok_iff.1 comes
    have normal : ∀ path ∈ members.flatMap Classpath.files, path.Normal := by
      intro path member
      obtain ⟨part, present, member⟩ := List.mem_flatMap.1 member
      obtain ⟨view, -, comes⟩ := Outcome.exists_of_mem_mapM_eq_ok each part present
      exact (listing_of_classpath comes).normal path member
    refine ⟨⟨members, each, mentions⟩, fun path => ?_⟩
    rw [Path.mem_iff_of_firstMentions mentions normal, List.mem_flatMap]
    constructor
    · rintro ⟨part, present, member⟩
      obtain ⟨view, given, comes⟩ := Outcome.exists_of_mem_mapM_eq_ok each part present
      exact ⟨view, given, part, comes, member⟩
    · rintro ⟨view, given, part, comes, member⟩
      obtain ⟨other, present, same⟩ := Outcome.exists_mem_of_mapM_eq_ok each view given
      rw [comes, Except.ok.injEq] at same
      exact ⟨other, present, same ▸ member⟩
  · intro base subtrahend found comes
    obtain ⟨whole, removed, here, there, rfl⟩ := steady.classpath_minus_eq_ok_iff.1 comes
    refine ⟨whole, removed, here, there, List.filter_sublist, fun path => ?_⟩
    exact (listing_of_classpath here).mem_filter_not_contains_iff (listing_of_classpath there)
  · intro view keeps found comes
    obtain ⟨whole, here, rfl⟩ := classpath_filter_eq_ok_iff.1 comes
    exact ⟨whole, here, List.filter_sublist, fun path => List.mem_filter⟩
  · intro view other
    rw [classpath_eq, classpath_eq, View.evaluate_plus]

section Witness

/-- A session in which `app` depends on a file beside two more that are provided. -/
def provided : Session :=
  (start (.new {} .root) ⟨[], []⟩).run [
    .edit (.create "app"),
    .edit (.add "app" (.files (.ofPaths [⟨"lib//./own.jar"⟩, ⟨"lib/../api.jar"⟩])) none)]

/-- A resolver of files alone. -/
def filesAlone : Resolver := fun tree dependency _ =>
  match dependency with
  | .files details => details.files.resolve tree ⟨"."⟩
  | _ => .ok []

/-- What is shipped with `app`. -/
def shipped : View :=
  .minus (.plus (.configuration "app") (.files (.ofPaths [⟨"./lib/own.jar"⟩, ⟨"doc/a/.."⟩])))
    (.files (.ofPaths [⟨"x/../api.jar"⟩]))

/-- What is shipped is what `app` has beside the file that is provided, however both are written. -/
theorem classpath_algebra_shipped :
    provided.Steady ∧ ∃ found, provided.classpath filesAlone shipped = .ok found ∧
      found.files.map Path.text = ["lib/own.jar", "doc"] ∧
      (∀ leaf ∈ shipped.leaves, ∃ part, provided.classpath filesAlone leaf = .ok part) ∧
      Ordered.Distinct found.files ∧ (∀ path ∈ found.files, path.normalize = path) := by
  have declared : provided.graph.configurations.flatMap Configuration.declared =
      [.resolved (.files ⟨.ofPaths [⟨"lib//./own.jar"⟩, ⟨"lib/../api.jar"⟩], none⟩)] := by cbv
  have steady : provided.Steady := by
    intro configuration present declaration member reached readings depth deep
    have listed := List.mem_flatMap.2 ⟨configuration, present, member⟩
    rw [declared, List.mem_singleton] at listed
    subst listed
    rfl
  have texts : (fun found : Classpath => found.files.map Path.text) <$>
      provided.classpath filesAlone shipped = .ok ["lib/own.jar", "doc"] := by decide +kernel
  obtain ⟨found, comes, listed⟩ := Outcome.map_eq_ok_iff.1 texts
  obtain ⟨leaves, lists, -⟩ := classpath_algebra steady filesAlone
  obtain ⟨distinct, normal, -⟩ := lists shipped found comes
  exact ⟨steady, found, comes, listed, (leaves shipped).1 ⟨found, comes⟩, distinct, normal⟩

end Witness

end Session

end BuildPath
