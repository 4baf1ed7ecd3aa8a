import BuildPath.Proofs.Classpath.Algebra
import BuildPath.Proofs.Classpath.Resolving
import BuildPath.Proofs.Path.Canonical
import Mathlib

/-!
# Modules by their files

The file of a module is named after the module, its version and its classifier, with dashes between
them, all of which may hold dashes and dots themselves: one file name can stand for many modules.
But the name and the version are directories as well, and so they can be read off the place of the
file, and with them known the rest of its name can be read (`Layout.fileName_inj`). Modules whose
parts name directories therefore have one file only if they have the same coordinates
(`Layout.file_eq_iff`), and classpaths that are composed by files come out as if they were composed
by coordinates (`Layout.modules_kept_apart`).
-/

namespace BuildPath

namespace ModuleDependency

/-- A module whose parts name directories and files: it has a version, and the pieces of its group
that are separated by dots, its name and its version can each be the name of a directory. -/
structure Proper (details : ModuleDependency) : Prop where
  group : ∀ group, details.group = some group →
    ∀ piece ∈ Text.split '.' group.toList, piece ≠ [] ∧ '/' ∉ piece
  name : Path.Plain details.name
  version : ∃ version, details.version = some version ∧ Path.Plain version
  classifier : ∀ classifier, details.classifier = some classifier → '/' ∉ classifier.toList
  extension : ∀ extension, details.extension = some extension →
    '/' ∉ extension.toList ∧ '.' ∉ extension.toList

/-- What makes a module proper, part by part. -/
theorem proper_iff {details : ModuleDependency} : details.Proper ↔
    (∀ group ∈ details.group, ∀ piece ∈ Text.split '.' group.toList, piece ≠ [] ∧ '/' ∉ piece) ∧
    Path.Plain details.name ∧ (∃ version ∈ details.version, Path.Plain version) ∧
    (∀ classifier ∈ details.classifier, '/' ∉ classifier.toList) ∧
    ∀ extension ∈ details.extension, '/' ∉ extension.toList ∧ '.' ∉ extension.toList :=
  ⟨fun ⟨group, name, version, classifier, extension⟩ =>
      ⟨group, name, version, classifier, extension⟩,
    fun ⟨group, name, version, classifier, extension⟩ =>
      ⟨group, name, version, classifier, extension⟩⟩

instance (details : ModuleDependency) : Decidable details.Proper :=
  decidable_of_iff' _ proper_iff

/-- What a module is told apart by: its coordinates, where an absent extension is that of archives.
-/
def coordinates (details : ModuleDependency) :
    Option String × String × Option String × Option String × String :=
  (details.group, details.name, details.version, details.classifier, details.extension.getD "jar")

/-- Whether a rule excludes a module. -/
def excluded (details : ModuleDependency) (excludes : List ExcludeRule) : Bool :=
  excludes.any (·.excludes details.group details.name)

end ModuleDependency

namespace Layout

variable {details left right : ModuleDependency}

/-- The normalized file of a module. -/
def file (layout : Layout) (details : ModuleDependency) : Path :=
  (layout.modulePath details).normalize

/-- The directories of a group. -/
def groupDirectories (group : Option String) : List String :=
  group.elim [] fun group => (Text.split '.' group.toList).map String.ofList

/-- Groups are told apart by their directories. -/
theorem groupDirectories_injective : Function.Injective groupDirectories := by
  have filled (group : String) : groupDirectories (some group) ≠ [] :=
    mt List.map_eq_nil_iff.1 (Text.split_ne_nil '.' group.toList)
  have spelled : Function.Injective String.ofList := fun _ _ => String.ofList_injective
  intro left right same
  cases left with
  | none =>
    cases right with
    | none => rfl
    | some group => exact absurd same.symm (filled group)
  | some group =>
    cases right with
    | none => exact absurd same (filled group)
    | some other =>
      have pieces := List.map_injective_iff.2 spelled same
      have texts := congrArg (Text.join '.') pieces
      rw [Text.join_split, Text.join_split, String.toList_inj] at texts
      rw [texts]

/-- The name of a file, by its characters. -/
theorem toList_fileName {version : String} (given : details.version = some version) :
    (fileName details).toList = (details.name.toList ++ '-' :: version.toList ++
      details.classifier.elim [] fun classifier => '-' :: classifier.toList) ++
        '.' :: (details.extension.getD "jar").toList := by
  cases classified : details.classifier <;> simp [fileName, given, classified]

/-- An extension that a proper module has, or that of archives, has no dot. -/
theorem dot_not_mem_extension (proper : details.Proper) :
    '.' ∉ (details.extension.getD "jar").toList := by
  cases given : details.extension with
  | none => decide
  | some extension => exact (proper.extension extension given).2

/-- When the name and the version are known, the rest is read off the name of the file. -/
theorem fileName_inj (proper : left.Proper) (other : right.Proper) (named : left.name = right.name)
    (versioned : left.version = right.version) : fileName left = fileName right ↔
      left.classifier = right.classifier ∧
        left.extension.getD "jar" = right.extension.getD "jar" := by
  obtain ⟨version, given, -⟩ := proper.version
  rw [← String.toList_inj, toList_fileName given, toList_fileName (versioned ▸ given), named,
    Text.append_last_inj (dot_not_mem_extension proper) (dot_not_mem_extension other),
    List.append_right_inj, String.toList_inj]
  refine and_congr_left fun _ => ?_
  cases left.classifier <;> cases right.classifier <;> simp [String.toList_inj]

/-- Where the file of a module is placed, name by name. -/
def placement (details : ModuleDependency) : List String :=
  directories details ++ [fileName details]

/-- A file is placed below the group, the name and the version of its module. -/
theorem placement_eq {version : String} (given : details.version = some version) :
    placement details =
      groupDirectories details.group ++ [details.name, version, fileName details] := by
  simp [placement, directories, groupDirectories, given]

/-- The name of a file can stand in a directory. -/
theorem plain_fileName (proper : details.Proper) : Path.Plain (fileName details) := by
  obtain ⟨version, given, plain⟩ := proper.version
  -- The dash before the version makes it more than dots.
  refine @Path.plain_of_mem _ '-' ?_ ?_ (by decide)
  · have whole : '/' ∉ (details.extension.getD "jar").toList := by
      cases extended : details.extension with
      | none => decide
      | some extension => exact (proper.extension extension extended).1
    have named := proper.name.whole
    have versioned := plain.whole
    rw [toList_fileName given]
    cases classified : details.classifier with
    | none => simp_all
    | some classifier =>
      have clean := proper.classifier classifier classified
      simp_all
  · rw [toList_fileName given]
    simp

/-- All that leads to the file of a proper module are names of directories. -/
theorem plain_of_mem_placement (proper : details.Proper) :
    ∀ name ∈ placement details, Path.Plain name := by
  obtain ⟨version, given, plain⟩ := proper.version
  rw [placement_eq given, List.forall_mem_append]
  refine ⟨?_, by simp [proper.name, plain, plain_fileName proper]⟩
  cases grouped : details.group with
  | none => exact nofun
  | some group =>
    intro directory member
    obtain ⟨piece, cut, rfl⟩ := List.mem_map.1 member
    obtain ⟨filled, whole⟩ := proper.group group grouped piece cut
    obtain ⟨character, rest, rfl⟩ := List.exists_cons_of_ne_nil filled
    -- The group was cut at its dots.
    have undotted : character ≠ '.' := fun dotted =>
      Text.separator_not_mem_of_mem_split cut (dotted ▸ List.mem_cons_self)
    refine Path.plain_of_mem ?_ ?_ undotted <;> rw [String.toList_ofList]
    · exact whole
    · exact List.mem_cons_self

/-- Proper modules are placed alike when they have the same coordinates. -/
theorem placement_inj (proper : left.Proper) (other : right.Proper) :
    placement left = placement right ↔ left.coordinates = right.coordinates := by
  obtain ⟨version, given, -⟩ := proper.version
  obtain ⟨edition, known, -⟩ := other.version
  simp only [placement_eq given, placement_eq known, ModuleDependency.coordinates, Prod.mk.injEq]
  constructor
  · intro same
    obtain ⟨grouped, places⟩ := List.append_inj' same rfl
    obtain ⟨named, places⟩ := List.cons.inj places
    obtain ⟨rfl, files⟩ := List.cons.inj places
    have versioned := given.trans known.symm
    have filed := (fileName_inj proper other named versioned).1 (List.cons.inj files).1
    exact ⟨groupDirectories_injective grouped, named, versioned, filed⟩
  · rintro ⟨grouped, named, versioned, filed⟩
    have spelled := (fileName_inj proper other named versioned).2 filed
    rw [given, known, Option.some.injEq] at versioned
    rw [grouped, named, versioned, spelled]

/-- Proper modules have one file in a layout when they have the same coordinates. -/
theorem file_eq_iff (layout : Layout) (proper : left.Proper) (other : right.Proper) :
    layout.file left = layout.file right ↔ left.coordinates = right.coordinates := by
  have placed (details : ModuleDependency) :
      layout.modulePath details = (placement details).foldl (· / ·) layout.repository := by
    rw [placement, List.foldl_append]
    rfl
  rw [file, file, placed, placed, Path.normalize_foldl_plain_iff (plain_of_mem_placement proper)
    (plain_of_mem_placement other), placement_inj proper other]

/-- Files of modules are normalized, so that they are equal as paths only if they are the same. -/
theorem file_beq_file_iff (layout : Layout) (details other : ModuleDependency) :
    (layout.file details == layout.file other) = true ↔ layout.file details = layout.file other :=
  ⟨fun same => Path.eq_of_beq_of_normal same (Path.normal_normalize _) (Path.normal_normalize _),
    fun same => same ▸ BEq.rfl⟩

/-- The files of proper modules are compared as their coordinates are. -/
theorem beq_components_file (layout : Layout) (left right : ModuleDependency)
    (proper : left.Proper) (other : right.Proper) :
    ((layout.file left).components == (layout.file right).components) =
      (left.coordinates == right.coordinates) := by
  rw [Bool.eq_iff_iff, ← Path.beq_eq, file_beq_file_iff, file_eq_iff layout proper other,
    beq_iff_eq]

/-- A module is resolved to its file, if no rule excludes it. -/
theorem resolve_externalModule (layout : Layout) (tree : FileTree) (details : ModuleDependency)
    (excludes : List ExcludeRule) : layout.resolve tree (.externalModule details) excludes =
      .ok (if details.excluded excludes then [] else [layout.modulePath details]) := by
  rw [resolve, ModuleDependency.excluded]
  split <;> rfl

/-- What is resolved of modules comes to the files of those that no rule excludes. -/
theorem filesUnder_modules (layout : Layout) (tree : FileTree) (modules : List ModuleDependency)
    (excludes : List ExcludeRule) :
    View.filesUnder layout.resolve tree (modules.map .externalModule) excludes =
      .ok (Ordered.distinctBy Path.components
        ((modules.filter fun details => !details.excluded excludes).map layout.file)) := by
  have files : (modules.map fun details => if details.excluded excludes then []
      else [layout.modulePath details]).flatten.map Path.normalize =
        (modules.filter fun details => !details.excluded excludes).map layout.file := by
    induction modules with
    | nil => rfl
    | cons details modules ih =>
      rw [List.map_cons, List.flatten_cons, List.map_append, ih, List.filter_cons]
      cases details.excluded excludes <;> rfl
  have resolved : modules.mapM ((fun dependency => layout.resolve tree dependency excludes) ∘
      Dependency.externalModule) = .ok (modules.map fun details =>
        if details.excluded excludes then [] else [layout.modulePath details]) :=
    Outcome.mapM_eq_ok_map fun details _ => resolve_externalModule layout tree details excludes
  rw [View.filesUnder, List.mapM_map, resolved]
  exact congrArg (fun paths => Except.ok (Ordered.distinctBy Path.components paths)) files

end Layout

namespace View

mutual

/-- The modules of a view of configurations, where each configuration asks for some: composed by
coordinates as the view composes files. -/
def modules (layout : Layout) (asked : String → List ModuleDependency) :
    View → List ModuleDependency
  | .configuration name => Ordered.distinctBy ModuleDependency.coordinates (asked name)
  | .files _ => []
  | .union views => Ordered.distinctBy ModuleDependency.coordinates (modulesEach layout asked views)
  | .minus base subtrahend =>
    let removed := (subtrahend.modules layout asked).map ModuleDependency.coordinates
    (base.modules layout asked).filter fun details => !removed.contains details.coordinates
  | .filter view keeps => (view.modules layout asked).filter fun details =>
    keeps (layout.file details)

/-- The modules of several views, one after the other. -/
def modulesEach (layout : Layout) (asked : String → List ModuleDependency) :
    List View → List ModuleDependency
  | [] => []
  | view :: views => view.modules layout asked ++ modulesEach layout asked views

end

/-- The modules of several views are those of each. -/
theorem modulesEach_eq (layout : Layout) (asked : String → List ModuleDependency)
    (views : List View) : modulesEach layout asked views =
      views.flatMap (modules layout asked) := by
  induction views with
  | nil => rfl
  | cons first rest ih => rw [modulesEach, ih, List.flatMap_cons]

end View

namespace Session

/-- A configuration depends on modules alone, and these are the ones that no rule excludes. -/
def AsksFor (session : Session) (name : String) (modules : List ModuleDependency) : Prop :=
  ∃ (given : List ModuleDependency) (excludes : List ExcludeRule),
    ((readDependencies name).perform session).1 = .ok (given.map .externalModule) ∧
    session.graph.effectiveExcludes name = .ok excludes ∧
    modules = given.filter fun details => !details.excluded excludes

/-- A view of configurations that ask for proper modules. -/
def ViewsModules (session : Session) (asked : String → List ModuleDependency) (view : View) :
    Prop :=
  ∀ leaf ∈ view.leaves, ∃ name, leaf = .configuration name ∧ session.AsksFor name (asked name) ∧
    ∀ details ∈ asked name, details.Proper

variable {session : Session} {layout : Layout} {asked : String → List ModuleDependency}

/-- The members of a union view modules if the union does. -/
theorem ViewsModules.of_mem {members : List View}
    (views : session.ViewsModules asked (.union members)) :
    ∀ view ∈ members, session.ViewsModules asked view := fun view present leaf inside =>
  views leaf (View.mem_leavesEach.2 ⟨view, present, inside⟩)

/-- Both sides of a difference view modules if the difference does. -/
theorem ViewsModules.of_minus {base subtrahend : View}
    (views : session.ViewsModules asked (.minus base subtrahend)) :
    session.ViewsModules asked base ∧ session.ViewsModules asked subtrahend :=
  List.forall_mem_append.1 views

/-- The modules of a view are among those that its configurations ask for. -/
theorem ViewsModules.proper {view : View} (views : session.ViewsModules asked view) :
    ∀ details ∈ view.modules layout asked, details.Proper := by
  induction view using View.induction with
  | configuration name =>
    obtain ⟨_, ⟨⟩, -, proper⟩ := views _ (List.mem_singleton_self _)
    exact fun details member => proper details ((Ordered.distinctFrom_sublist _ _).subset member)
  | files set => exact nofun
  | union members each =>
    intro details member
    have among := (Ordered.distinctFrom_sublist _ _).subset member
    rw [View.modulesEach_eq] at among
    obtain ⟨view, present, member⟩ := List.mem_flatMap.1 among
    exact each view present (views.of_mem view present) details member
  | minus base subtrahend whole removed =>
    intro details member
    exact whole views.of_minus.1 details (List.mem_filter.1 member).1
  | filter view keeps whole =>
    intro details member
    exact whole views details (List.mem_filter.1 member).1

section Steady

variable (steady : session.Steady)
include steady

/-- A configuration that asks for modules has their files for a classpath. -/
theorem Steady.classpath_of_asksFor {name : String} {modules : List ModuleDependency}
    (asks : session.AsksFor name modules) :
    session.classpath layout.resolve (.configuration name) =
      .ok ⟨Ordered.distinctBy Path.components (modules.map layout.file)⟩ := by
  obtain ⟨given, excludes, read, rules, rfl⟩ := asks
  have files := layout.filesUnder_modules session.tree given excludes
  obtain ⟨resolved, each, listed⟩ := Outcome.bind_eq_ok_iff.1 files
  exact steady.classpath_configuration_eq_ok_iff.2
    ⟨_, excludes, resolved, read, rules, each, (Except.ok.inj listed).symm⟩

/-- A view of configurations that ask for proper modules has the files of its modules for a
classpath. -/
theorem Steady.classpath_eq_of_viewsModules {view : View}
    (views : session.ViewsModules asked view) :
    session.classpath layout.resolve view = .ok ⟨(view.modules layout asked).map layout.file⟩ := by
  induction view using View.induction with
  | configuration name =>
    obtain ⟨_, ⟨⟩, asks, proper⟩ := views _ (List.mem_singleton_self _)
    rw [steady.classpath_of_asksFor asks,
      Ordered.distinctBy_map layout.beq_components_file proper]
    rfl
  | files set =>
    obtain ⟨_, ⟨⟩, -⟩ := views _ (List.mem_singleton_self _)
  | union members each =>
    have found : members.mapM (session.classpath layout.resolve) =
        .ok (members.map fun view => ⟨(view.modules layout asked).map layout.file⟩) :=
      Outcome.mapM_eq_ok_map fun view present => each view present (views.of_mem view present)
    refine steady.classpath_union_eq_ok_iff.2 ⟨_, found, Path.firstMentions_iff.2 ?_⟩
    have proper : ∀ details ∈ members.flatMap (View.modules layout asked), details.Proper := by
      intro details member
      obtain ⟨view, present, member⟩ := List.mem_flatMap.1 member
      exact (views.of_mem view present).proper details member
    rw [List.flatMap_map, ← List.map_flatMap, View.modules, View.modulesEach_eq,
      Ordered.distinctBy_map layout.beq_components_file proper]
  | minus base subtrahend whole removed =>
    obtain ⟨views, others⟩ := views.of_minus
    refine steady.classpath_minus_eq_ok_iff.2 ⟨_, _, whole views, removed others, ?_⟩
    rw [View.modules, List.filter_map]
    refine congrArg (fun modules => Classpath.mk (modules.map layout.file))
      (List.filter_congr fun details member => congrArg not ?_)
    exact (Ordered.contains_map_congr layout.beq_components_file others.proper
      (views.proper details member)).symm
  | filter view keeps whole =>
    refine classpath_filter_eq_ok_iff.2 ⟨_, whole views, ?_⟩
    rw [View.modules, List.filter_map]
    rfl

end Steady

end Session

/-- Modules are kept apart by their files. Proper modules that a layout resolves to equal files,
when these are normalized, have the same group, name, version and classifier and the same extension,
an absent one being that of archives. So a classpath that is composed of configurations that ask for
such modules, however, is the one that lists their files after they were composed by coordinates. -/
theorem Layout.modules_kept_apart (layout : Layout) :
    (∀ left right : ModuleDependency, left.Proper → right.Proper →
      ∀ (tree here : FileTree) (excludes rules : List ExcludeRule) (files found : List Path),
        layout.resolve tree (.externalModule left) excludes = .ok files →
        layout.resolve here (.externalModule right) rules = .ok found →
        ∀ file ∈ files, ∀ other ∈ found, (file.normalize == other.normalize) = true ↔
          left.group = right.group ∧ left.name = right.name ∧ left.version = right.version ∧
            left.classifier = right.classifier ∧
            left.extension.getD "jar" = right.extension.getD "jar") ∧
    ∀ (session : Session) (asked : String → List ModuleDependency) (view : View), session.Steady →
      session.ViewsModules asked view →
      session.classpath layout.resolve view =
        .ok ⟨(view.modules layout asked).map layout.file⟩ := by
  refine ⟨fun left right proper other tree here excludes rules files found resolved again => ?_,
    fun session asked view steady views => steady.classpath_eq_of_viewsModules views⟩
  intro file member twin among
  have placed {details : ModuleDependency} {tree : FileTree} {excludes : List ExcludeRule}
      {files : List Path} (resolved : layout.resolve tree (.externalModule details) excludes =
        .ok files) {file : Path} (member : file ∈ files) :
      file.normalize = layout.file details := by
    rw [resolve_of_not_excludes (not_excludes_of_resolve resolved member)] at resolved
    cases resolved
    rw [List.mem_singleton.1 member, Layout.file]
  rw [placed resolved member, placed again among, file_beq_file_iff,
    file_eq_iff layout proper other]
  simp only [ModuleDependency.coordinates, Prod.mk.injEq]

section Witness

/-- A version of a library that has a dash in it. -/
def dashed : ModuleDependency := .ofCoordinates "shop.core" "lib" "1-2" none none

/-- An earlier version of it, and a variant of that. -/
def variant : ModuleDependency := .ofCoordinates "shop.core" "lib" "1" "2" none

/-- A module that a configuration excludes. -/
def generator : ModuleDependency := .ofCoordinates "tools" "gen" "1" none none

/-- A program depends on a library in two versions, one of them named twice, and one of these is
provided, as is a module that is excluded. -/
def shelf : Session :=
  (Session.start (.new {} .root) ⟨[], []⟩).run [
    .edit (.create "app"), .edit (.create "provided"),
    .edit (.add "app" (.bundle [.coordinates "shop.core:lib:1-2", .coordinates "shop.core:lib:1:2",
      .coordinates "shop.core:lib:1-2@jar"]) none),
    .edit (.add "provided" (.bundle [.coordinates "shop.core:lib:1-2", .coordinates "tools:gen:1"])
      none),
    .edit (.exclude "provided" ⟨some "tools", none⟩)]

/-- What the configurations of the session ask for. -/
def shelved (name : String) : List ModuleDependency :=
  if name = "app" then [dashed, variant, { dashed with extension := some "jar" }] else [dashed]

/-- What is packaged of the program. -/
def boxed : View := .minus (.configuration "app") (.configuration "provided")

/-- Two versions of a library whose files have one name are not confused: the one that is provided
is left out, however its coordinates are written, and the other one stays. -/
theorem Layout.modules_kept_apart_dashed :
    dashed.Proper ∧ variant.Proper ∧ Layout.fileName dashed = Layout.fileName variant ∧
    ¬((Layout.ofSettings {}).file dashed == (Layout.ofSettings {}).file variant) = true ∧
    shelf.Steady ∧ shelf.ViewsModules shelved boxed ∧
    ∃ found, shelf.classpath (Layout.ofSettings {}).resolve boxed = .ok found ∧
      found.files.map Path.text = [".repository/shop/core/lib/1/lib-1-2.jar"] := by
  have proper : dashed.Proper ∧ variant.Proper := by decide +kernel
  have steady : shelf.Steady := Session.steady_of_isResolved (by decide +kernel)
  have app : ((Session.readDependencies "app").perform shelf).1 =
      .ok ((shelved "app").map .externalModule) := by cbv
  have provided : ((Session.readDependencies "provided").perform shelf).1 =
      .ok ([dashed, generator].map .externalModule) := by cbv
  have views : shelf.ViewsModules shelved boxed := by
    refine List.forall_mem_cons.2 ⟨⟨"app", rfl, ⟨_, [], app, ?_, ?_⟩, ?_⟩,
      List.forall_mem_singleton.2
        ⟨"provided", rfl, ⟨_, [⟨some "tools", none⟩], provided, ?_, ?_⟩, ?_⟩⟩ <;> decide +kernel
  have apart (layout : Layout) : ¬(layout.file dashed == layout.file variant) = true := by
    have resolved (details : ModuleDependency) :
        layout.resolve ⟨[], []⟩ (.externalModule details) [] = .ok [layout.modulePath details] :=
      rfl
    have alike := (Layout.modules_kept_apart layout).1 dashed variant proper.1 proper.2 _ _ _ _ _ _
      (resolved dashed) (resolved variant) (layout.modulePath dashed) (List.mem_singleton_self _)
      (layout.modulePath variant) (List.mem_singleton_self _)
    rw [Layout.file, Layout.file, alike]
    decide
  have composed := (Layout.modules_kept_apart (.ofSettings {})).2 shelf shelved boxed steady views
  exact ⟨proper.1, proper.2, by decide +kernel, apart (.ofSettings {}), steady, views, _, composed,
    by decide +kernel⟩

end Witness

end BuildPath
