import BuildPath.Proofs.Classpath.Resolving
import BuildPath.Proofs.Declaration.Coordinates
import BuildPath.Proofs.Path.Inside

/-!
# Modules in the repository

The file of a module is placed below the repository by the parts of its coordinates, as they are
spelled. Coordinates may hold slashes, and a part may be a `..`, so that the file may lie anywhere.
It is in the repository, wherever that is, when the parts lead downwards; they do when no slash is
among them and the name is one that a directory can have (`Layout.module_inside_repository_iff`).
-/

namespace BuildPath

/-- The texts that a module is given by. -/
def ModuleDependency.parts (details : ModuleDependency) : List String :=
  details.group.toList ++ [details.name] ++ details.version.toList ++ details.classifier.toList ++
    details.extension.toList

namespace Coordinates

/-- A part is spelled by the characters that it is. -/
theorem Form.toList_of_part {segment : List Char} {text : String}
    (spelled : part segment = some text) : text.toList = segment := by
  cases segment with
  | nil => cases spelled
  | cons first rest =>
    cases spelled
    exact String.toList_ofList

/-- Every part of the module that a form says stands in the form. -/
theorem Form.subset_of_mem_parts {form : Form} {text : String}
    (member : text ∈ form.details.parts) : text.toList ⊆ form.text := by
  have among {segment : List Char} (given : segment ∈ form.segments) : segment ⊆ form.text :=
    fun character inside => List.mem_append_left _ (Text.subset_join given inside)
  simp only [ModuleDependency.parts, details, List.mem_append, List.mem_singleton,
    Option.mem_toList] at member
  rcases member with (((member | rfl) | member) | member) | member
  · rw [toList_of_part member]
    exact among (by simp [segments])
  · rw [String.toList_ofList]
    exact among (by simp [segments])
  · rw [toList_of_part member]
    exact among (by simp [segments])
  · obtain ⟨segment, given, spelled⟩ := Option.bind_eq_some_iff.1 member
    rw [toList_of_part spelled]
    exact among (by simp [segments, given])
  · obtain ⟨segment, given, spelled⟩ := Option.bind_eq_some_iff.1 member
    rw [toList_of_part spelled, Form.text, given]
    exact fun character inside => List.mem_append_right _ (List.mem_cons_of_mem _ inside)

/-- The parts of a module are in the text that it was parsed from, and its name is not empty. -/
theorem parts_of_parse {text : String} {details : ModuleDependency}
    (parsed : parse text = .ok details) :
    (∀ part ∈ details.parts, part.toList ⊆ text.toList) ∧ details.name ≠ "" := by
  have read : module? text.toList = .ok details := Outcome.mapError_eq_ok_iff.1 parsed
  obtain ⟨form, ⟨legible, before, after, whole, -⟩, rfl⟩ := module?_eq_ok_iff.1 read
  constructor
  · intro part member character inside
    rw [whole]
    exact List.mem_append_left _ (List.mem_append_right _ (Form.subset_of_mem_parts member inside))
  · intro nameless
    exact legible.named (String.ofList_eq_empty_iff.1 nameless)

end Coordinates

namespace Layout

/-- Where the file of a module lies from the repository. -/
def fromRepository (details : ModuleDependency) : Path :=
  (directories details).foldl (· / ·) (Path.mk "") / fileName details

variable {details : ModuleDependency}

/-- The file of a module lies where its parts lead from the repository. -/
theorem normalize_modulePath (settings : Settings) (details : ModuleDependency) :
    ((ofSettings settings).modulePath details).normalize =
      (settings.root / settings.repository / fromRepository details).normalize := by
  have repository : (ofSettings settings).repository.normalize =
      (settings.root / settings.repository).normalize := Path.normalize_normalize _
  have placed := Path.normalize_foldl_append (ofSettings settings).repository (directories details)
  have whole := Path.normalize_append_congr placed (Eq.refl (Path.mk (fileName details)).normalize)
  exact (whole.trans (Path.normalize_append_assoc _ _ _)).trans
    (Path.normalize_append_congr repository rfl)

section WithoutSlashes

variable (whole : ∀ part ∈ details.parts, '/' ∉ part.toList)
include whole

/-- The directories of a group lead downwards. -/
theorem descends_of_group {group : String} (given : details.group = some group)
    {piece : List Char} (cut : piece ∈ Text.split '.' group.toList) :
    (Path.mk (String.ofList piece)).Descends := by
  have among : group ∈ details.parts := by simp [ModuleDependency.parts, given]
  refine Path.descends_of_piece ?_ fun climbs => ?_
  · rw [String.toList_ofList]
    exact fun slash => whole group among (Text.subset_of_mem_split cut slash)
  · -- The group was cut at its dots.
    refine Text.separator_not_mem_of_mem_split cut ?_
    rw [← @String.toList_ofList piece, climbs]
    decide

/-- The name of the file leads downwards. -/
theorem descends_fileName (plain : Path.Plain details.name) :
    (Path.mk (fileName details)).Descends := by
  refine Path.descends_of_piece ?_ fun climbs => ?_
  · obtain ⟨group, name, version, classifier, extension⟩ := details
    simp only [ModuleDependency.parts, List.forall_mem_append, List.forall_mem_singleton] at whole
    cases version <;> cases classifier <;> cases extension <;> simp_all [fileName]
  · -- The file is named after the module, and that is more than dots.
    have starts : details.name.toList <+: ['.', '.'] := by
      change details.name.toList <+: "..".toList
      rw [← climbs]
      simp [fileName]
    rcases List.prefix_cons_iff.1 starts with nameless | ⟨rest, dotted, starts⟩
    · exact plain.filled (@String.toList_inj details.name "" |>.1 nameless)
    · rcases List.prefix_cons_iff.1 starts with rfl | ⟨more, rfl, ends⟩
      · exact plain.notCurrent (@String.toList_inj details.name "." |>.1 dotted)
      · rw [List.prefix_nil.1 ends] at dotted
        exact plain.notParent (@String.toList_inj details.name ".." |>.1 dotted)

/-- Without slashes, a module with a proper name leads downwards: a `..` for its version takes back
the name and no more. -/
theorem descends_fromRepository (plain : Path.Plain details.name) :
    (fromRepository details).Descends := by
  have groups : (((details.group.elim [] fun group => (Text.split '.' group.toList).map
      String.ofList).foldl (· / ·) (Path.mk ""))).Descends := by
    refine Path.Descends.foldl (by decide) fun directory member => ?_
    cases given : details.group with
    | none => simp [given] at member
    | some group =>
      rw [given] at member
      obtain ⟨piece, cut, rfl⟩ := List.mem_map.1 member
      exact descends_of_group whole given cut
  have named := groups.append (Path.descends_of_piece plain.whole plain.notParent)
  refine Path.Descends.append ?_ (descends_fileName whole plain)
  rw [directories, List.foldl_append, List.foldl_append]
  cases given : details.version with
  | none => exact named
  | some version =>
    have clean : '/' ∉ version.toList := whole version (by simp [ModuleDependency.parts, given])
    by_cases climbs : version = ".."
    · subst climbs
      exact (Path.descends_congr (Path.normalize_append_parent plain)).2 groups
    · exact named.append (Path.descends_of_piece clean climbs)

end WithoutSlashes

/-- Where the files of modules lie. A module that was parsed from a text has one file unless it is
excluded, and that lies inside the repository under every settings exactly when its parts lead
downwards from there. They do when the text has no slash and the name is neither `.` nor `..`. -/
theorem module_inside_repository_iff {text : String}
    (parsed : Coordinates.parse text = .ok details) :
    ((∀ (settings : Settings) (tree : FileTree) (excludes : List ExcludeRule),
      (∀ rule ∈ excludes, rule.excludes details.group details.name = false) →
      ∃ file, (ofSettings settings).resolve tree (.externalModule details) excludes = .ok [file] ∧
        file.normalize.Inside (settings.resolve settings.repository)) ↔
      (fromRepository details).Descends) ∧
    ('/' ∉ text.toList → details.name ≠ "." → details.name ≠ ".." →
      (fromRepository details).Descends) := by
  obtain ⟨parts, named⟩ := Coordinates.parts_of_parse parsed
  refine ⟨⟨fun stays => ?_, fun descends settings tree excludes kept => ?_⟩,
    fun whole notCurrent notParent => ?_⟩
  · -- Any directory can be the repository.
    refine Path.descends_iff_forall_inside.2 fun base => ?_
    have free : ∀ rule ∈ ([] : List ExcludeRule),
        rule.excludes details.group details.name = false := by simp
    obtain ⟨file, resolved, inside⟩ :=
      stays { root := base, repository := ⟨""⟩ } ⟨[], []⟩ [] free
    cases (resolve_of_not_excludes free).symm.trans resolved
    have here := Path.normalize_append_empty base
    rw [normalize_modulePath, Path.normalize_append_congr here rfl, Settings.resolve, here]
      at inside
    exact inside
  · refine ⟨_, resolve_of_not_excludes kept, ?_⟩
    rw [normalize_modulePath]
    exact Path.descends_iff_forall_inside.1 descends _
  · refine descends_fromRepository (fun part member slash => whole (parts part member slash))
      ⟨named, fun slash => whole (parts _ ?_ slash), notCurrent, notParent⟩
    simp [ModuleDependency.parts]

/-- A `..` for the version and dots in the group do not lead out of the repository. -/
theorem module_inside_repository_dotted :
    ∃ details, Coordinates.parse " org..example:lib:..:sources@zip " = .ok details ∧
      ∃ file, (ofSettings { root := ⟨"/work"⟩ }).resolve ⟨[], []⟩ (.externalModule details)
          [⟨some "org", none⟩] = .ok [file] ∧
        file.normalize.Inside ⟨"/work/.repository"⟩ := by
  have parsed : Coordinates.parse " org..example:lib:..:sources@zip " =
      .ok (.ofCoordinates "org..example" "lib" ".." "sources" "zip") := by rfl
  have inside := module_inside_repository_iff parsed
  have descends := inside.2 (by decide) (by decide) (by decide)
  exact ⟨_, parsed, inside.1.2 descends { root := ⟨"/work"⟩ } ⟨[], []⟩ _ (by decide)⟩

/-- A slash at the start of the group leads anywhere. -/
theorem module_outside_repository :
    ∃ details, Coordinates.parse "/etc:passwd:1" = .ok details ∧
      (ofSettings { root := ⟨"/work"⟩ }).resolve ⟨[], []⟩ (.externalModule details) [] =
        .ok [⟨"/etc/passwd/1/passwd-1.jar"⟩] ∧
      Settings.resolve { root := ⟨"/work"⟩ } ⟨".repository"⟩ = ⟨"/work/.repository"⟩ ∧
      ¬ (Path.mk "/etc/passwd/1/passwd-1.jar").normalize.Inside ⟨"/work/.repository"⟩ := by
  refine ⟨.ofCoordinates "/etc" "passwd" "1" none none, by rfl, by rfl, by rfl, by decide +kernel⟩

end Layout

end BuildPath
