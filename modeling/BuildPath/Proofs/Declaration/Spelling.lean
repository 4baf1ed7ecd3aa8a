import BuildPath.Manifest.Value
import BuildPath.Proofs.Declaration.Coordinates

/-!
# Ways to spell a module

The five parts of a module can be written as one coordinate text, as parts of their own, or as the
members of a JSON object. An empty part may be written or left out, and a member of an object may be
null instead. However that is done, all three are parsed alike (`Notation.spellings_agree`).
-/

namespace BuildPath

/-- The parts of a module as texts. An empty text stands for no part. -/
structure Wording where
  group : String
  name : String
  version : String
  classifier : String
  extension : String

namespace Wording

/-- Parts without white space and without what separates the parts of coordinates. -/
def Plain (wording : Wording) : Prop :=
  ∀ part ∈ [wording.group, wording.name, wording.version, wording.classifier, wording.extension],
    ∀ character ∈ part.toList,
      character ≠ ':' ∧ character ≠ '@' ∧ Text.isBlank character = false

/-- A part that is given, unless it is empty. -/
def present (part : String) : Option String :=
  if part = "" then none else some part

/-- The module of these parts. -/
def details (wording : Wording) : ModuleDependency where
  group := present wording.group
  name := wording.name
  version := present wording.version
  classifier := present wording.classifier
  extension := present wording.extension
  transitive := true
  excludes := []
  reason := none

/-- A part that is written, or left out if it is empty. -/
inductive Given (part : String) : Option String → Prop
  | written : Given part (some part)
  | omitted (empty : part = "") : Given part none

/-- A part that is a member of an object, or null or no member if it is empty. -/
inductive Held (part : String) : Option Json → Prop
  | written : Held part (some (.string part))
  | null (empty : part = "") : Held part (some .null)
  | omitted (empty : part = "") : Held part none

/-- The parts as a coordinate text. An empty classifier or extension may be left out together with
what would stand before it. -/
def InCoordinates (wording : Wording) (text : String) : Prop :=
  ∃ classifier extension, Given wording.classifier classifier ∧ Given wording.extension extension ∧
    text = wording.group ++ ":" ++ wording.name ++ ":" ++ wording.version ++
      classifier.elim "" (":" ++ ·) ++ extension.elim "" ("@" ++ ·)

/-- The parts on their own. Any but the name may be left out if it is empty. -/
structure InParts (wording : Wording) (parts : ModuleParts) : Prop where
  group : Given wording.group parts.group
  name : parts.name = wording.name
  version : Given wording.version parts.version
  classifier : Given wording.classifier parts.classifier
  extension : Given wording.extension parts.extension

/-- The parts as members of an object that is told apart by its name. Any but the name may be null
or left out if it is empty. -/
structure InObject (wording : Wording) (members : List (String × Json)) : Prop where
  group : Held wording.group (Json.member? members "group")
  name : Json.member? members "name" = some (.string wording.name)
  version : Held wording.version (Json.member? members "version")
  classifier : Held wording.classifier (Json.member? members "classifier")
  extension : Held wording.extension (Json.member? members "extension")
  project : Json.member? members "project" = none
  files : Json.member? members "files" = none

variable {wording : Wording} {part text : String} {given : Option String}
  {members : List (String × Json)} {parts : ModuleParts} {project : DeclaringProject}

/-- The part that the characters of a text are is that text, if it is not empty. -/
theorem part_toList (part : String) : Coordinates.Form.part part.toList = present part := by
  unfold present
  split
  next empty => rw [empty]; rfl
  next present =>
    cases characters : part.toList with
    | nil => exact absurd (String.toList_eq_nil_iff.1 characters) present
    | cons first rest =>
      refine congrArg some ?_
      rw [← characters, String.ofList_toList]

section Given

variable (shown : Given part given)
include shown

/-- A given part that is not empty is present. -/
theorem Given.nonEmpty_eq : ModuleParts.nonEmpty given = present part := by
  cases shown with
  | written => by_cases empty : part = "" <;> simp [ModuleParts.nonEmpty, present, empty]
  | omitted empty => rw [empty]; rfl

/-- So it is by its characters. -/
theorem Given.bind_part : (given.map String.toList).bind Coordinates.Form.part = present part := by
  cases shown with
  | written => exact part_toList part
  | omitted empty => rw [empty]; rfl

/-- The characters of a given part are those of the part. -/
theorem Given.eq_of_mem {characters : List Char} (member : characters ∈ given.map String.toList) :
    characters = part.toList := by
  cases shown with
  | written => exact (Option.mem_some_iff.1 member).symm
  | omitted empty => contradiction

end Given

/-- The text under a key is the part that the object holds there. -/
theorem Held.textMember {key : String} (held : Held part (Json.member? members key)) :
    ∃ given, Notation.textMember members key = .ok given ∧ Given part given := by
  unfold Notation.textMember
  generalize Json.member? members key = found at held ⊢
  cases held with
  | written => exact ⟨some part, rfl, .written⟩
  | null empty => exact ⟨none, rfl, .omitted empty⟩
  | omitted empty => exact ⟨none, rfl, .omitted empty⟩

/-- The form of a coordinate text, by what was given of its last parts. -/
def form (wording : Wording) (classifier extension : Option String) : Coordinates.Form where
  group := wording.group.toList
  name := wording.name.toList
  version := wording.version.toList
  classifier := classifier.map String.toList
  extension := extension.map String.toList

section Form

variable {classifier extension : Option String} (classified : Given wording.classifier classifier)
  (extended : Given wording.extension extension)
include classified extended

/-- The form of plain parts can be read, except for a missing name. -/
theorem Plain.separated (plain : wording.Plain) :
    (wording.form classifier extension).Separated := by
  have segments : ∀ segment ∈ (wording.form classifier extension).segments,
      ∀ character ∈ segment,
        character ≠ ':' ∧ character ≠ '@' ∧ Text.isBlank character = false := by
    intro segment member
    obtain rfl | rfl | rfl | member : segment = wording.group.toList ∨
        segment = wording.name.toList ∨ segment = wording.version.toList ∨
        segment ∈ classifier.map String.toList := by
      simpa [Coordinates.Form.segments, form] using member
    · exact plain wording.group (by simp)
    · exact plain wording.name (by simp)
    · exact plain wording.version (by simp)
    · rw [classified.eq_of_mem member]
      exact plain wording.classifier (by simp)
  refine ⟨fun segment member character inside => ?_, fun after given => ?_, ?_⟩
  · obtain ⟨colon, -, clean⟩ := segments segment member character inside
    exact ⟨colon, clean⟩
  · rw [extended.eq_of_mem given]
    exact plain wording.extension (by simp)
  · exact fun _ segment member inside => (segments segment member '@' inside).2.1 rfl

/-- The form says the module of the parts. -/
theorem details_form : (wording.form classifier extension).details = wording.details := by
  simp only [Coordinates.Form.details, form, part_toList, classified.bind_part, extended.bind_part,
    String.ofList_toList, details]

end Form

/-- The form of a coordinate text is what its characters are. -/
theorem toList_coordinates (wording : Wording) (classifier extension : Option String) :
    (wording.group ++ ":" ++ wording.name ++ ":" ++ wording.version ++
      classifier.elim "" (":" ++ ·) ++ extension.elim "" ("@" ++ ·)).toList =
      (wording.form classifier extension).text := by
  rw [Coordinates.Form.text, Coordinates.Form.join_segments]
  cases classifier <;> cases extension <;> simp [form]

/-- A coordinate text of plain parts is malformed only if the name is missing. -/
theorem InCoordinates.parse (coordinates : wording.InCoordinates text) (plain : wording.Plain) :
    (Notation.coordinates text).parse project =
      if wording.name = "" then .failed (.malformed (Text.quoted text) .missingModuleName)
      else .done (.externalModule wording.details) := by
  obtain ⟨classifier, extension, classified, extended, rfl⟩ := coordinates
  have separated := plain.separated classified extended
  have written := toList_coordinates wording classifier extension
  have read := separated.module?_eq (Text.trim_of_clean separated.clean)
  have nameless : (wording.form classifier extension).name.isEmpty = true ↔ wording.name = "" := by
    rw [List.isEmpty_iff]
    exact String.toList_eq_nil_iff
  rw [Notation.parse_coordinates, Coordinates.parse, written, read,
    details_form classified extended, if_congr nameless rfl rfl]
  split <;> rfl

/-- Plain parts on their own are malformed only if the name is missing. -/
theorem InParts.parse (written : wording.InParts parts) (plain : wording.Plain) :
    (Notation.parts parts).parse project =
      if wording.name = "" then .failed (.malformed parts.shown .missingModuleName)
      else .done (.externalModule wording.details) := by
  have clean : ∀ character ∈ parts.name.toList, Text.isBlank character = false := by
    rw [written.name]
    exact fun character inside => (plain wording.name (by simp) character inside).2.2
  have read : parts.parse = if wording.name = "" then
      .error (.malformed parts.shown .missingModuleName) else .ok wording.details := by
    rw [ModuleParts.parse, Text.trim_of_clean clean, written.group.nonEmpty_eq,
      written.version.nonEmpty_eq, written.classifier.nonEmpty_eq, written.extension.nonEmpty_eq,
      written.name]
    refine if_congr ?_ rfl rfl
    rw [List.isEmpty_iff, String.toList_eq_nil_iff]
  rw [Notation.parse, Notation.parseAll, Notation.declare, read]
  split <;> rfl

/-- An object with the parts as members stands for them. -/
theorem InObject.ofJson (object : wording.InObject members) :
    ∃ parts, Notation.ofJson (.object members) = .ok (.parts parts) ∧ wording.InParts parts := by
  obtain ⟨group, foundGroup, givenGroup⟩ := object.group.textMember
  obtain ⟨version, foundVersion, givenVersion⟩ := object.version.textMember
  obtain ⟨classifier, foundClassifier, givenClassifier⟩ := object.classifier.textMember
  obtain ⟨extension, foundExtension, givenExtension⟩ := object.extension.textMember
  have noProject : Notation.textMember members "project" = .ok none := by
    rw [Notation.textMember, object.project]
  have named : Notation.textMember members "name" = .ok (some wording.name) := by
    rw [Notation.textMember, object.name]
  refine ⟨⟨group, wording.name, version, classifier, extension⟩, ?_, givenGroup, rfl, givenVersion,
    givenClassifier, givenExtension⟩
  rw [Notation.ofJson, Notation.ofMembers, noProject, named, object.files, foundGroup, foundVersion,
    foundClassifier, foundExtension]
  rfl

end Wording

namespace Notation

/-- However the parts of a module are spelled, as a coordinate text, on their own or as the members
of an object: if they are plain, they are parsed to the same module, or else the name is missing and
all three are malformed. -/
theorem spellings_agree {wording : Wording} {text : String} {parts : ModuleParts}
    {members : List (String × Json)} (plain : wording.Plain)
    (coordinates : wording.InCoordinates text) (separate : wording.InParts parts)
    (object : wording.InObject members) (project : DeclaringProject) :
    ∃ converted, ofJson (.object members) = .ok converted ∧
      let spellings : List Notation := [.coordinates text, .parts parts, converted]
      (wording.name ≠ "" ∧ ∀ written ∈ spellings,
          written.parse project = .done (.externalModule wording.details)) ∨
        (wording.name = "" ∧ ∀ written ∈ spellings, ∃ shown malformation,
          written.parse project = .failed (.malformed shown malformation)) := by
  obtain ⟨converted, read, given⟩ := object.ofJson
  refine ⟨.parts converted, read, ?_⟩
  simp only [List.forall_mem_cons, coordinates.parse plain, separate.parse plain, given.parse plain]
  by_cases nameless : wording.name = ""
  · exact .inr ⟨nameless, by simp [nameless]⟩
  · exact .inl ⟨nameless, by simp [nameless]⟩

/-- A module without a version and a classifier, spelled in three ways. -/
theorem spellings_agree_unversioned :
    let members : List (String × Json) := [("classifier", .null), ("extension", .string "jar"),
      ("group", .string "org"), ("name", .string "lib")]
    let wording : Wording := ⟨"org", "lib", "", "", "jar"⟩
    wording.Plain ∧ wording.InCoordinates "org:lib::@jar" ∧
      wording.InParts ⟨"org", "lib", none, "", "jar"⟩ ∧ wording.InObject members ∧
      ∃ converted, ofJson (.object members) = .ok converted ∧
        ∀ written ∈ [.coordinates "org:lib::@jar",
            .parts ⟨"org", "lib", none, "", "jar"⟩, converted],
          written.parse .root =
            .done (.externalModule (.ofCoordinates "org" "lib" none none "jar")) := by
  intro members wording
  have plain : wording.Plain := by
    simp [Wording.Plain, wording, Text.isBlank]
  have coordinates : wording.InCoordinates "org:lib::@jar" :=
    ⟨some "", some "jar", .written, .written, by decide⟩
  have parts : wording.InParts ⟨"org", "lib", none, "", "jar"⟩ :=
    ⟨.written, rfl, .omitted rfl, .written, .written⟩
  have object : wording.InObject members :=
    ⟨.written, rfl, .omitted rfl, .null rfl, .written, rfl, rfl⟩
  refine ⟨plain, coordinates, parts, object, ?_⟩
  obtain ⟨converted, read, ⟨-, parsed⟩ | ⟨nameless, -⟩⟩ :=
    spellings_agree plain coordinates parts object .root
  · exact ⟨converted, read, parsed⟩
  · exact absurd nameless (by decide)

end Notation

end BuildPath
