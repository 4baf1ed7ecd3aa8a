import BuildPath.Declaration.Declared
import BuildPath.Proofs.Outcome
import Mathlib.Data.List.TakeWhile
import Mathlib.Tactic.SplitIfs

/-!
# Coordinates and their grammar

A coordinate text is a form, which is three or four segments with a colon between them and maybe an
extension after an at sign, with white space around it. Of such forms the legible ones are read, as
the modules that they say, and everything else is malformed (`Notation.parse_coordinates_iff`).
-/

namespace BuildPath

namespace Coordinates

/-- Coordinates by their parts. The last two may be left out. -/
structure Form where
  group : List Char
  name : List Char
  version : List Char
  classifier : Option (List Char)
  extension : Option (List Char)

namespace Form

/-- What stands between the colons of a form. -/
def segments (form : Form) : List (List Char) :=
  form.group :: form.name :: form.version :: form.classifier.toList

/-- A form as it is written. -/
def text (form : Form) : List Char :=
  Text.join ':' form.segments ++ form.extension.elim [] ('@' :: ·)

/-- The part of a module that some characters are. An empty part is none. -/
def part : List Char → Option String
  | [] => none
  | characters => some (String.ofList characters)

/-- The module that a form says. -/
def details (form : Form) : ModuleDependency where
  group := part form.group
  name := String.ofList form.name
  version := part form.version
  classifier := form.classifier.bind part
  extension := form.extension.bind part
  transitive := true
  excludes := []
  reason := none

/-- A form whose parts can be told apart: they hold no white space and no colon, and no at sign
comes after the one before the extension, or anywhere if there is no extension. -/
structure Separated (form : Form) : Prop where
  segments : ∀ segment ∈ form.segments, ∀ character ∈ segment,
    character ≠ ':' ∧ Text.isBlank character = false
  extension : ∀ extension ∈ form.extension, ∀ character ∈ extension,
    character ≠ ':' ∧ character ≠ '@' ∧ Text.isBlank character = false
  unmarked : form.extension = none → ∀ segment ∈ form.segments, '@' ∉ segment

/-- A form that can be read: its parts can be told apart, and it has a name. -/
structure Legible (form : Form) : Prop extends Separated form where
  named : form.name ≠ []

/-- A text that is a legible form with nothing around it but white space. -/
def Spells (form : Form) (text : String) : Prop :=
  form.Legible ∧ ∃ before after, text.toList = before ++ form.text ++ after ∧
    ∀ character ∈ before ++ after, Text.isBlank character = true

end Form

variable {text before : List Char} {extension : Option (List Char)} {form other : Form}

/-- A text is cut at an at sign after which there is no other one. -/
theorem splitExtension_marked {after : List Char} (clean : '@' ∉ after) :
    splitExtension (before ++ '@' :: after) = (before, some after) := by
  have pass : ∀ character ∈ after.reverse, (character != '@') = true := by
    intro character member
    rw [bne_iff_ne]
    rintro rfl
    exact clean (List.mem_reverse.1 member)
  have turned : (before ++ '@' :: after).reverse = after.reverse ++ '@' :: before.reverse := by
    simp
  rw [splitExtension, turned, List.dropWhile_append_of_pos pass, List.takeWhile_append_of_pos pass]
  simp

/-- A text without an at sign is left whole. -/
theorem splitExtension_unmarked (clean : '@' ∉ text) : splitExtension text = (text, none) := by
  have gone : text.reverse.dropWhile (· != '@') = [] := by
    rw [List.dropWhile_eq_nil_iff]
    intro character member
    rw [bne_iff_ne]
    rintro rfl
    exact clean (List.mem_reverse.1 member)
  rw [splitExtension, gone]

/-- A text is cut at its last at sign, if it has one. -/
theorem splitExtension_eq_iff : splitExtension text = (before, extension) ↔
    text = before ++ extension.elim [] ('@' :: ·) ∧ (∀ after ∈ extension, '@' ∉ after) ∧
      (extension = none → '@' ∉ before) := by
  constructor
  · intro cut
    by_cases marked : '@' ∈ text
    · -- The first at sign of the text turned around is the last one of the text.
      obtain ⟨after, rest, turned, clean⟩ := List.eq_append_cons_of_mem (List.mem_reverse.2 marked)
      have same : text = rest.reverse ++ '@' :: after.reverse := by
        rw [← List.reverse_reverse text, turned]
        simp
      have clean : '@' ∉ after.reverse := by rwa [List.mem_reverse]
      rw [same, splitExtension_marked clean] at cut
      cases cut
      refine ⟨same, ?_, nofun⟩
      rintro _ ⟨⟩
      exact clean
    · rw [splitExtension_unmarked marked] at cut
      cases cut
      exact ⟨(List.append_nil text).symm, nofun, fun _ => marked⟩
  · rintro ⟨rfl, clean, unmarked⟩
    cases extension with
    | none => simpa using splitExtension_unmarked (unmarked rfl)
    | some after => exact splitExtension_marked (clean after rfl)

/-- Four segments are made of three or of four. -/
theorem fourSegments_eq_ok_iff {segments : List (List Char)}
    {group name version classifier : List Char} :
    fourSegments segments = .ok (group, name, version, classifier) ↔
      ∃ last : Option (List Char), segments = group :: name :: version :: last.toList ∧
        classifier = last.getD [] := by
  constructor
  · intro four
    match segments, four with
    | [group, name, version], rfl => exact ⟨none, rfl, rfl⟩
    | [group, name, version, classifier], rfl => exact ⟨some classifier, rfl, rfl⟩
  · rintro ⟨last, rfl, rfl⟩
    cases last <;> rfl

/-- A segment is the part that its characters are. -/
theorem part?_eq (segment : List Char) : part? segment = Form.part segment := by
  cases segment <;> rfl

/-- A part that was left out is as good as an empty one. -/
theorem Form.part_getD (segment : Option (List Char)) :
    part (segment.getD []) = segment.bind part := by
  cases segment <;> rfl

/-- What is checked of the parts of a form that were cut out of a text, and what is made of them. -/
theorem module?_of_parts {coordinates : List Char}
    (cut : splitExtension (Text.trim text) = (coordinates, form.extension))
    (split : Text.split ':' coordinates = form.segments) :
    module? text =
      if form.segments.any (·.any Text.isBlank) then .error .blankInSegment
      else if (form.extension.getD []).any isStray then .error .strayInExtension
      else if form.name.isEmpty then .error .missingModuleName
      else .ok form.details := by
  have four : fourSegments form.segments =
      .ok (form.group, form.name, form.version, form.classifier.getD []) :=
    fourSegments_eq_ok_iff.2 ⟨form.classifier, rfl, rfl⟩
  have details : form.details = .ofCoordinates (part? form.group) (String.ofList form.name)
      (part? form.version) (part? (form.classifier.getD [])) (part? (form.extension.getD [])) := by
    simp only [part?_eq, Form.part_getD]
    rfl
  rw [details]
  simp only [module?, cut, split, four]
  rfl

namespace Form

/-- The segments of a form, with a colon before each but the first. -/
theorem join_segments (form : Form) : Text.join ':' form.segments =
    form.group ++ ':' :: (form.name ++ ':' :: (form.version ++
      form.classifier.elim [] (':' :: ·))) := by
  obtain ⟨group, name, version, classifier, extension⟩ := form
  cases classifier <;> simp [segments, Text.join]

/-- The parts of a form can be told apart if its separators are those that are found and the parts
pass the checks that are made of them. -/
theorem separated_iff : form.Separated ↔
    ((∀ segment ∈ form.segments, ':' ∉ segment) ∧
      (∀ extension ∈ form.extension, '@' ∉ extension) ∧
      (form.extension = none → ∀ segment ∈ form.segments, '@' ∉ segment)) ∧
    form.segments.any (·.any Text.isBlank) = false ∧
      (form.extension.getD []).any isStray = false := by
  have stray : (form.extension.getD []).any isStray = false ↔ ∀ extension ∈ form.extension,
      ∀ character ∈ extension, character ≠ ':' ∧ Text.isBlank character = false := by
    cases form.extension <;> simp [isStray]
  rw [stray]
  simp only [List.any_eq_false, Bool.not_eq_true]
  constructor
  · rintro ⟨segments, extension, unmarked⟩
    refine ⟨⟨fun segment member inside => ?_, fun after given inside => ?_, unmarked⟩,
      fun segment member character inside => (segments segment member character inside).2,
      fun after given character inside => ?_⟩
    · exact (segments segment member ':' inside).1 rfl
    · exact (extension after given '@' inside).2.1 rfl
    · exact ⟨(extension after given character inside).1,
        (extension after given character inside).2.2⟩
  · rintro ⟨⟨separate, apart, unmarked⟩, clean, extension⟩
    refine ⟨fun segment member character inside => ⟨?_, clean segment member character inside⟩,
      fun after given character inside => ⟨?_, ?_, ?_⟩, unmarked⟩
    · rintro rfl
      exact separate segment member inside
    · exact (extension after given character inside).1
    · rintro rfl
      exact apart after given inside
    · exact (extension after given character inside).2

namespace Separated

variable (separated : form.Separated)
include separated

/-- There is no white space in a form whose parts can be told apart. -/
theorem clean : ∀ character ∈ form.text, Text.isBlank character = false := by
  rw [Form.text, List.forall_mem_append]
  refine ⟨Text.forall_mem_join rfl fun segment member character inside =>
    (separated.segments segment member character inside).2, ?_⟩
  cases given : form.extension with
  | none => exact nofun
  | some extension =>
    refine List.forall_mem_cons.2 ⟨rfl, fun character inside => ?_⟩
    exact (separated.extension extension given character inside).2.2

/-- Such a form is cut before its extension. -/
theorem splitExtension_eq :
    splitExtension form.text = (Text.join ':' form.segments, form.extension) := by
  obtain ⟨⟨-, apart, unmarked⟩, -⟩ := separated_iff.1 separated
  refine splitExtension_eq_iff.2 ⟨rfl, apart, fun absent inside => ?_⟩
  have free : ∀ character ∈ Text.join ':' form.segments, character ≠ '@' := by
    refine Text.forall_mem_join (by decide) ?_
    rintro segment member _ marked rfl
    exact unmarked absent segment member marked
  exact free '@' inside rfl

/-- Its segments are found again. -/
theorem split_eq : Text.split ':' (Text.join ':' form.segments) = form.segments :=
  Text.split_join (List.cons_ne_nil _ _) (separated_iff.1 separated).1.1

/-- Nothing can be wrong with such a form but that it has no name. -/
theorem module?_eq (trimmed : Text.trim text = form.text) : module? text =
    if form.name.isEmpty then .error .missingModuleName else .ok form.details := by
  obtain ⟨-, clean, extension⟩ := separated_iff.1 separated
  rw [module?_of_parts (trimmed ▸ separated.splitExtension_eq) separated.split_eq, clean, extension]
  rfl

/-- Two such forms that are written alike are the same. -/
theorem eq_of_text_eq (others : other.Separated) (alike : form.text = other.text) :
    form = other := by
  have cut := separated.splitExtension_eq
  rw [alike, others.splitExtension_eq, Prod.mk.injEq] at cut
  obtain ⟨coordinates, extension⟩ := cut
  have segments : other.segments = form.segments := by
    rw [← others.split_eq, coordinates, separated.split_eq]
  -- Whether there is a classifier is decided by the number of segments.
  obtain ⟨group, name, version, classifier, _⟩ := form
  obtain ⟨group', name', version', classifier', _⟩ := other
  cases extension
  cases classifier <;> cases classifier' <;> cases segments <;> rfl

end Separated

/-- A text spells a legible form when it is that form once it is trimmed. -/
theorem spells_iff {text : String} :
    form.Spells text ↔ form.Legible ∧ Text.trim text.toList = form.text := by
  refine and_congr_right fun legible => ⟨?_, fun trimmed => ?_⟩
  · rintro ⟨before, after, around, blank⟩
    rw [around, Text.trim_surrounded blank legible.clean]
  · rw [← trimmed]
    exact Text.exists_surroundings text.toList

end Form

/-- The module of a text that is read is that of a legible form. -/
theorem exists_form_of_module? {details : ModuleDependency} (read : module? text = .ok details) :
    ∃ form : Form, form.Legible ∧ Text.trim text = form.text ∧ details = form.details := by
  rcases cut : splitExtension (Text.trim text) with ⟨coordinates, extension⟩
  cases four : fourSegments (Text.split ':' coordinates) with
  | error malformation =>
    simp only [module?, cut, four] at read
    contradiction
  | ok parts =>
    obtain ⟨group, name, version, classifier⟩ := parts
    obtain ⟨last, split, -⟩ := fourSegments_eq_ok_iff.1 four
    -- Only the segments tell whether there was a fourth one: a missing one is read as empty.
    let form : Form := ⟨group, name, version, last, extension⟩
    have split : Text.split ':' coordinates = form.segments := split
    have joined : Text.join ':' form.segments = coordinates := by rw [← split, Text.join_split]
    obtain ⟨whole, apart, unmarked⟩ := splitExtension_eq_iff.1 cut
    rw [module?_of_parts cut split] at read
    split_ifs at read with blank stray nameless
    cases read
    have separated : form.Separated := by
      refine Form.separated_iff.2 ⟨⟨fun segment member => ?_, apart, ?_⟩,
        Bool.eq_false_iff.2 blank, Bool.eq_false_iff.2 stray⟩
      · exact Text.separator_not_mem_of_mem_split (split ▸ member)
      · intro absent segment member inside
        exact unmarked absent (joined ▸ Text.subset_join member inside)
    refine ⟨form, ⟨separated, fun empty => nameless ?_⟩, ?_, rfl⟩
    · rw [List.isEmpty_iff]
      exact empty
    · rw [whole, Form.text, joined]

/-- A text is read as the module that the form says which it spells. -/
theorem module?_eq_ok_iff {text : String} {details : ModuleDependency} :
    module? text.toList = .ok details ↔
      ∃ form : Form, form.Spells text ∧ details = form.details := by
  simp only [Form.spells_iff, and_assoc]
  refine ⟨exists_form_of_module?, ?_⟩
  rintro ⟨form, legible, trimmed, rfl⟩
  rw [legible.module?_eq trimmed, if_neg (by simpa using legible.named)]

end Coordinates

namespace Notation

open Coordinates

variable {project : DeclaringProject} {text : String}

/-- A coordinate text is parsed at once. -/
theorem parse_coordinates (project : DeclaringProject) (text : String) :
    (Notation.coordinates text).parse project =
      .ofOutcome (.externalModule <$> Coordinates.parse text) := by
  rw [parse, parseAll, declare]
  cases Coordinates.parse text <;> rfl

/-- A coordinate text is parsed to the module that the form says which it spells. -/
theorem parse_coordinates_eq_done_iff {dependency : Dependency} :
    (Notation.coordinates text).parse project = .done dependency ↔
      ∃ form : Form, form.Spells text ∧ dependency = .externalModule form.details := by
  rw [parse_coordinates, Coordinates.parse]
  cases read : module? text.toList with
  | error malformation =>
    refine iff_of_false nofun ?_
    rintro ⟨form, spells, -⟩
    rw [module?_eq_ok_iff.2 ⟨form, spells, rfl⟩] at read
    contradiction
  | ok details =>
    constructor
    · rintro ⟨⟩
      obtain ⟨form, spells, rfl⟩ := module?_eq_ok_iff.1 read
      exact ⟨form, spells, rfl⟩
    · rintro ⟨form, spells, rfl⟩
      rw [module?_eq_ok_iff.2 ⟨form, spells, rfl⟩] at read
      cases read
      rfl

/-- The notation of coordinates parses exactly when its text is a legible form within white space,
and then to the module that the form says. There is never more than one such form, and without one
the text is quoted as malformed, as it was given. -/
theorem parse_coordinates_iff (project : DeclaringProject) (text : String) :
    (∀ dependency, (Notation.coordinates text).parse project = .done dependency ↔
      ∃ form : Form, form.Spells text ∧ dependency = .externalModule form.details) ∧
    (∀ form other : Form, form.Spells text → other.Spells text → form = other) ∧
    ((∃ form : Form, form.Spells text) ∨ ∃ malformation,
      (Notation.coordinates text).parse project =
        .failed (.malformed (Text.quoted text) malformation)) := by
  refine ⟨fun dependency => parse_coordinates_eq_done_iff, fun form other here there => ?_, ?_⟩
  · obtain ⟨legible, trimmed⟩ := Form.spells_iff.1 here
    obtain ⟨others, alike⟩ := Form.spells_iff.1 there
    exact legible.eq_of_text_eq others.toSeparated (trimmed.symm.trans alike)
  · cases read : module? text.toList with
    | error malformation =>
      refine .inr ⟨malformation, ?_⟩
      rw [parse_coordinates, Coordinates.parse, read]
      rfl
    | ok details =>
      obtain ⟨form, spells, -⟩ := module?_eq_ok_iff.1 read
      exact .inl ⟨form, spells⟩

end Notation

end BuildPath
