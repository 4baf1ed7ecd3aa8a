import BuildPath.Proofs.Declaration.Coordinates
import Mathlib

/-!
# Displayed coordinates

A module that was read from coordinates is displayed as a form as well, the one without empty parts
at its end (`Coordinates.Form.toList_display_details`). The module is read again from there unless
it has no extension and an at sign in its display, which is then taken for the start of one
(`Notation.parse_display_iff`).
-/

namespace BuildPath

namespace Coordinates

variable {form : Form}

namespace Form

/-- The form without empty parts at its end. -/
def compact (form : Form) : Form where
  group := form.group
  name := form.name
  version := form.version
  classifier := form.classifier.filter (· ≠ [])
  extension := form.extension.filter (· ≠ [])

/-- A part in a text, where an absent one is empty. -/
theorem toList_part (characters : List Char) :
    ((part characters).getD "").toList = characters := by
  cases characters <;> simp [part]

/-- A part in a text, after the mark before it. -/
theorem toList_elim_part (separator : String) (mark : Char) (single : separator.toList = [mark])
    (segment : Option (List Char)) :
    ((segment.bind part).elim "" (separator ++ ·)).toList =
      (segment.filter (· ≠ [])).elim [] (mark :: ·) := by
  rcases segment with _ | _ | ⟨first, rest⟩ <;> simp [part, single, Option.filter]

/-- The module of a form is displayed as the form without empty parts at its end. -/
theorem toList_display_details (form : Form) :
    form.details.display.toList = form.compact.text := by
  rw [text, join_segments]
  simp [ModuleDependency.display, details, compact, toList_part,
    toList_elim_part ":" ':' rfl, toList_elim_part "@" '@' rfl]

/-- Empty parts at its end make no difference to what a form says. -/
theorem details_compact (form : Form) : form.compact.details = form.details := by
  have same : ∀ segment : Option (List Char),
      (segment.filter (· ≠ [])).bind part = segment.bind part := by
    rintro (_ | _ | ⟨first, rest⟩) <;> simp [part, Option.filter]
  simp only [details, compact, same]

/-- The segments without empty parts are among those with them. -/
theorem segments_compact_subset (form : Form) : form.compact.segments ⊆ form.segments := by
  obtain ⟨group, name, version, classifier, extension⟩ := form
  rcases classifier with _ | _ | ⟨first, rest⟩ <;> simp [segments, compact, Option.filter]

/-- A form with an empty extension is longer than without it. -/
theorem length_compact_lt (empty : form.extension = some []) :
    form.compact.text.length < form.text.length := by
  obtain ⟨group, name, version, classifier, extension⟩ := form
  cases empty
  rw [text, text, join_segments, join_segments]
  rcases classifier with _ | _ | ⟨first, rest⟩ <;> simp [compact, Option.filter]

/-- Where no extension was written there is no at sign. -/
theorem Separated.not_mem_compact (separated : form.Separated) (absent : form.extension = none) :
    '@' ∉ form.compact.text := by
  have bare : form.compact.text = Text.join ':' form.compact.segments := by
    simp [text, compact, absent]
  have free : ∀ character ∈ Text.join ':' form.compact.segments, character ≠ '@' := by
    refine Text.forall_mem_join (by decide) ?_
    rintro segment member _ inside rfl
    exact separated.unmarked absent segment (form.segments_compact_subset member) inside
  rw [bare]
  exact fun marked => free '@' marked rfl

/-- Without empty parts at its end a legible form is still legible, unless an at sign in it would be
taken for the start of an extension. -/
theorem Legible.compact (legible : form.Legible)
    (unmarked : form.details.extension = none → '@' ∉ form.compact.text) :
    form.compact.Legible := by
  refine ⟨⟨fun segment member => ?_, fun after given => ?_, ?_⟩, legible.named⟩
  · exact legible.segments segment (form.segments_compact_subset member)
  · exact legible.extension after (Option.mem_filter_iff.1 given).1
  · intro absent segment member inside
    refine unmarked ?_ (List.mem_append_left _ (Text.subset_join member inside))
    rw [← details_compact, details, absent]
    rfl

end Form

end Coordinates

namespace Notation

open Coordinates

variable {project : DeclaringProject} {text : String}

/-- A module that was read from coordinates is read again from its display exactly when it has an
extension or there is no at sign in its display. -/
theorem parse_display_iff {details : ModuleDependency}
    (read : (Notation.coordinates text).parse project = .done (.externalModule details)) :
    (Notation.coordinates details.display).parse project = .done (.externalModule details) ↔
      details.extension ≠ none ∨ '@' ∉ details.display.toList := by
  obtain ⟨form, ⟨legible, -⟩, same⟩ := parse_coordinates_eq_done_iff.1 read
  cases same
  rw [parse_coordinates_eq_done_iff]
  simp only [Form.spells_iff, Form.toList_display_details]
  constructor
  · rintro ⟨other, ⟨others, trimmed⟩, same⟩
    by_contra! marked
    obtain ⟨absent, marked⟩ := marked
    -- Any form that is read from there has an at sign and yet no extension, so that it ends in an
    -- empty one and is longer than what it is displayed as, which is the text it was read from.
    have alike : form.compact.text = other.compact.text := by
      rw [← Form.toList_display_details, ← Form.toList_display_details,
        Dependency.externalModule.inj same]
    have empty : other.extension = some [] := by
      have absent : other.extension.bind Form.part = none := by
        rw [← absent, Dependency.externalModule.inj same]
        rfl
      match written : other.extension with
      | none => exact absurd (alike ▸ marked) (others.not_mem_compact written)
      | some [] => rfl
      | some (first :: rest) => simp [written, Form.part] at absent
    have shorter : other.text.length ≤ form.compact.text.length := by
      obtain ⟨before, after, around, -⟩ := Text.exists_surroundings form.compact.text
      rw [around, trimmed]
      simp only [List.length_append]
      omega
    have longer := Form.length_compact_lt empty
    rw [alike] at shorter
    omega
  · intro unmarked
    have compact : form.compact.Legible := legible.compact fun absent => by
      simpa [absent] using unmarked
    exact ⟨form.compact, ⟨compact, Text.trim_of_clean compact.clean⟩, by
      rw [Form.details_compact]⟩

/-- A module with an at sign in its name and an extension is read again. -/
theorem parse_display_packaged :
    (Notation.coordinates " g:n@m:1:@jar ").parse .root =
        .done (.externalModule (.ofCoordinates "g" "n@m" "1" none "jar")) ∧
      (ModuleDependency.ofCoordinates "g" "n@m" "1" none "jar").display = "g:n@m:1@jar" ∧
      (Notation.coordinates "g:n@m:1@jar").parse .root =
        .done (.externalModule (.ofCoordinates "g" "n@m" "1" none "jar")) := by
  have read : (Notation.coordinates " g:n@m:1:@jar ").parse .root =
      .done (.externalModule (.ofCoordinates "g" "n@m" "1" none "jar")) := by
    rw [parse_coordinates]
    cbv
  exact ⟨read, by cbv, (parse_display_iff read).2 (.inl (Option.some_ne_none "jar"))⟩

/-- A module with an at sign in its group and an empty extension is displayed as a text that is
malformed. -/
theorem parse_display_misread :
    (Notation.coordinates "a@b:c:d@").parse .root =
        .done (.externalModule (.ofCoordinates "a@b" "c" "d" none none)) ∧
      (ModuleDependency.ofCoordinates "a@b" "c" "d" none none).display = "a@b:c:d" ∧
      (Notation.coordinates "a@b:c:d").parse .root =
        .failed (.malformed "\"a@b:c:d\"" .tooFewSegments) := by
  simp only [parse_coordinates]
  exact ⟨by cbv, by cbv, by cbv⟩

end Notation

end BuildPath
