import BuildPath.Manifest.Value
import BuildPath.Proofs.Outcome

/-!
# The grammar of notations as values

Which values stand for a notation, and for which one, said without a reader: a text stands for
coordinates, an object for what its keys make it (`Notation.OfMembers`), and an array for the bundle
of what its items stand for (`Notation.StandsFor`). Whether a value is accepted depends on its
elements alone, which are found under any number of arrays (`Json.elements`). The reader accepts
exactly these values, gives exactly these notations, and refuses any other value by its first
element that stands for nothing (`Notation.ofJson_follows_grammar`).
-/

namespace BuildPath

namespace Json

mutual

/-- The elements of a value: those of its items in order if it is an array, or else the value
itself. -/
def elements : Json → List Json
  | .array items => elementsEach items
  | value => [value]

/-- The elements of values, in order. -/
def elementsEach : List Json → List Json
  | [] => []
  | item :: items => item.elements ++ elementsEach items

end

end Json

/-- Of two outcomes in sequence, the second decides if the first does not fail. -/
theorem Outcome.discard_both {First Second Result : Type} (first : Outcome First)
    (second : Outcome Second) (join : First → Second → Result) :
    discard (do return join (← first) (← second)) = (do discard first; discard second) := by
  cases first <;> cases second <;> rfl

/-- Outcomes that are the same up to their values both succeed or both fail. -/
theorem Outcome.exists_ok_iff_of_discard_eq {First Second : Type} {first : Outcome First}
    {second : Outcome Second} (same : discard first = discard second) :
    (∃ value, first = .ok value) ↔ ∃ value, second = .ok value := by
  cases first <;> cases second <;> simp_all [discard, Functor.mapConst, Except.map]

/-- Outcomes that are the same up to their values fail with the same errors. -/
theorem Outcome.error_iff_of_discard_eq {First Second : Type} {first : Outcome First}
    {second : Outcome Second} (same : discard first = discard second) {error : Error} :
    first = .error error ↔ second = .error error := by
  cases first <;> cases second <;> simp_all [discard, Functor.mapConst, Except.map]

/-- An outcome that fails, if it does, by refusing a value. -/
def Outcome.Quotes {Value : Type} (value : Json) (outcome : Outcome Value) : Prop :=
  ∀ error, outcome = .error error → error = .unsupported value.shown

namespace Outcome.Quotes

variable {Value Result : Type} {value : Json}

/-- To succeed is not to fail. -/
theorem ok (result : Result) : Quotes value (.ok result) := nofun

/-- To refuse a value is to refuse it. -/
theorem unsupported (value : Json) :
    Quotes value (.error (.unsupported value.shown) : Outcome Result) :=
  fun _ failed => (Except.error.inj failed).symm

/-- A sequence fails as its parts do. -/
theorem bind {outcome : Outcome Value} {next : Value → Outcome Result}
    (first : outcome.Quotes value) (rest : ∀ result, (next result).Quotes value) :
    (outcome >>= next).Quotes value := by
  intro error failed
  rcases bind_eq_error_iff.1 failed with failed | ⟨result, -, failed⟩
  · exact first error failed
  · exact rest result error failed

end Outcome.Quotes

namespace Notation

/-- What is given by a member that may be left out: a text, or nothing if the member is null or
absent. -/
inductive Optional : Option Json → Option String → Prop
  | text (text : String) : Optional (some (.string text)) (some text)
  | null : Optional (some .null) none
  | absent : Optional none none

/-- A text as an entry of a file list: a pattern if one of the characters of patterns is in it, or
else a path. -/
inductive Entry (text : String) : FileEntry → Prop
  | pattern (special : ∃ character ∈ text.toList, character ∈ ['*', '?', '[']) :
    Entry text (.glob text)
  | path (plain : ∀ character ∈ text.toList, character ∉ ['*', '?', '[']) :
    Entry text (.path ⟨text⟩)

/-- A value as an entry of a file list, which has to be a text. -/
inductive Listed : Json → FileEntry → Prop
  | text {text : String} {entry : FileEntry} (here : Entry text entry) :
    Listed (.string text) entry

/-- What an object stands for. A project comes before files, and files come before parts; what is
under any other key does not matter. -/
inductive OfMembers (members : List (String × Json)) : Notation → Prop
  | project {path : String} {configuration : Option String}
    (project : Json.member? members "project" = some (.string path))
    (configured : Optional (Json.member? members "configuration") configuration) :
    OfMembers members (.project ⟨path, configuration⟩)
  | files {items : List Json} {entries : List FileEntry} {base : Option String}
    (project : Optional (Json.member? members "project") none)
    (files : Json.member? members "files" = some (.array items))
    (listed : List.Forall₂ Listed items entries)
    (based : Optional (Json.member? members "base") base) :
    OfMembers members (.files ⟨base.map Path.mk, entries⟩)
  | parts {given : ModuleParts} (project : Optional (Json.member? members "project") none)
    (files : Json.member? members "files" = none)
    (named : Json.member? members "name" = some (.string given.name))
    (grouped : Optional (Json.member? members "group") given.group)
    (versioned : Optional (Json.member? members "version") given.version)
    (classified : Optional (Json.member? members "classifier") given.classifier)
    (extended : Optional (Json.member? members "extension") given.extension) :
    OfMembers members (.parts given)

/-- What a value that is no array stands for. -/
inductive OfElement : Json → Notation → Prop
  | text (text : String) : OfElement (.string text) (.coordinates text)
  | object {members : List (String × Json)} {written : Notation}
    (given : OfMembers members written) : OfElement (.object members) written

/-- What a value stands for. An array stands for a bundle of what its items stand for. -/
inductive StandsFor : Json → Notation → Prop
  | element {value : Json} {written : Notation} (element : OfElement value written) :
    StandsFor value written
  | array {items : List Json} {written : List Notation}
    (each : List.Forall₂ StandsFor items written) : StandsFor (.array items) (.bundle written)

variable {members : List (String × Json)} {key : String} {given : Option String}
  {written : Notation} {error : Error}

section Members

/-- A member that may be left out is read as what it gives. -/
theorem textMember_eq_ok_iff :
    textMember members key = .ok given ↔ Optional (Json.member? members key) given := by
  unfold textMember
  generalize Json.member? members key = found
  constructor
  · intro read
    split at read
    · cases read
      exact .absent
    · cases read
      exact .null
    · cases read
      exact .text _
    · contradiction
  · rintro (text | _ | _) <;> rfl

/-- A member that has to be there is read as the text that it is. -/
theorem textMember_eq_ok_some_iff {text : String} :
    textMember members key = .ok (some text) ↔
      Json.member? members key = some (.string text) := by
  rw [textMember_eq_ok_iff]
  generalize Json.member? members key = found
  constructor
  · rintro ⟨⟩
    rfl
  · rintro rfl
    exact .text text

/-- A text is a pattern if one of the characters of patterns is in it. -/
theorem isPattern_iff {text : String} :
    isPattern text = true ↔ ∃ character ∈ text.toList, character ∈ ['*', '?', '['] := by
  simp [isPattern, or_assoc]

/-- An entry is read as the pattern or the path that it is. -/
theorem entry_iff {text : String} {entry : FileEntry} :
    Entry text entry ↔ entry = fileEntry text := by
  unfold fileEntry
  by_cases special : isPattern text = true
  · have present := isPattern_iff.1 special
    rw [if_pos special]
    constructor
    · rintro (_ | plain)
      · rfl
      · obtain ⟨character, member, among⟩ := present
        exact absurd among (plain character member)
    · rintro rfl
      exact .pattern present
  · rw [if_neg special]
    constructor
    · rintro (present | _)
      · exact absurd (isPattern_iff.2 present) special
      · rfl
    · rintro rfl
      exact .path fun character member among =>
        special (isPattern_iff.2 ⟨character, member, among⟩)

/-- The entries of a file list are read one by one. -/
theorem fileEntries_eq_ok_iff {items : List Json} {entries : List FileEntry} :
    fileEntries members items = .ok entries ↔ List.Forall₂ Listed items entries := by
  induction items generalizing entries with
  | nil =>
    rw [fileEntries, List.forall₂_nil_left_iff]
    constructor
    · rintro ⟨⟩
      rfl
    · rintro rfl
      rfl
  | cons item items ih =>
    constructor
    · intro read
      unfold fileEntries at read
      split at read
      · contradiction
      next text rest same =>
        cases same
        obtain ⟨others, later, ⟨⟩⟩ := Outcome.bind_eq_ok_iff.1 read
        exact .cons (.text (entry_iff.2 rfl)) (ih.1 later)
      · contradiction
    · rintro (_ | ⟨⟨here⟩, later⟩)
      rw [entry_iff.1 here, fileEntries, ih.2 later]
      rfl

/-- An object is read as what its keys make it. -/
theorem ofMembers_eq_ok_iff : ofMembers members = .ok written ↔ OfMembers members written := by
  unfold ofMembers
  constructor
  · intro read
    obtain ⟨path, project, read⟩ := Outcome.bind_eq_ok_iff.1 read
    cases path with
    | some path =>
      obtain ⟨configuration, configured, ⟨⟩⟩ := Outcome.bind_eq_ok_iff.1 read
      exact .project (textMember_eq_ok_some_iff.1 project) (textMember_eq_ok_iff.1 configured)
    | none =>
      have project := textMember_eq_ok_iff.1 project
      dsimp only at read
      split at read
      next files =>
        obtain ⟨base, based, read⟩ := Outcome.bind_eq_ok_iff.1 read
        obtain ⟨entries, listed, ⟨⟩⟩ := Outcome.bind_eq_ok_iff.1 read
        exact .files project files (fileEntries_eq_ok_iff.1 listed) (textMember_eq_ok_iff.1 based)
      · contradiction
      next files =>
        obtain ⟨name, named, read⟩ := Outcome.bind_eq_ok_iff.1 read
        cases name with
        | none => contradiction
        | some name =>
          obtain ⟨group, grouped, read⟩ := Outcome.bind_eq_ok_iff.1 read
          obtain ⟨version, versioned, read⟩ := Outcome.bind_eq_ok_iff.1 read
          obtain ⟨classifier, classified, read⟩ := Outcome.bind_eq_ok_iff.1 read
          obtain ⟨extension, extended, ⟨⟩⟩ := Outcome.bind_eq_ok_iff.1 read
          exact .parts project files (textMember_eq_ok_some_iff.1 named)
            (textMember_eq_ok_iff.1 grouped) (textMember_eq_ok_iff.1 versioned)
            (textMember_eq_ok_iff.1 classified) (textMember_eq_ok_iff.1 extended)
  · rintro (⟨project, configured⟩ | ⟨project, files, listed, based⟩ |
      ⟨project, files, named, grouped, versioned, classified, extended⟩)
    · rw [textMember_eq_ok_some_iff.2 project, textMember_eq_ok_iff.2 configured]
      rfl
    · refine Outcome.bind_eq_ok_iff.2 ⟨none, textMember_eq_ok_iff.2 project, ?_⟩
      dsimp only
      rw [files]
      refine Outcome.bind_eq_ok_iff.2 ⟨_, textMember_eq_ok_iff.2 based, ?_⟩
      exact Outcome.bind_eq_ok_iff.2 ⟨_, fileEntries_eq_ok_iff.2 listed, rfl⟩
    · refine Outcome.bind_eq_ok_iff.2 ⟨none, textMember_eq_ok_iff.2 project, ?_⟩
      dsimp only
      rw [files, textMember_eq_ok_some_iff.2 named, textMember_eq_ok_iff.2 grouped,
        textMember_eq_ok_iff.2 versioned, textMember_eq_ok_iff.2 classified,
        textMember_eq_ok_iff.2 extended]
      rfl

end Members

section Refusal

/-- A member is refused with the whole object. -/
theorem quotes_textMember (members : List (String × Json)) (key : String) :
    (textMember members key).Quotes (.object members) := by
  unfold textMember
  split
  · exact .ok _
  · exact .ok _
  · exact .ok _
  · exact .unsupported _

/-- Entries of a file list are refused with the whole object. -/
theorem quotes_fileEntries (members : List (String × Json)) (items : List Json) :
    (fileEntries members items).Quotes (.object members) := by
  induction items with
  | nil => exact .ok []
  | cons item items ih =>
    cases item with
    | string text => exact ih.bind fun _ => .ok _
    | _ => exact .unsupported _

/-- An object is refused as a whole. -/
theorem quotes_ofMembers (members : List (String × Json)) :
    (ofMembers members).Quotes (.object members) := by
  have text := quotes_textMember members
  unfold ofMembers
  refine (text "project").bind fun path => ?_
  split
  · exact (text "configuration").bind fun _ => .ok _
  · split
    · exact (text "base").bind fun _ => (quotes_fileEntries members _).bind fun _ => .ok _
    · exact .unsupported _
    · refine (text "name").bind fun name => ?_
      split
      · refine (text "group").bind fun _ => (text "version").bind fun _ => ?_
        exact (text "classifier").bind fun _ => (text "extension").bind fun _ => .ok _
      · exact .unsupported _

end Refusal

section Elements

/-- A value that is no array is its only element. -/
theorem elements_eq_singleton {value : Json} (single : ∀ items, value ≠ .array items) :
    value.elements = [value] := by
  rw [Json.elements]
  exact single

/-- No element of a value is an array. -/
theorem ne_array_of_mem_elements (value : Json) :
    ∀ element ∈ value.elements, ∀ items, element ≠ .array items := by
  induction value using ofJson.induct (motive_2 := fun values =>
    ∀ element ∈ Json.elementsEach values, ∀ items, element ≠ .array items) with
  | case1 text => simp [Json.elements]
  | case2 items ih => rwa [Json.elements]
  | case3 members => simp [Json.elements]
  | case4 value text array object =>
    rw [elements_eq_singleton array]
    simpa using array
  | case5 => contradiction
  | case6 value values here later element member items =>
    rw [Json.elementsEach] at member
    rcases List.mem_append.1 member with member | member
    · exact here element member items
    · exact later element member items

/-- A single value is read as it is by itself, up to what is read. -/
theorem discard_mapM_singleton (value : Json) :
    discard ([value].mapM ofJson) = discard (ofJson value) := by
  rw [List.mapM_cons]
  cases ofJson value <;> rfl

/-- A value is read if all its elements are, and otherwise fails as they do in order. -/
theorem discard_mapM_elements (value : Json) :
    discard (value.elements.mapM ofJson) = discard (ofJson value) := by
  induction value using ofJson.induct (motive_2 := fun values =>
    discard ((Json.elementsEach values).mapM ofJson) = discard (ofJsonEach values)) with
  | case1 text => exact discard_mapM_singleton _
  | case2 items ih =>
    rw [Json.elements, ih, ofJson]
    cases ofJsonEach items <;> rfl
  | case3 members => exact discard_mapM_singleton _
  | case4 value text array object =>
    rw [elements_eq_singleton array]
    exact discard_mapM_singleton value
  | case5 => rfl
  | case6 value values here later =>
    rw [Json.elementsEach, List.mapM_append, ofJsonEach, Outcome.discard_both,
      Outcome.discard_both, here, later]

/-- A value that is no array is read as what it stands for as an element. -/
theorem ofJson_eq_ok_iff_ofElement {value : Json} (single : ∀ items, value ≠ .array items) :
    ofJson value = .ok written ↔ OfElement value written := by
  constructor
  · intro read
    cases value with
    | string text =>
      rw [ofJson] at read
      cases read
      exact .text text
    | object members =>
      rw [ofJson] at read
      exact .object (ofMembers_eq_ok_iff.1 read)
    | array items => exact absurd rfl (single items)
    | _ => contradiction
  · rintro (text | given)
    · rw [ofJson]
    · rw [ofJson]
      exact ofMembers_eq_ok_iff.2 given

/-- A value that is no array is refused with itself. -/
theorem quotes_ofJson {value : Json} (single : ∀ items, value ≠ .array items) :
    (ofJson value).Quotes value := by
  cases value with
  | string text => rw [ofJson]; exact .ok _
  | object members => rw [ofJson]; exact quotes_ofMembers members
  | array items => exact absurd rfl (single items)
  | _ => exact .unsupported _

/-- A value that is no array is refused exactly if it stands for nothing. -/
theorem ofJson_eq_error_iff_ofElement {value : Json} (single : ∀ items, value ≠ .array items) :
    ofJson value = .error error ↔
      (¬∃ written, OfElement value written) ∧ error = .unsupported value.shown := by
  constructor
  · intro failed
    refine ⟨?_, quotes_ofJson single error failed⟩
    rintro ⟨written, element⟩
    rw [(ofJson_eq_ok_iff_ofElement single).2 element] at failed
    contradiction
  · rintro ⟨nothing, rfl⟩
    cases read : ofJson value with
    | ok written => exact absurd ⟨written, (ofJson_eq_ok_iff_ofElement single).1 read⟩ nothing
    | error other => rw [quotes_ofJson single other read]

/-- A value that is no array stands for what it does as an element. -/
theorem standsFor_iff_ofElement {value : Json} (single : ∀ items, value ≠ .array items) :
    StandsFor value written ↔ OfElement value written := by
  constructor
  · rintro (element | each)
    · exact element
    · exact absurd rfl (single _)
  · exact .element

/-- A value is read as what it stands for. -/
theorem ofJson_eq_ok_iff (value : Json) (written : Notation) :
    ofJson value = .ok written ↔ StandsFor value written := by
  induction value using ofJson.induct (motive_2 := fun values => ∀ items,
    ofJsonEach values = .ok items ↔ List.Forall₂ StandsFor values items) generalizing written with
  | case1 text =>
    have single : ∀ items, Json.string text ≠ .array items := nofun
    rw [ofJson_eq_ok_iff_ofElement single, standsFor_iff_ofElement single]
  | case2 items ih =>
    rw [ofJson, Outcome.map_eq_ok_iff]
    constructor
    · rintro ⟨each, read, rfl⟩
      exact .array ((ih each).1 read)
    · rintro (⟨⟨⟩⟩ | ⟨each⟩)
      exact ⟨_, (ih _).2 each, rfl⟩
  | case3 members =>
    have single : ∀ items, Json.object members ≠ .array items := nofun
    rw [ofJson_eq_ok_iff_ofElement single, standsFor_iff_ofElement single]
  | case4 value text array object =>
    rw [ofJson_eq_ok_iff_ofElement array, standsFor_iff_ofElement array]
  | case5 items =>
    rw [ofJsonEach, List.forall₂_nil_left_iff]
    exact ⟨fun | rfl => rfl, fun | rfl => rfl⟩
  | case6 value values here later items =>
    rw [ofJsonEach, Outcome.bind_eq_ok_iff, List.forall₂_cons_left_iff]
    constructor
    · rintro ⟨item, read, done⟩
      obtain ⟨others, rest, ⟨⟩⟩ := Outcome.bind_eq_ok_iff.1 done
      exact ⟨item, others, (here item).1 read, (later others).1 rest, rfl⟩
    · rintro ⟨item, others, stands, rest, rfl⟩
      exact ⟨item, (here item).2 stands, Outcome.bind_eq_ok_iff.2
        ⟨others, (later others).2 rest, rfl⟩⟩

/-- A value is read exactly if each of its elements stands for something. -/
theorem exists_ofJson_eq_ok_iff (value : Json) : (∃ written, ofJson value = .ok written) ↔
    ∀ element ∈ value.elements, ∃ written, OfElement element written := by
  have single := ne_array_of_mem_elements value
  rw [← Outcome.exists_ok_iff_of_discard_eq (discard_mapM_elements value),
    Outcome.exists_mapM_eq_ok_iff]
  refine forall₂_congr fun element member => ?_
  simp only [ofJson_eq_ok_iff_ofElement (single element member)]

/-- A value is refused at its first element that stands for nothing. -/
theorem ofJson_eq_error_iff (value : Json) (error : Error) :
    ofJson value = .error error ↔
      ∃ earlier refused later, value.elements = earlier ++ refused :: later ∧
        (∀ element ∈ earlier, ∃ written, OfElement element written) ∧
        (¬∃ written, OfElement refused written) ∧ error = .unsupported refused.shown := by
  have single := ne_array_of_mem_elements value
  rw [← Outcome.error_iff_of_discard_eq (discard_mapM_elements value), Outcome.mapM_eq_error_iff]
  refine exists_congr fun earlier => exists_congr fun refused => exists_congr fun later => ?_
  refine and_congr_right fun split => ?_
  rw [split] at single
  obtain ⟨before, here⟩ := List.forall_mem_append.1 single
  refine and_congr (forall₂_congr fun element member => ?_)
    (ofJson_eq_error_iff_ofElement (List.forall_mem_cons.1 here).1)
  simp only [ofJson_eq_ok_iff_ofElement (before element member)]

end Elements

/-- A value is accepted exactly if each of its elements stands for something, and then the notation
that it stands for has the arrays of the value as bundles. Any other value is refused, and the error
quotes the first of its elements that stands for nothing. -/
theorem ofJson_follows_grammar (value : Json) :
    ((∃ written, ofJson value = .ok written) ↔
      ∀ element ∈ value.elements, ∃ written, OfElement element written) ∧
    (∀ written, ofJson value = .ok written ↔ StandsFor value written) ∧
    ∀ error, ofJson value = .error error ↔
      ∃ earlier refused later, value.elements = earlier ++ refused :: later ∧
        (∀ element ∈ earlier, ∃ written, OfElement element written) ∧
        (¬∃ written, OfElement refused written) ∧ error = .unsupported refused.shown :=
  ⟨exists_ofJson_eq_ok_iff value, ofJson_eq_ok_iff value, ofJson_eq_error_iff value⟩

end Notation

end BuildPath
