import BuildPath.Manifest.Value
import BuildPath.Proofs.Declaration.Leaves

/-!
# Notations of values

A value stands for a notation that has nothing lazy in it (`Notation.direct_of_ofJson`). What is
recorded for its leaves are therefore the dependencies that they are parsed to
(`Notation.forall₂_recorded_iff`).
-/

namespace BuildPath

namespace Notation

variable {project : DeclaringProject}

/-- The leaves of a bundle are those of its items. -/
theorem leaves_bundle (items : List Notation) :
    (Notation.bundle items).leaves = items.flatMap leaves := by
  rw [leaves]
  induction items with
  | nil => rfl
  | cons item items ih => rw [leavesEach, ih, List.flatMap_cons]

/-- The notation of an object is direct. -/
theorem direct_of_ofMembers {members : List (String × Json)} {written : Notation}
    (read : ofMembers members = .ok written) : written.Direct := by
  unfold ofMembers at read
  obtain ⟨path, -, read⟩ := Outcome.bind_eq_ok_iff.1 read
  split at read
  · obtain ⟨configuration, -, ⟨⟩⟩ := Outcome.bind_eq_ok_iff.1 read
    trivial
  · split at read
    · obtain ⟨base, -, read⟩ := Outcome.bind_eq_ok_iff.1 read
      obtain ⟨entries, -, ⟨⟩⟩ := Outcome.bind_eq_ok_iff.1 read
      trivial
    · contradiction
    · obtain ⟨name, -, read⟩ := Outcome.bind_eq_ok_iff.1 read
      split at read
      · obtain ⟨group, -, read⟩ := Outcome.bind_eq_ok_iff.1 read
        obtain ⟨version, -, read⟩ := Outcome.bind_eq_ok_iff.1 read
        obtain ⟨classifier, -, read⟩ := Outcome.bind_eq_ok_iff.1 read
        obtain ⟨extension, -, ⟨⟩⟩ := Outcome.bind_eq_ok_iff.1 read
        trivial
      · contradiction

/-- The leaves of a notation that stands for a value are direct. -/
theorem direct_of_ofJson {value : Json} {written : Notation} (read : ofJson value = .ok written) :
    ∀ leaf ∈ written.leaves, leaf.Direct := by
  induction value using ofJson.induct (motive_2 := fun values =>
    ∀ items, ofJsonEach values = .ok items → ∀ leaf ∈ leavesEach items, leaf.Direct)
    generalizing written with
  | case1 text =>
    rw [ofJson] at read
    cases read
    simp [leaves, Direct]
  | case2 items ih =>
    rw [ofJson, Outcome.map_eq_ok_iff] at read
    obtain ⟨each, read, rfl⟩ := read
    rw [leaves]
    exact ih each read
  | case3 members =>
    rw [ofJson] at read
    have direct := direct_of_ofMembers read
    cases written with
    | bundle items => exact direct.elim
    | _ => simpa [leaves] using direct
  | case4 value text array object =>
    rw [ofJson] at read
    · contradiction
    · exact text
    · exact array
    · exact object
  | case5 items found leaf member =>
    rw [ofJsonEach] at found
    cases found
    contradiction
  | case6 value values here later items found leaf member =>
    rw [ofJsonEach] at found
    obtain ⟨item, first, found⟩ := Outcome.bind_eq_ok_iff.1 found
    obtain ⟨rest, others, ⟨⟩⟩ := Outcome.bind_eq_ok_iff.1 found
    rcases List.mem_append.1 member with member | member
    · exact here first leaf member
    · exact later rest others leaf member

/-- Values are read one after the other. -/
theorem ofJsonEach_eq (values : List Json) : ofJsonEach values = values.mapM ofJson := by
  induction values with
  | nil => rw [ofJsonEach]; rfl
  | cons value values ih => rw [ofJsonEach, ih, List.mapM_cons]

/-- For direct leaves, what is recorded are the dependencies that they are parsed to. -/
theorem forall₂_recorded_iff {leaves : List Notation} {given : List Declared}
    (direct : ∀ leaf ∈ leaves, leaf.Direct) :
    List.Forall₂ (Recorded project none) leaves given ↔
      ∃ dependencies,
        List.Forall₂ (fun leaf dependency => leaf.parse project = .done dependency) leaves
          dependencies ∧ given = dependencies.map .resolved := by
  induction leaves generalizing given with
  | nil => simp
  | cons leaf leaves ih =>
    obtain ⟨here, later⟩ := List.forall_mem_cons.1 direct
    constructor
    · rintro (_ | ⟨recorded, others⟩)
      obtain ⟨dependencies, parsed, rfl⟩ := (ih later).1 others
      cases recorded with
      | lazy source => exact here.elim
      | direct _ read made =>
        cases made
        exact ⟨_ :: dependencies, .cons read parsed, rfl⟩
    · rintro ⟨_, _ | ⟨read, parsed⟩, rfl⟩
      exact .cons (.direct here read (.nothing _)) ((ih later).2 ⟨_, parsed, rfl⟩)

end Notation

end BuildPath
