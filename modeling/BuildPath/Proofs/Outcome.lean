import BuildPath.Error
import Mathlib.Data.List.Perm.Basic

/-!
# Outcomes taken apart

What a successful sequence of outcomes comes from (`Outcome.bind_eq_ok_iff`), and what a failed one
does (`Outcome.bind_eq_error_iff`). Of a list, something is obtained when it is of every item
(`Outcome.mapM_eq_ok_iff_forall₂`); otherwise the first item of which nothing is obtained decides
the error (`Outcome.mapM_eq_error_iff`). What concerns success holds of failures of any type.
-/

namespace BuildPath.Outcome

variable {Value Result Item Failure : Type}

/-- Outcomes in sequence succeed when each of them does. -/
theorem bind_eq_ok_iff {outcome : Except Failure Value} {next : Value → Except Failure Result}
    {result : Result} :
    outcome >>= next = .ok result ↔ ∃ value, outcome = .ok value ∧ next value = .ok result := by
  cases outcome with
  | error error =>
    constructor
    · exact nofun
    · rintro ⟨value, impossible, -⟩
      contradiction
  | ok value =>
    constructor
    · exact fun done => ⟨value, rfl, done⟩
    · rintro ⟨_, ⟨⟩, done⟩
      exact done

/-- Outcomes in sequence fail when the first of them does, or else the second. -/
theorem bind_eq_error_iff {outcome : Outcome Value} {next : Value → Outcome Result}
    {error : Error} : outcome >>= next = .error error ↔
      outcome = .error error ∨ ∃ value, outcome = .ok value ∧ next value = .error error := by
  cases outcome with
  | error other =>
    change Except.error other = _ ↔ _
    simp
  | ok value =>
    change next value = _ ↔ _
    simp

/-- An outcome under a function that does not fail succeeds when it did before. -/
theorem map_eq_ok_iff {outcome : Except Failure Value} {change : Value → Result}
    {result : Result} :
    change <$> outcome = .ok result ↔ ∃ value, outcome = .ok value ∧ change value = result := by
  cases outcome with
  | error error =>
    constructor
    · exact nofun
    · rintro ⟨value, impossible, -⟩
      contradiction
  | ok value =>
    constructor
    · exact fun done => ⟨value, rfl, Except.ok.inj done⟩
    · rintro ⟨_, ⟨⟩, rfl⟩
      rfl

/-- An outcome succeeds whatever is said of its failures. -/
theorem mapError_eq_ok_iff {Other : Type} {outcome : Except Failure Value}
    {change : Failure → Other} {value : Value} :
    outcome.mapError change = .ok value ↔ outcome = .ok value := by
  cases outcome <;> simp [Except.mapError]

/-- Something comes of an outcome under a function that does not fail if something did before. -/
theorem exists_map_eq_ok_iff {outcome : Outcome Value} {change : Value → Result} :
    (∃ result, change <$> outcome = .ok result) ↔ ∃ value, outcome = .ok value := by
  simp only [map_eq_ok_iff]
  exact ⟨fun ⟨_, value, done, _⟩ => ⟨value, done⟩, fun ⟨value, done⟩ => ⟨_, value, done, rfl⟩⟩

/-- An outcome under a function that does not fail fails when it did before. -/
theorem map_eq_error_iff {outcome : Outcome Value} {change : Value → Result} {error : Error} :
    change <$> outcome = .error error ↔ outcome = .error error := by
  cases outcome with
  | error other =>
    change Except.error other = _ ↔ _
    simp
  | ok value =>
    change Except.ok (change value) = _ ↔ _
    simp

section List

section Success

variable {find : Item → Except Failure Value} {items : List Item} {values : List Value}

/-- Something is obtained of every item of a list if it is of the first and of the others. -/
theorem mapM_cons_eq_ok_iff {first : Item} : (first :: items).mapM find = .ok values ↔
    ∃ value others, find first = .ok value ∧ items.mapM find = .ok others ∧
      values = value :: others := by
  rw [List.mapM_cons, bind_eq_ok_iff]
  constructor
  · rintro ⟨value, here, done⟩
    obtain ⟨others, later, same⟩ := bind_eq_ok_iff.1 done
    cases same
    exact ⟨value, others, here, later, rfl⟩
  · rintro ⟨value, others, here, later, rfl⟩
    exact ⟨value, here, bind_eq_ok_iff.2 ⟨others, later, rfl⟩⟩

/-- What is obtained of a list of items is obtained of each, in order. -/
theorem mapM_eq_ok_iff_forall₂ : items.mapM find = .ok values ↔
    List.Forall₂ (fun item value => find item = .ok value) items values := by
  induction items generalizing values with
  | nil =>
    constructor
    · rintro ⟨⟩
      exact .nil
    · rintro ⟨⟩
      rfl
  | cons first rest ih =>
    rw [mapM_cons_eq_ok_iff]
    constructor
    · rintro ⟨value, others, here, later, rfl⟩
      exact .cons here (ih.1 later)
    · rintro (_ | ⟨here, later⟩)
      exact ⟨_, _, here, ih.2 later, rfl⟩

/-- What is obtained of all items, where it is known what is obtained of each. -/
theorem mapM_eq_ok_map {value : Item → Value}
    (known : ∀ item ∈ items, find item = .ok (value item)) :
    items.mapM find = .ok (items.map value) := by
  rw [mapM_eq_ok_iff_forall₂, List.forall₂_map_right_iff]
  exact List.forall₂_same.2 known

/-- To each item of a list belongs something. -/
theorem exists_mem_of_forall₂ {relation : Item → Value → Prop}
    (related : List.Forall₂ relation items values) :
    ∀ item ∈ items, ∃ value ∈ values, relation item value := by
  induction related with
  | nil => exact nofun
  | @cons first value rest values here _ ih =>
    refine List.forall_mem_cons.2 ⟨⟨value, List.mem_cons_self, here⟩, fun item member => ?_⟩
    obtain ⟨other, present, belongs⟩ := ih item member
    exact ⟨other, List.mem_cons_of_mem _ present, belongs⟩

/-- What was obtained of a list of items was obtained of one of them. -/
theorem exists_of_mem_mapM_eq_ok (found : items.mapM find = .ok values) :
    ∀ value ∈ values, ∃ item ∈ items, find item = .ok value :=
  exists_mem_of_forall₂ (mapM_eq_ok_iff_forall₂.1 found).flip

/-- Something was obtained of each item of a list. -/
theorem exists_mem_of_mapM_eq_ok (found : items.mapM find = .ok values) :
    ∀ item ∈ items, ∃ value ∈ values, find item = .ok value :=
  exists_mem_of_forall₂ (mapM_eq_ok_iff_forall₂.1 found)

/-- Of the same items in another order, the same is obtained in another order. -/
theorem exists_mapM_eq_ok_of_perm {others : List Item} (perm : items.Perm others)
    (found : items.mapM find = .ok values) :
    ∃ results, others.mapM find = .ok results ∧ values.Perm results := by
  obtain ⟨results, related, same⟩ :=
    List.perm_comp_forall₂ perm.symm (mapM_eq_ok_iff_forall₂.1 found)
  exact ⟨results, mapM_eq_ok_iff_forall₂.2 related, same.symm⟩

end Success

variable {find : Item → Outcome Value} {items : List Item} {values : List Value} {error : Error}

/-- There is something for each item of a list when there is for every one. -/
theorem exists_forall₂_iff {relation : Item → Value → Prop} :
    (∃ values, List.Forall₂ relation items values) ↔
      ∀ item ∈ items, ∃ value, relation item value := by
  induction items with
  | nil => simp
  | cons first rest ih =>
    rw [List.forall_mem_cons, ← ih]
    constructor
    · rintro ⟨_, _ | ⟨here, later⟩⟩
      exact ⟨⟨_, here⟩, ⟨_, later⟩⟩
    · rintro ⟨⟨value, here⟩, ⟨values, later⟩⟩
      exact ⟨value :: values, .cons here later⟩

/-- A list of items yields when each of them does. -/
theorem exists_mapM_eq_ok_iff : (∃ values, items.mapM find = .ok values) ↔
    ∀ item ∈ items, ∃ value, find item = .ok value := by
  simp only [mapM_eq_ok_iff_forall₂, exists_forall₂_iff]

/-- What is obtained of all items, where it is known of each what is obtained of it. -/
theorem mapM_eq_ok_iff_of_forall₂ {Other : Type} {others : List Other}
    {relation : Other → Value → Prop} (known : List.Forall₂ (fun other item =>
      ∀ value, find item = .ok value ↔ relation other value) others items) :
    items.mapM find = .ok values ↔ List.Forall₂ relation others values := by
  rw [mapM_eq_ok_iff_forall₂]
  induction known generalizing values with
  | nil => rw [List.forall₂_nil_left_iff, List.forall₂_nil_left_iff]
  | cons here _ ih =>
    rw [List.forall₂_cons_left_iff, List.forall₂_cons_left_iff]
    simp only [here, ih]

/-- Nothing is obtained of a list of items when it is not of one of them, and the first such item
decides the error. -/
theorem mapM_eq_error_iff : items.mapM find = .error error ↔
    ∃ earlier failing later, items = earlier ++ failing :: later ∧
      (∀ item ∈ earlier, ∃ value, find item = .ok value) ∧ find failing = .error error := by
  induction items with
  | nil =>
    constructor
    · exact nofun
    · rintro ⟨earlier, failing, later, impossible, -⟩
      simp at impossible
  | cons first rest ih =>
    rw [List.mapM_cons, bind_eq_error_iff]
    constructor
    · rintro (here | ⟨value, here, failed⟩)
      · exact ⟨[], first, rest, rfl, nofun, here⟩
      · rcases bind_eq_error_iff.1 failed with failed | ⟨others, -, impossible⟩
        · obtain ⟨earlier, failing, later, rfl, before, failed⟩ := ih.1 failed
          refine ⟨first :: earlier, failing, later, rfl, ?_, failed⟩
          exact List.forall_mem_cons.2 ⟨⟨value, here⟩, before⟩
        · contradiction
    · rintro ⟨earlier, failing, later, split, before, failed⟩
      cases earlier with
      | nil =>
        cases split
        exact .inl failed
      | cons head tail =>
        cases split
        obtain ⟨⟨value, here⟩, before⟩ := List.forall_mem_cons.1 before
        exact .inr ⟨value, here, bind_eq_error_iff.2
          (.inl (ih.2 ⟨tail, failing, later, rfl, before, failed⟩))⟩

/-- The same is obtained of two lists if it is of their items, one by one. -/
theorem mapM_eq_mapM_of_forall₂ {search : Item → Outcome Result} {next : Value → Outcome Result}
    (alike : List.Forall₂ (fun item value => search item = next value) items values) :
    items.mapM search = values.mapM next := by
  induction alike with
  | nil => rfl
  | cons here _ ih => rw [List.mapM_cons, List.mapM_cons, here, ih]

/-- What is obtained of values that were obtained of items is obtained of these at once. -/
theorem mapM_bind_of_ok {next : Value → Outcome Result} (found : items.mapM find = .ok values) :
    items.mapM (fun item => find item >>= next) = values.mapM next := by
  refine mapM_eq_mapM_of_forall₂ ((mapM_eq_ok_iff_forall₂.1 found).imp fun item value here => ?_)
  rw [here]
  rfl

/-- What is obtained of all items and then of all values, if it is, is obtained of one item after
the other. -/
theorem mapM_bind_mapM_eq_ok_iff {next : Value → Outcome Result} {results : List Result} :
    items.mapM find >>= List.mapM next = .ok results ↔
      items.mapM (fun item => find item >>= next) = .ok results := by
  rw [bind_eq_ok_iff]
  constructor
  · rintro ⟨values, found, done⟩
    rw [mapM_bind_of_ok found, done]
  · intro done
    have each : ∀ item ∈ items, ∃ value, find item = .ok value := by
      intro item member
      obtain ⟨result, -, obtained⟩ := exists_mem_of_mapM_eq_ok done item member
      obtain ⟨value, found, -⟩ := bind_eq_ok_iff.1 obtained
      exact ⟨value, found⟩
    obtain ⟨values, found⟩ := exists_mapM_eq_ok_iff.2 each
    exact ⟨values, found, (mapM_bind_of_ok found).symm.trans done⟩

/-- What is obtained of items may be changed one by one or afterwards. -/
theorem mapM_map (change : Value → Result) :
    items.mapM (fun item => change <$> find item) = List.map change <$> items.mapM find := by
  induction items with
  | nil => rfl
  | cons first rest ih =>
    rw [List.mapM_cons, List.mapM_cons, ih]
    cases find first with
    | error error => rfl
    | ok value => cases rest.mapM find <;> rfl

/-- Something is obtained of the elements of several lists when it is of each list. -/
theorem mapM_flatten (lists : List (List Item)) :
    lists.flatten.mapM find = List.flatten <$> lists.mapM (List.mapM find) := by
  induction lists with
  | nil => rfl
  | cons first rest ih =>
    rw [List.flatten_cons, List.mapM_append, ih, List.mapM_cons]
    simp

end List

end BuildPath.Outcome
