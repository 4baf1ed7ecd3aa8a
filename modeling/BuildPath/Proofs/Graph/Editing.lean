import BuildPath.Proofs.Graph.Lookup

/-!
# Edits in a row

When a list of edits succeeds, and what the edits of one configuration come to. A configuration that
takes changes is replaced where it stands among the others (`Graph.mutate_between`), and so a row of
changes of it is made on it alone (`Graph.editAll_changes`). What conventions a graph remembers
makes no difference to edits (`Graph.editAll_note`), and they leave it as it is.
-/

namespace BuildPath

namespace Graph

variable {graph after : Graph} {error : Error}

/-- Edits in a row succeed when the first does and then the others. -/
theorem editAll_cons_eq_ok_iff {first : Edit} {rest : List Edit} :
    graph.editAll (first :: rest) = (.ok (), after) ↔
      ∃ changed, first.apply graph = .ok changed ∧ changed.editAll rest = (.ok (), after) := by
  rw [editAll]
  cases first.apply graph <;> simp

/-- One edit succeeds alone as it does in a row. -/
theorem editAll_singleton_eq_ok_iff {edit : Edit} :
    graph.editAll [edit] = (.ok (), after) ↔ edit.apply graph = .ok after := by
  rw [editAll]
  cases edit.apply graph <;> simp [editAll]

/-- Edits in two parts succeed when the first part does and then the second. -/
theorem editAll_append_eq_ok_iff {first second : List Edit} :
    graph.editAll (first ++ second) = (.ok (), after) ↔
      ∃ middle, graph.editAll first = (.ok (), middle) ∧
        middle.editAll second = (.ok (), after) := by
  rw [editAll_append]
  rcases graph.editAll first with ⟨_ | _, middle⟩ <;> simp

/-- Edits stop at the first that fails, in the graph that the edits before it left. -/
theorem editAll_eq_error_iff {edits : List Edit} :
    graph.editAll edits = (.error error, after) ↔
      ∃ earlier failing later, edits = earlier ++ failing :: later ∧
        graph.editAll earlier = (.ok (), after) ∧ failing.apply after = .error error := by
  constructor
  · intro failed
    induction edits generalizing graph with
    | nil => cases failed
    | cons edit rest ih =>
      rw [editAll] at failed
      cases done : edit.apply graph with
      | error other =>
        rw [done] at failed
        cases failed
        exact ⟨[], edit, rest, rfl, rfl, done⟩
      | ok changed =>
        rw [done] at failed
        obtain ⟨earlier, failing, later, rfl, before, failed⟩ := ih failed
        refine ⟨edit :: earlier, failing, later, rfl, ?_, failed⟩
        rw [editAll, done]
        exact before
  · rintro ⟨earlier, failing, later, rfl, before, failed⟩
    rw [editAll_append, before]
    dsimp only
    rw [editAll, failed]

section Conventions

/-- No edit remembers or forgets a convention. -/
theorem conventions_of_apply {edit : Edit} (done : edit.apply graph = .ok after) :
    after.conventions = graph.conventions := by
  cases edited_of_apply done <;> rfl

/-- No edits remember or forget a convention. -/
@[simp] theorem conventions_editAll (graph : Graph) (edits : List Edit) :
    (graph.editAll edits).2.conventions = graph.conventions := by
  induction edits generalizing graph with
  | nil => rfl
  | cons edit rest ih =>
    unfold editAll
    split
    next changed done => rw [ih changed, conventions_of_apply done]
    · rfl

/-- Whatever came of edits, the same conventions are remembered. -/
theorem conventions_of_editAll {edits : List Edit} {outcome : Outcome Unit}
    (edited : graph.editAll edits = (outcome, after)) : after.conventions = graph.conventions := by
  rw [← graph.conventions_editAll edits, edited]

/-- The conventions that a graph remembers make no difference to edits. -/
theorem apply_note (edit : Edit) (graph : Graph) (conventions : List String) :
    edit.apply { graph with conventions } =
      (fun after : Graph => { after with conventions }) <$> edit.apply graph := by
  have found (name : String) : find? { graph with conventions } name = graph.find? name := rfl
  have known (name : String) : contains { graph with conventions } name = graph.contains name := rfl
  have changeable (configuration : Configuration) :
      isMutable { graph with conventions } configuration = graph.isMutable configuration := rfl
  have mutated (name : String) (change : Configuration → Configuration) :
      mutate { graph with conventions } name change =
        (fun after : Graph => { after with conventions }) <$> graph.mutate name change := by
    simp only [mutate_eq, found, changeable]
    cases graph.find? name with
    | none => rfl
    | some configuration =>
      dsimp only
      cases graph.isMutable configuration <;> rfl
  have created (name : String) : create { graph with conventions } name =
      (fun after : Graph => { after with conventions }) <$> graph.create name := by
    simp only [create, known]
    cases graph.contains name <;> cases graph.frozen <;> rfl
  cases edit with
  | create name => exact created name
  | ensure name =>
    simp only [Edit.apply, ensure, known]
    cases graph.contains name with
    | true => rfl
    | false => exact created name
  | extend child parent =>
    simp only [Edit.apply, extend_eq, found, changeable]
    cases graph.find? child with
    | none => rfl
    | some inheriting =>
      cases graph.find? parent with
      | none => rfl
      | some inherited =>
        dsimp only
        cases graph.inheritances.contains ⟨child, parent⟩ <;>
          cases (Inheritance.hierarchy graph.inheritances parent).contains child <;>
          cases graph.isMutable inheriting <;> rfl
  | add name written action =>
    simp only [Edit.apply, add]
    change (graph.declarations written action >>= fun _ => _) = _
    cases graph.declarations written action with
    | error error => rfl
    | ok declared => exact mutated name _
  | _ => exact mutated _ _

/-- The conventions that a graph remembers make no difference to edits in a row. -/
theorem editAll_note (graph : Graph) (conventions : List String) (edits : List Edit) :
    editAll { graph with conventions } edits =
      ((graph.editAll edits).1, { (graph.editAll edits).2 with conventions }) := by
  induction edits generalizing graph with
  | nil => rfl
  | cons edit rest ih =>
    rw [editAll, editAll, apply_note]
    cases edit.apply graph with
    | error error => rfl
    | ok changed => exact ih changed

/-- Edits come out the same whatever conventions a graph remembers, and lead to the same but for
these. -/
theorem editAll_note_eq_iff {conventions : List String} {edits : List Edit}
    {outcome : Outcome Unit} :
    editAll { graph with conventions } edits = (outcome, after) ↔
      ∃ changed, graph.editAll edits = (outcome, changed) ∧
        after = { changed with conventions } := by
  rw [editAll_note]
  rcases graph.editAll edits with ⟨other, changed⟩
  simp only [Prod.mk.injEq]
  constructor
  · rintro ⟨same, rfl⟩
    exact ⟨changed, ⟨same, rfl⟩, rfl⟩
  · rintro ⟨_, ⟨same, rfl⟩, rfl⟩
    exact ⟨same, rfl⟩

end Conventions

section Between

variable {before later : List Configuration} {configuration : Configuration}
  (distinct : ((before ++ configuration :: later).map Configuration.name).Nodup)
include distinct

/-- To change one of several configurations is to replace it where it stands. -/
theorem modify_between (change : Configuration → Configuration) :
    modify { graph with configurations := before ++ configuration :: later } configuration.name
        change =
      { graph with configurations := before ++ change configuration :: later } := by
  rw [List.map_append, List.map_cons, List.nodup_middle, List.nodup_cons, List.mem_append,
    not_or] at distinct
  obtain ⟨⟨absentBefore, absentLater⟩, -⟩ := distinct
  have kept {others : List Configuration}
      (absent : configuration.name ∉ others.map Configuration.name) :
      others.map (fun other => if other.name == configuration.name then change other else other) =
        others := by
    refine (List.map_congr_left fun other member => if_neg fun same => ?_).trans (List.map_id' _)
    exact absent (eq_of_beq same ▸ List.mem_map_of_mem member)
  simp only [modify, List.map_append, List.map_cons, kept absentBefore, kept absentLater,
    beq_self_eq_true, if_true]

variable (thawed : graph.frozen = false) (unobserved : configuration.observed = false)
include thawed unobserved

/-- One of several configurations can be changed unless it was observed. -/
theorem mutate_between (change : Configuration → Configuration) :
    mutate { graph with configurations := before ++ configuration :: later } configuration.name
        change =
      .ok { graph with configurations := before ++ change configuration :: later } := by
  refine mutate_eq_ok_iff.2 ⟨configuration, find?_of_mem distinct (by simp), ?_, ?_⟩
  · simp [isMutable, thawed, unobserved]
  · exact (modify_between distinct change).symm

/-- Changes of one of several configurations are made in a row. -/
theorem editAll_changes {Item : Type} {edit : Item → Edit}
    {change : Item → Configuration → Configuration}
    (applies : ∀ item graph,
      (edit item).apply graph = graph.mutate configuration.name (change item))
    (changes : ∀ item, Configuration.Change (change item)) (items : List Item) :
    editAll { graph with configurations := before ++ configuration :: later } (items.map edit) =
      (.ok (), { graph with
        configurations :=
          before ++ items.foldl (fun changed item => change item changed) configuration ::
            later }) := by
  induction items generalizing configuration with
  | nil => rfl
  | cons item items ih =>
    have named := (changes item).name_eq configuration
    refine editAll_cons_eq_ok_iff.2 ⟨_, (applies item _).trans
      (mutate_between distinct thawed unobserved (change item)), ?_⟩
    refine ih ?_ ?_ fun item graph => ?_
    · rwa [List.map_append, List.map_cons, named, ← List.map_cons, ← List.map_append]
    · rw [(changes item).observed_eq, unobserved]
    · rw [named]
      exact applies item graph

end Between

end Graph

end BuildPath
