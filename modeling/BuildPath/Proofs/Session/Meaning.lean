import BuildPath.Proofs.Declaration.Leaves
import BuildPath.Proofs.Session.Outcome

/-!
# What nested notations mean

A notation of bundles and lazy notations, nested to any depth, stands for its direct leaves from
left to right, those included that its lazy leaves yield (`Session.StandFor`). It is sound if
nothing is wrong with any of them (`Session.Sound`). Both go by the leaves of a notation, and by
what a lazy leaf yields. That parsing agrees with them is `Session.parseAll_meaning`.
-/

namespace BuildPath

/-- A leaf has no other leaves than itself. -/
theorem Notation.Single.leaves_eq {leaf : Notation} (single : leaf.Single) :
    leaf.leaves = [leaf] := by
  rw [leaves]
  rintro items rfl
  rcases single with impossible | ⟨source, impossible⟩
  · exact impossible
  · cases impossible

/-- Nothing else is among the leaves of a leaf. -/
theorem Notation.Single.mem_leaves_iff {leaf other : Notation} (single : leaf.Single) :
    other ∈ leaf.leaves ↔ other = leaf := by
  rw [single.leaves_eq, List.mem_singleton]

namespace Session

/-- Notations stand for the dependencies of their direct leaves from left to right, where a lazy
notation stands for what those stand for that it yields. -/
inductive StandFor (session : Session) (project : DeclaringProject) :
    List Notation → List Dependency → Prop
  | nil : StandFor session project [] []
  | direct {leaf : Notation} {dependency : Dependency} {rest : List Notation}
      {found : List Dependency} (direct : leaf.Direct)
      (read : leaf.parse project = .done dependency)
      (others : StandFor session project rest found) :
      StandFor session project (leaf :: rest) (dependency :: found)
  | bundle {items rest : List Notation} {inside found : List Dependency}
      (here : StandFor session project items inside)
      (others : StandFor session project rest found) :
      StandFor session project (.bundle items :: rest) (inside ++ found)
  | lazy {source : LazyValue Notation} {items rest : List Notation} {inside found : List Dependency}
      (yields : session.outcome source.evaluate = .ok items)
      (here : StandFor session project items inside)
      (others : StandFor session project rest found) :
      StandFor session project (.deferred source :: rest) (inside ++ found)

/-- The leaves in a notation: its own, and those of everything that a lazy one among them yields. -/
inductive Holds (session : Session) : Notation → Notation → Prop
  | leaf {written leaf : Notation} (member : leaf ∈ written.leaves) : Holds session written leaf
  | yielded {written item leaf : Notation} {source : LazyValue Notation} {items : List Notation}
      (member : .deferred source ∈ written.leaves)
      (yields : session.outcome source.evaluate = .ok items) (present : item ∈ items)
      (below : Holds session item leaf) : Holds session written leaf

/-- A notation with nothing wrong in it: every lazy leaf evaluates, and every direct one parses. -/
def Sound (session : Session) (project : DeclaringProject) (written : Notation) : Prop :=
  (∀ source, session.Holds written (.deferred source) →
    ∃ items, session.outcome source.evaluate = .ok items) ∧
  ∀ leaf, session.Holds written leaf → leaf.Understood project

variable {session : Session} {project : DeclaringProject} {written other : Notation}
  {items : List Notation}

section StandFor

variable {found : List Dependency}

/-- One notation stands before the others. -/
theorem standFor_cons_iff : session.StandFor project (written :: items) found ↔
    ∃ first rest, session.StandFor project [written] first ∧
      session.StandFor project items rest ∧ found = first ++ rest := by
  constructor
  · intro stands
    cases stands with
    | direct direct read others => exact ⟨[_], _, .direct direct read .nil, others, rfl⟩
    | bundle here others => exact ⟨_, _, by simpa using StandFor.bundle here .nil, others, rfl⟩
    | lazy yields here others =>
      exact ⟨_, _, by simpa using StandFor.lazy yields here .nil, others, rfl⟩
  · rintro ⟨first, rest, here, others, rfl⟩
    cases here with
    | direct direct read nothing =>
      cases nothing
      exact .direct direct read others
    | bundle here nothing =>
      cases nothing
      simpa using StandFor.bundle here others
    | lazy yields here nothing =>
      cases nothing
      simpa using StandFor.lazy yields here others

/-- A bundle stands for what its elements do. -/
theorem standFor_bundle_iff :
    session.StandFor project [.bundle items] found ↔ session.StandFor project items found := by
  constructor
  · intro stands
    cases stands with
    | direct direct _ _ => exact direct.elim
    | bundle here nothing =>
      cases nothing
      simpa using here
  · intro here
    simpa using StandFor.bundle here .nil

/-- A lazy notation stands for what those do that it yields. -/
theorem standFor_deferred_iff {source : LazyValue Notation} :
    session.StandFor project [.deferred source] found ↔
      ∃ items, session.outcome source.evaluate = .ok items ∧
        session.StandFor project items found := by
  constructor
  · intro stands
    cases stands with
    | direct direct _ _ => exact direct.elim
    | lazy yields here nothing =>
      cases nothing
      exact ⟨_, yields, by simpa using here⟩
  · rintro ⟨items, yields, here⟩
    simpa using StandFor.lazy yields here .nil

/-- A direct notation stands for its dependency. -/
theorem standFor_direct_iff (direct : written.Direct) :
    session.StandFor project [written] found ↔
      ∃ dependency, written.parse project = .done dependency ∧ found = [dependency] := by
  constructor
  · intro stands
    cases stands with
    | direct _ read nothing =>
      cases nothing
      exact ⟨_, read, rfl⟩
    | bundle _ _ => exact direct.elim
    | lazy _ _ _ => exact direct.elim
  · rintro ⟨dependency, read, rfl⟩
    exact .direct direct read .nil

/-- Some notations stand before the others. -/
theorem standFor_append_iff {others : List Notation} :
    session.StandFor project (items ++ others) found ↔
      ∃ first rest, session.StandFor project items first ∧
        session.StandFor project others rest ∧ found = first ++ rest := by
  induction items generalizing found with
  | nil =>
    constructor
    · exact fun stands => ⟨[], found, .nil, stands, rfl⟩
    · rintro ⟨first, rest, nothing, stands, rfl⟩
      cases nothing
      exact stands
  | cons item items ih =>
    rw [List.cons_append, standFor_cons_iff]
    constructor
    · rintro ⟨first, _, here, later, rfl⟩
      obtain ⟨middle, rest, between, last, rfl⟩ := ih.1 later
      exact ⟨first ++ middle, rest, standFor_cons_iff.2 ⟨first, middle, here, between, rfl⟩, last,
        (List.append_assoc ..).symm⟩
    · rintro ⟨_, rest, begins, last, rfl⟩
      obtain ⟨first, middle, here, between, rfl⟩ := standFor_cons_iff.1 begins
      exact ⟨first, middle ++ rest, here, ih.2 ⟨middle, rest, between, last, rfl⟩,
        List.append_assoc ..⟩

/-- Notations among others may be exchanged for those that stand for the same. -/
theorem standFor_between_congr {before inner others after : List Notation}
    (alike : ∀ found, session.StandFor project inner found ↔
      session.StandFor project others found) :
    session.StandFor project (before ++ inner ++ after) found ↔
      session.StandFor project (before ++ others ++ after) found := by
  simp only [standFor_append_iff, alike]

/-- A notation stands for what its leaves do. -/
theorem standFor_leaves_iff :
    session.StandFor project [written] found ↔ session.StandFor project written.leaves found := by
  induction written using Notation.leaves.induct (motive_2 := fun items => ∀ found,
    session.StandFor project items found ↔
      session.StandFor project (Notation.leavesEach items) found) generalizing found with
  | case1 items ih => rw [standFor_bundle_iff, Notation.leaves, ih]
  | case2 leaf single => rw [Notation.leaves]; exact single
  | case3 found => rw [Notation.leavesEach]
  | case4 item items here later found =>
    rw [Notation.leavesEach, standFor_cons_iff, standFor_append_iff]
    simp only [here, later]

end StandFor

section Sound

variable {leaf : Notation} {source : LazyValue Notation}

/-- What a notation holds is held by one of its leaves. -/
theorem holds_iff_leaves : session.Holds written leaf ↔
    ∃ own ∈ written.leaves, session.Holds own leaf := by
  constructor
  · intro holds
    cases holds with
    | leaf member =>
      have single := Notation.single_of_mem_leaves member
      exact ⟨leaf, member, .leaf (single.mem_leaves_iff.2 rfl)⟩
    | yielded member yields present below =>
      have single := Notation.single_of_mem_leaves member
      exact ⟨_, member, .yielded (single.mem_leaves_iff.2 rfl) yields present below⟩
  · rintro ⟨own, member, holds⟩
    have single := Notation.single_of_mem_leaves member
    cases holds with
    | leaf same => exact .leaf (single.mem_leaves_iff.1 same ▸ member)
    | yielded same yields present below =>
      exact .yielded (single.mem_leaves_iff.1 same ▸ member) yields present below

/-- A direct notation holds nothing but itself. -/
theorem holds_direct_iff (direct : written.Direct) :
    session.Holds written leaf ↔ leaf = written := by
  have single : written.Single := .inl direct
  constructor
  · intro holds
    cases holds with
    | leaf same => exact single.mem_leaves_iff.1 same
    | yielded same _ _ _ =>
      cases single.mem_leaves_iff.1 same
      exact direct.elim
  · rintro rfl
    exact .leaf (single.mem_leaves_iff.2 rfl)

/-- A lazy notation holds itself and what anything holds that it yields. -/
theorem holds_deferred_iff : session.Holds (.deferred source) leaf ↔
    leaf = .deferred source ∨ ∃ items, session.outcome source.evaluate = .ok items ∧
      ∃ item ∈ items, session.Holds item leaf := by
  have single : (Notation.deferred source).Single := .inr ⟨source, rfl⟩
  constructor
  · intro holds
    cases holds with
    | leaf same => exact .inl (single.mem_leaves_iff.1 same)
    | yielded same yields present below =>
      cases single.mem_leaves_iff.1 same
      exact .inr ⟨_, yields, _, present, below⟩
  · rintro (rfl | ⟨items, yields, item, present, below⟩)
    · exact .leaf (single.mem_leaves_iff.2 rfl)
    · exact .yielded (single.mem_leaves_iff.2 rfl) yields present below

/-- A notation is sound when its leaves are. -/
theorem sound_iff_leaves :
    session.Sound project written ↔ ∀ own ∈ written.leaves, session.Sound project own := by
  constructor
  · rintro ⟨evaluates, understood⟩ own member
    exact ⟨fun source holds => evaluates source (holds_iff_leaves.2 ⟨own, member, holds⟩),
      fun leaf holds => understood leaf (holds_iff_leaves.2 ⟨own, member, holds⟩)⟩
  · intro sound
    constructor
    · intro source holds
      obtain ⟨own, member, holds⟩ := holds_iff_leaves.1 holds
      exact (sound own member).1 source holds
    · intro leaf holds
      obtain ⟨own, member, holds⟩ := holds_iff_leaves.1 holds
      exact (sound own member).2 leaf holds

/-- A direct notation is sound when it is not malformed. -/
theorem sound_direct_iff (direct : written.Direct) :
    session.Sound project written ↔ written.Understood project := by
  simp only [Sound, holds_direct_iff direct, forall_eq, and_iff_right_iff_imp]
  rintro - source rfl
  exact direct.elim

/-- A lazy notation is sound when its source evaluates and what that yields is sound. -/
theorem sound_deferred_iff : session.Sound project (.deferred source) ↔
    ∃ items, session.outcome source.evaluate = .ok items ∧
      ∀ item ∈ items, session.Sound project item := by
  constructor
  · rintro ⟨evaluates, understood⟩
    obtain ⟨items, yields⟩ := evaluates source (holds_deferred_iff.2 (.inl rfl))
    have below : ∀ item ∈ items, ∀ leaf, session.Holds item leaf →
        session.Holds (.deferred source) leaf := fun item present leaf holds =>
      holds_deferred_iff.2 (.inr ⟨items, yields, item, present, holds⟩)
    exact ⟨items, yields, fun item present =>
      ⟨fun other holds => evaluates other (below item present _ holds),
        fun leaf holds => understood leaf (below item present leaf holds)⟩⟩
  · rintro ⟨items, yields, sound⟩
    simp only [Sound, holds_deferred_iff, yields, Except.ok.injEq, exists_eq_left']
    constructor
    · rintro other (same | ⟨item, present, holds⟩)
      · cases same
        exact ⟨items, yields⟩
      · exact (sound item present).1 other holds
    · rintro leaf (rfl | ⟨item, present, holds⟩)
      · exact fun impossible => impossible.elim
      · exact (sound item present).2 leaf holds

end Sound

end Session

end BuildPath
