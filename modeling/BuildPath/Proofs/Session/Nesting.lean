import BuildPath.Proofs.Declaration.Coordinates
import BuildPath.Proofs.Declaration.Values
import BuildPath.Proofs.Session.Meaning
import BuildPath.Proofs.Session.Parsing

/-!
# Parsing nested notations

Parsing a notation gives what it stands for if nothing is wrong with it. If something is, the direct
leaves that are reached without evaluating anything come first, and then the lazy ones in order
(`Session.Fails`). How notations are grouped, and what is wrapped into a lazy notation, makes no
difference to a success (`Session.Regroups`). All of it is `Session.parseAll_meaning`, of notations
whose lazy sources yield the same each time.
-/

namespace BuildPath

open Relation

section Declare

variable {project : DeclaringProject} {written : Notation} {error : Error}

/-- A notation is declared when nothing is wrong with its direct leaves. -/
theorem Notation.exists_declare_iff : (∃ declared, written.declare project = .ok declared) ↔
    ∀ leaf ∈ written.leaves, leaf.Understood project := by
  rw [declare_eq_leaves, Outcome.exists_map_eq_ok_iff, Outcome.exists_mapM_eq_ok_iff]
  exact forall₂_congr fun leaf member => (single_of_mem_leaves member).exists_declare_iff

/-- A notation fails to be declared for the leftmost of its direct leaves that is malformed. -/
theorem Notation.declare_eq_error_iff : written.declare project = .error error ↔
    ∃ earlier leaf later, written.leaves = earlier ++ leaf :: later ∧
      (∀ other ∈ earlier, other.Understood project) ∧ leaf.Direct ∧
        leaf.parse project = .failed error := by
  rw [declare_eq_leaves, Outcome.map_eq_error_iff, Outcome.mapM_eq_error_iff]
  refine exists₃_congr fun earlier leaf later => and_congr_right fun split => ?_
  have single : ∀ leaf ∈ written.leaves, leaf.Single := fun _ => single_of_mem_leaves
  rw [split, List.forall_mem_append, List.forall_mem_cons] at single
  obtain ⟨before, here, -⟩ := single
  exact and_congr (forall₂_congr fun other member => (before other member).exists_declare_iff)
    here.declare_eq_error_iff

end Declare

/-- To parse a lazy notation is to evaluate it and then to parse what it yields. -/
theorem Notation.parseAll_deferred (project : DeclaringProject) (source : LazyValue Notation) :
    (Notation.deferred source).parseAll project = source.evaluate >>= parseEach project := by
  unfold parseAll
  rw [declare_deferred]
  change evaluateAll [_] = _
  rw [evaluateAll_cons]
  change _ >>= (fun given => pure (given ++ [])) = _
  simp only [List.append_nil, bind_pure]
  rfl

namespace Session

/-- What is wrong with a notation. That is the leftmost direct leaf that does not parse. If they all
do, it is the first lazy leaf that has something wrong: its source, or the first notation that it
yields which has something wrong by this same rule. -/
inductive Fails (session : Session) (project : DeclaringProject) : Notation → Error → Prop
  | misread {written leaf : Notation} {earlier later : List Notation} {error : Error}
      (split : written.leaves = earlier ++ leaf :: later)
      (before : ∀ other ∈ earlier, other.Understood project) (direct : leaf.Direct)
      (failed : leaf.parse project = .failed error) : Fails session project written error
  | source {written : Notation} {source : LazyValue Notation} {earlier later : List Notation}
      {error : Error} (understood : ∀ leaf ∈ written.leaves, leaf.Understood project)
      (split : written.leaves = earlier ++ .deferred source :: later)
      (before : ∀ other ∈ earlier, session.Sound project other)
      (failed : session.outcome source.evaluate = .error error) :
      Fails session project written error
  | yielded {written item : Notation} {source : LazyValue Notation}
      {earlier later first rest : List Notation} {error : Error}
      (understood : ∀ leaf ∈ written.leaves, leaf.Understood project)
      (split : written.leaves = earlier ++ .deferred source :: later)
      (before : ∀ other ∈ earlier, session.Sound project other)
      (yields : session.outcome source.evaluate = .ok (first ++ item :: rest))
      (passed : ∀ other ∈ first, session.Sound project other)
      (failed : Fails session project item error) : Fails session project written error

/-- A lazy notation that yields these notations each time. -/
def Gives (session : Session) (source : LazyValue Notation) (items : List Notation) : Prop :=
  session.Constant source.evaluate ∧ session.outcome source.evaluate = .ok items

/-- A change of how a notation is put together: elements of a bundle become a bundle of their own,
or a notation is wrapped into a lazy one, anywhere in it. -/
inductive Regroups (session : Session) : Notation → Notation → Prop
  | group (before inner after : List Notation) : Regroups session
      (.bundle (before ++ inner ++ after)) (.bundle (before ++ .bundle inner :: after))
  | wrap (written : Notation) : Regroups session written (.deferred (.of written))
  | within {item other : Notation} (before after : List Notation)
      (step : Regroups session item other) :
      Regroups session (.bundle (before ++ item :: after)) (.bundle (before ++ other :: after))
  | yielded {source result : LazyValue Notation} {item other : Notation}
      {before after : List Notation} (given : session.Gives source (before ++ item :: after))
      (gives : session.Gives result (before ++ other :: after))
      (step : Regroups session item other) :
      Regroups session (.deferred source) (.deferred result)

variable {session : Session} {project : DeclaringProject} {written other : Notation}
  {items : List Notation}

section Fixed

variable {leaf : Notation} {source : LazyValue Notation} {found : List Dependency} {error : Error}

/-- A notation is fixed when its leaves are. -/
theorem fixed_iff_leaves :
    session.Fixed written ↔ ∀ own ∈ written.leaves, session.Fixed own := by
  constructor
  · rintro ⟨constant, yielded⟩ own member
    have single := Notation.single_of_mem_leaves member
    refine .intro (fun source same => ?_) fun source same => ?_
    · exact constant source (single.mem_leaves_iff.1 same ▸ member)
    · exact yielded source (single.mem_leaves_iff.1 same ▸ member)
  · intro each
    have self : ∀ source, .deferred source ∈ (Notation.deferred source).leaves := fun source =>
      Notation.Single.mem_leaves_iff (.inr ⟨source, rfl⟩) |>.2 rfl
    refine .intro (fun source member => ?_) fun source member => ?_
    · obtain ⟨constant, -⟩ := each _ member
      exact constant source (self source)
    · obtain ⟨-, yielded⟩ := each _ member
      exact yielded source (self source)

/-- A direct notation is fixed. -/
theorem fixed_of_direct (direct : leaf.Direct) : session.Fixed leaf := by
  have single : leaf.Single := .inl direct
  refine .intro (fun source same => ?_) fun source same => ?_ <;>
  · cases single.mem_leaves_iff.1 same
    exact direct.elim

/-- A lazy notation is fixed when its source comes out alike and what it yields is fixed. -/
theorem fixed_deferred_iff : session.Fixed (.deferred source) ↔ session.Constant source.evaluate ∧
    ∀ items, session.outcome source.evaluate = .ok items → ∀ item ∈ items, session.Fixed item := by
  have single : (Notation.deferred source).Single := .inr ⟨source, rfl⟩
  constructor
  · rintro ⟨constant, yielded⟩
    have self := single.mem_leaves_iff.2 rfl
    exact ⟨constant source self, yielded source self⟩
  · rintro ⟨constant, yielded⟩
    refine .intro (fun other same => ?_) fun other same => ?_
    · cases single.mem_leaves_iff.1 same
      exact constant
    · cases single.mem_leaves_iff.1 same
      exact yielded

/-- What comes of a direct notation is its one dependency, if it is not malformed. -/
theorem outcome_parseAll_of_direct (direct : leaf.Direct) :
    session.outcome (leaf.parseAll project) = .ok found ↔
      session.StandFor project [leaf] found := by
  obtain ⟨reading, declared, parsed, -⟩ := direct.exists_reading project
  rw [standFor_direct_iff direct, parsed]
  unfold Notation.parseAll
  rw [declared]
  cases reading with
  | error error => exact iff_of_false nofun (by rintro ⟨_, ⟨⟩, -⟩)
  | ok dependency =>
    change Except.ok [dependency] = _ ↔ _
    simp [Computation.ofOutcome, @eq_comm _ found]

/-- What comes of a lazy notation is what comes of everything that it yields. -/
theorem outcome_parseAll_deferred (fixed : session.Fixed (.deferred source)) :
    session.outcome ((Notation.deferred source).parseAll project) =
      session.outcome source.evaluate >>= fun items =>
        List.flatten <$> items.mapM fun item => session.outcome (item.parseAll project) := by
  obtain ⟨constant, yielded⟩ := fixed_deferred_iff.1 fixed
  have each : ∀ items, session.outcome source.evaluate = .ok items →
      ∀ item ∈ items, session.Constant (item.parseAll project) := fun items comes item present =>
    (yielded items comes item present).constant_parseAll project
  rw [Notation.parseAll_deferred,
    constant.outcome_bind fun items comes => constant_parseEach (each items comes)]
  cases comes : session.outcome source.evaluate with
  | error error => rfl
  | ok items => exact outcome_parseEach (each items comes)

/-- What comes of a notation is decided by its declaration and then by each of its leaves. -/
theorem Fixed.outcome_parseAll (fixed : session.Fixed written) :
    session.outcome (written.parseAll project) = written.declare project >>= fun _ =>
      List.flatten <$> written.leaves.mapM fun leaf => session.outcome (leaf.parseAll project) := by
  have declared : ∀ notated : Notation, session.outcome (notated.parseAll project) =
      notated.declare project >>= fun given => session.outcome (Notation.evaluateAll given) := by
    intro notated
    unfold Notation.parseAll
    cases notated.declare project <;> rfl
  have whole := declared written
  rw [Notation.declare_eq_leaves] at whole ⊢
  simp only [whole, declared]
  cases found : written.leaves.mapM (Notation.declare project) with
  | error error => rfl
  | ok lists =>
    have each : ∀ given ∈ lists, ∀ declaration ∈ given,
        session.Constant declaration.evaluate := by
      intro given present
      obtain ⟨leaf, member, done⟩ := Outcome.exists_of_mem_mapM_eq_ok found given present
      exact (fixed_iff_leaves.1 fixed leaf member).constant_of_declare done
    have together : ∀ declaration ∈ lists.flatten, session.Constant declaration.evaluate := by
      intro declaration present
      obtain ⟨given, among, member⟩ := List.mem_flatten.1 present
      exact each given among declaration member
    -- What is declared may be evaluated all at once or leaf by leaf.
    have apart : lists.mapM (fun given => session.outcome (Notation.evaluateAll given)) =
        lists.mapM fun given => List.flatten <$> given.mapM fun declaration =>
          session.outcome declaration.evaluate :=
      Outcome.mapM_eq_mapM_of_forall₂ (List.forall₂_same.2 fun given present =>
        outcome_evaluateAll (each given present))
    change session.outcome (Notation.evaluateAll lists.flatten) = List.flatten <$> _
    rw [outcome_evaluateAll together, Outcome.mapM_flatten, Outcome.mapM_bind_of_ok found, apart,
      Outcome.mapM_map]
    cases lists.mapM (List.mapM fun declaration => session.outcome declaration.evaluate) with
    | error error => rfl
    | ok values => exact congrArg Except.ok List.flatten_flatten

/-- Notations stand for what each of them does, put together. -/
theorem standFor_of_each (each : ∀ item ∈ items, ∀ found,
    session.outcome (item.parseAll project) = .ok found ↔ session.StandFor project [item] found) :
    List.flatten <$> items.mapM (fun item => session.outcome (item.parseAll project)) = .ok found ↔
      session.StandFor project items found := by
  rw [Outcome.map_eq_ok_iff]
  induction items generalizing found with
  | nil =>
    constructor
    · rintro ⟨_, ⟨⟩, rfl⟩
      exact .nil
    · rintro ⟨⟩
      exact ⟨[], rfl, rfl⟩
  | cons item items ih =>
    obtain ⟨here, later⟩ := List.forall_mem_cons.1 each
    rw [standFor_cons_iff]
    constructor
    · rintro ⟨_, obtained, rfl⟩
      obtain ⟨first, others, begins, rest, rfl⟩ := Outcome.mapM_cons_eq_ok_iff.1 obtained
      exact ⟨first, others.flatten, (here first).1 begins, (ih later).1 ⟨others, rest, rfl⟩, rfl⟩
    · rintro ⟨first, rest, begins, stands, rfl⟩
      obtain ⟨others, obtained, rfl⟩ := (ih later).2 stands
      exact ⟨first :: others, Outcome.mapM_cons_eq_ok_iff.2
        ⟨first, others, (here first).2 begins, obtained, rfl⟩, rfl⟩

/-- A notation whose dependencies are known has nothing wrong with it. -/
theorem understood_of_outcome (done : session.outcome (leaf.parseAll project) = .ok found) :
    leaf.Understood project := by
  intro direct
  rw [outcome_parseAll_of_direct direct, standFor_direct_iff direct] at done
  obtain ⟨dependency, read, -⟩ := done
  exact ⟨dependency, read⟩

/-- A notation is parsed when each of its leaves is. -/
theorem Fixed.outcome_eq_ok_iff (fixed : session.Fixed written) :
    session.outcome (written.parseAll project) = .ok found ↔
      List.flatten <$> written.leaves.mapM (fun leaf => session.outcome (leaf.parseAll project)) =
        .ok found := by
  rw [fixed.outcome_parseAll, Outcome.bind_eq_ok_iff]
  constructor
  · rintro ⟨_, -, done⟩
    exact done
  · intro done
    obtain ⟨lists, obtained, -⟩ := Outcome.map_eq_ok_iff.1 done
    have understood : ∀ leaf ∈ written.leaves, leaf.Understood project := by
      intro leaf member
      obtain ⟨_, -, parsed⟩ := Outcome.exists_mem_of_mapM_eq_ok obtained leaf member
      exact understood_of_outcome parsed
    obtain ⟨declared, given⟩ := Notation.exists_declare_iff.2 understood
    exact ⟨declared, given, done⟩

/-- What comes of a fixed notation, if something does, is what it stands for. -/
theorem Fixed.standFor_iff (fixed : session.Fixed written) :
    session.outcome (written.parseAll project) = .ok found ↔
      session.StandFor project [written] found := by
  induction fixed generalizing found with
  | @intro written constant yielded ih =>
    -- The induction is on what lazy leaves yield; bundles are gone once there are only leaves.
    have leaves : ∀ leaf ∈ written.leaves, ∀ found,
        session.outcome (leaf.parseAll project) = .ok found ↔
          session.StandFor project [leaf] found := by
      intro leaf member found
      rcases Notation.single_of_mem_leaves member with direct | ⟨source, rfl⟩
      · exact outcome_parseAll_of_direct direct
      · have fixed := fixed_deferred_iff.2 ⟨constant source member, yielded source member⟩
        rw [outcome_parseAll_deferred fixed, Outcome.bind_eq_ok_iff, standFor_deferred_iff]
        exact exists_congr fun items => and_congr_right fun comes =>
          standFor_of_each fun item present _ => ih source member items comes item present
    rw [Fixed.outcome_eq_ok_iff ⟨constant, yielded⟩, standFor_of_each leaves, standFor_leaves_iff]

/-- Something comes of a fixed notation exactly when it is sound. -/
theorem Fixed.sound_iff (fixed : session.Fixed written) :
    (∃ found, session.outcome (written.parseAll project) = .ok found) ↔
      session.Sound project written := by
  induction fixed with
  | @intro written constant yielded ih =>
    simp only [Fixed.outcome_eq_ok_iff ⟨constant, yielded⟩]
    rw [sound_iff_leaves, Outcome.exists_map_eq_ok_iff, Outcome.exists_mapM_eq_ok_iff]
    refine forall₂_congr fun leaf member => ?_
    rcases Notation.single_of_mem_leaves member with direct | ⟨source, rfl⟩
    · rw [sound_direct_iff direct]
      constructor
      · rintro ⟨found, done⟩
        exact understood_of_outcome done
      · intro understood
        obtain ⟨dependency, read⟩ := understood direct
        exact ⟨[dependency], (outcome_parseAll_of_direct direct).2
          ((standFor_direct_iff direct).2 ⟨dependency, read, rfl⟩)⟩
    · have fixed := fixed_deferred_iff.2 ⟨constant source member, yielded source member⟩
      simp only [outcome_parseAll_deferred fixed, Outcome.bind_eq_ok_iff, sound_deferred_iff]
      rw [exists_comm]
      refine exists_congr fun items => ?_
      rw [exists_and_left, Outcome.exists_map_eq_ok_iff, Outcome.exists_mapM_eq_ok_iff]
      exact and_congr_right fun comes => forall₂_congr (ih source member items comes)

/-- A fixed notation fails for the leftmost of its direct leaves that is malformed. If there is
none, it fails for the first of its lazy leaves that does. -/
theorem Fixed.outcome_eq_error_iff (fixed : session.Fixed written) :
    session.outcome (written.parseAll project) = .error error ↔
      (∃ earlier leaf later, written.leaves = earlier ++ leaf :: later ∧
        (∀ other ∈ earlier, other.Understood project) ∧ leaf.Direct ∧
          leaf.parse project = .failed error) ∨
      (∀ leaf ∈ written.leaves, leaf.Understood project) ∧
        ∃ earlier source later, written.leaves = earlier ++ .deferred source :: later ∧
          (∀ other ∈ earlier, session.Sound project other) ∧
            session.outcome ((Notation.deferred source).parseAll project) = .error error := by
  have each := fixed_iff_leaves.1 fixed
  rw [fixed.outcome_parseAll, Outcome.bind_eq_error_iff, Notation.declare_eq_error_iff,
    exists_and_right, Notation.exists_declare_iff, Outcome.map_eq_error_iff,
    Outcome.mapM_eq_error_iff]
  refine or_congr_right (and_congr_right fun understood => ?_)
  constructor
  · rintro ⟨earlier, leaf, later, split, before, failed⟩
    rw [split, List.forall_mem_append, List.forall_mem_cons] at each
    have sound : ∀ other ∈ earlier, session.Sound project other := fun other member =>
      (each.1 other member).sound_iff.1 (before other member)
    have member : leaf ∈ written.leaves := by simp [split]
    -- All direct leaves are understood by now, so that none of them can be the one that fails.
    rcases Notation.single_of_mem_leaves member with direct | ⟨source, rfl⟩
    · obtain ⟨found, done⟩ :=
        each.2.1.sound_iff.2 ((sound_direct_iff direct).2 (understood leaf member))
      rw [failed] at done
      contradiction
    · exact ⟨earlier, source, later, split, sound, failed⟩
  · rintro ⟨earlier, source, later, split, sound, failed⟩
    rw [split, List.forall_mem_append] at each
    exact ⟨earlier, _, later, split, fun other member =>
      (each.1 other member).sound_iff.2 (sound other member), failed⟩

/-- A lazy notation fails when its source does, or for the first of the notations that it yields for
which parsing fails. -/
theorem Fixed.outcome_deferred_eq_error_iff (fixed : session.Fixed (.deferred source)) :
    session.outcome ((Notation.deferred source).parseAll project) = .error error ↔
      session.outcome source.evaluate = .error error ∨ ∃ first item rest,
        session.outcome source.evaluate = .ok (first ++ item :: rest) ∧
          (∀ other ∈ first, session.Sound project other) ∧
            session.outcome (item.parseAll project) = .error error := by
  have each := (fixed_deferred_iff.1 fixed).2
  rw [outcome_parseAll_deferred fixed, Outcome.bind_eq_error_iff]
  simp only [Outcome.map_eq_error_iff, Outcome.mapM_eq_error_iff]
  refine or_congr_right ?_
  constructor
  · rintro ⟨_, comes, first, item, rest, rfl, before, failed⟩
    refine ⟨first, item, rest, comes, fun other member => ?_, failed⟩
    exact (each _ comes other (List.mem_append_left _ member)).sound_iff.1 (before other member)
  · rintro ⟨first, item, rest, comes, before, failed⟩
    refine ⟨_, comes, first, item, rest, rfl, fun other member => ?_, failed⟩
    exact (each _ comes other (List.mem_append_left _ member)).sound_iff.2 (before other member)

/-- What is wrong with a fixed notation decides the error. -/
theorem Fixed.fails_iff (fixed : session.Fixed written) :
    session.outcome (written.parseAll project) = .error error ↔
      session.Fails project written error := by
  induction fixed with
  | @intro written constant yielded ih =>
    have each := fixed_iff_leaves.1 ⟨constant, yielded⟩
    rw [Fixed.outcome_eq_error_iff ⟨constant, yielded⟩]
    constructor
    · rintro (⟨earlier, leaf, later, split, before, direct, failed⟩ |
        ⟨understood, earlier, source, later, split, before, failed⟩)
      · exact .misread split before direct failed
      · have member : .deferred source ∈ written.leaves := by simp [split]
        rcases (each _ member).outcome_deferred_eq_error_iff.1 failed with
          failed | ⟨first, item, rest, yields, passed, failed⟩
        · exact .source understood split before failed
        · exact .yielded understood split before yields passed
            ((ih source member _ yields item (by simp)).1 failed)
    · intro fails
      cases fails with
      | misread split before direct failed => exact .inl ⟨_, _, _, split, before, direct, failed⟩
      | @source _ source _ _ _ understood split before failed =>
        have member : .deferred source ∈ written.leaves := by simp [split]
        exact .inr ⟨understood, _, source, _, split, before,
          (each _ member).outcome_deferred_eq_error_iff.2 (.inl failed)⟩
      | @yielded _ item source _ _ _ _ _ understood split before yields passed failed =>
        have member : .deferred source ∈ written.leaves := by simp [split]
        have failed := (ih source member _ yields item (by simp)).2 failed
        exact .inr ⟨understood, _, source, _, split, before,
          (each _ member).outcome_deferred_eq_error_iff.2
            (.inr ⟨_, item, _, yields, passed, failed⟩)⟩

end Fixed

section Regroups

variable {source : LazyValue Notation} {found : List Dependency}

/-- A bundle is fixed when its elements are. -/
theorem fixed_bundle_iff : session.Fixed (.bundle items) ↔ ∀ item ∈ items, session.Fixed item := by
  rw [fixed_iff_leaves, Notation.leaves_bundle, List.forall_mem_flatMap]
  exact forall₂_congr fun item _ => fixed_iff_leaves.symm

/-- A lazy notation that gives known notations is fixed when they are. -/
theorem Gives.fixed_iff (gives : session.Gives source items) :
    session.Fixed (.deferred source) ↔ ∀ item ∈ items, session.Fixed item := by
  rw [fixed_deferred_iff, gives.2, and_iff_right gives.1]
  simp only [Except.ok.injEq, forall_eq']

/-- A lazy notation that gives known notations stands for what they do. -/
theorem Gives.standFor_iff (gives : session.Gives source items) :
    session.StandFor project [.deferred source] found ↔ session.StandFor project items found := by
  rw [standFor_deferred_iff, gives.2]
  simp only [Except.ok.injEq, exists_eq_left']

/-- What is wrapped into a lazy notation is given by it. -/
theorem gives_of (session : Session) (written : Notation) :
    session.Gives (.of written) [written] :=
  ⟨constant_pure session [written], rfl⟩

/-- One change of how a notation is put together leaves it fixed. -/
theorem Regroups.fixed_iff (step : session.Regroups written other) :
    session.Fixed written ↔ session.Fixed other := by
  induction step with
  | group before inner after =>
    simp only [fixed_bundle_iff, List.forall_mem_append, List.forall_mem_cons, and_assoc]
  | wrap written => rw [(gives_of session written).fixed_iff, List.forall_mem_singleton]
  | within before after step ih =>
    simp only [fixed_bundle_iff, List.forall_mem_append, List.forall_mem_cons, ih]
  | yielded given gives step ih =>
    rw [given.fixed_iff, gives.fixed_iff]
    simp only [List.forall_mem_append, List.forall_mem_cons, ih]

/-- One change of how a notation is put together leaves what it stands for. -/
theorem Regroups.standFor_iff (step : session.Regroups written other) :
    session.StandFor project [written] found ↔ session.StandFor project [other] found := by
  induction step generalizing found with
  | group before inner after =>
    rw [standFor_bundle_iff, standFor_bundle_iff, List.append_cons]
    exact standFor_between_congr fun found => standFor_bundle_iff.symm
  | wrap written => exact (gives_of session written).standFor_iff.symm
  | @within item other before after step ih =>
    rw [standFor_bundle_iff, standFor_bundle_iff, List.append_cons before item,
      List.append_cons before other]
    exact standFor_between_congr fun found => ih
  | @yielded source result item other before after given gives step ih =>
    rw [given.standFor_iff, gives.standFor_iff, List.append_cons before item,
      List.append_cons before other]
    exact standFor_between_congr fun found => ih

/-- Any changes of how a notation is put together leave it fixed, and what it stands for. -/
theorem regrouped_iff (project : DeclaringProject)
    (regrouped : EqvGen session.Regroups written other) :
    (session.Fixed written ↔ session.Fixed other) ∧ ∀ found,
      session.StandFor project [written] found ↔ session.StandFor project [other] found := by
  induction regrouped with
  | rel written other step => exact ⟨step.fixed_iff, fun _ => step.standFor_iff⟩
  | refl written => exact ⟨.rfl, fun _ => .rfl⟩
  | symm written other _ ih => exact ⟨ih.1.symm, fun found => (ih.2 found).symm⟩
  | trans written middle other _ _ first second =>
    exact ⟨first.1.trans second.1, fun found => (first.2 found).trans (second.2 found)⟩

end Regroups

/-- A notation whose lazy sources yield the same each time is parsed to something exactly when every
one of its lazy leaves evaluates and every direct one is understood. It is then parsed to the
dependencies of its direct leaves from left to right, and otherwise fails for what is wrong with it.
Any other notation that is made of it by regrouping elements of bundles and by wrapping notations
into lazy ones is parsed to the same, if one of the two is parsed to anything. -/
theorem parseAll_meaning (fixed : session.Fixed written) (project : DeclaringProject) :
    ((∃ found, session.outcome (written.parseAll project) = .ok found) ↔
        session.Sound project written) ∧
      (∀ found, session.outcome (written.parseAll project) = .ok found ↔
        session.StandFor project [written] found) ∧
      (∀ error, session.outcome (written.parseAll project) = .error error ↔
        session.Fails project written error) ∧
      ∀ other, EqvGen session.Regroups written other →
        ∀ found, session.outcome (written.parseAll project) = .ok found ↔
          session.outcome (other.parseAll project) = .ok found := by
  refine ⟨fixed.sound_iff, fun found => fixed.standFor_iff, fun error => fixed.fails_iff, ?_⟩
  intro other regrouped found
  obtain ⟨alike, same⟩ := regrouped_iff project regrouped
  rw [fixed.standFor_iff, (alike.1 fixed).standFor_iff, same found]

section Witness

/-- A coordinate text in two layers of lazy notations, before one that is direct. -/
def staged (early late : String) : Notation :=
  .bundle [.deferred (.of (.bundle [.deferred (.of (.coordinates early))])), .coordinates late]

/-- Two modules are found in the order in which they are written. If both texts are malformed, that
is noticed of the direct one first. -/
theorem parseAll_meaning_staged :
    let session := start (.new {} .root) ⟨[], []⟩
    session.Fixed (staged "org:early:1" "org:late:2") ∧
      session.outcome ((staged "org:early:1" "org:late:2").parseAll .root) =
        .ok [.externalModule (.ofCoordinates "org" "early" "1" none none),
          .externalModule (.ofCoordinates "org" "late" "2" none none)] ∧
      session.Fixed (staged "early" "late") ∧
      session.outcome ((staged "early" "late").parseAll .root) =
        .error (.malformed "\"late\"" .tooFewSegments) := by
  intro session
  have direct : ∀ text, (Notation.coordinates text).Direct := fun _ => trivial
  have fixed : ∀ early late, session.Fixed (staged early late) := by
    intro early late
    simp [staged, fixed_bundle_iff, (gives_of session _).fixed_iff, fixed_of_direct (direct _)]
  have early : (Notation.coordinates "org:early:1").parse .root =
      .done (.externalModule (.ofCoordinates "org" "early" "1" none none)) := by
    rw [Notation.parse_coordinates]
    rfl
  have late : (Notation.coordinates "org:late:2").parse .root =
      .done (.externalModule (.ofCoordinates "org" "late" "2" none none)) := by
    rw [Notation.parse_coordinates]
    rfl
  have malformed : (Notation.coordinates "late").parse .root =
      .failed (.malformed "\"late\"" .tooFewSegments) := by
    rw [Notation.parse_coordinates]
    rfl
  obtain ⟨-, stands, -, -⟩ := parseAll_meaning (fixed "org:early:1" "org:late:2") .root
  obtain ⟨-, -, fails, -⟩ := parseAll_meaning (fixed "early" "late") .root
  refine ⟨fixed _ _, (stands _).2 ?_, fixed _ _, (fails _).2 ?_⟩
  · refine standFor_bundle_iff.2 (standFor_cons_iff.2 ⟨[_], [_], ?_,
      (standFor_direct_iff (direct _)).2 ⟨_, late, rfl⟩, rfl⟩)
    simp only [standFor_bundle_iff, (gives_of session _).standFor_iff]
    exact (standFor_direct_iff (direct _)).2 ⟨_, early, rfl⟩
  · have leaves : (staged "early" "late").leaves = [.deferred (.of (.bundle [
        .deferred (.of (.coordinates "early"))]))] ++ .coordinates "late" :: [] := by
      simp [staged, Notation.leaves, Notation.leavesEach]
    exact .misread leaves (List.forall_mem_singleton.2 fun lazy => lazy.elim) (direct _) malformed

end Witness

end Session

end BuildPath
