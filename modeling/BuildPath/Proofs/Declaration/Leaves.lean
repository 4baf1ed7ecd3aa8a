import BuildPath.Declaration.Declared
import BuildPath.Proofs.Lazy.Computation

/-!
# The leaves of a notation

A notation is a tree of bundles. Its leaves are direct notations, each of which stands for one
dependency or is malformed, and lazy ones, of which nothing is known before they are evaluated. To
declare a notation is to declare its leaves from left to right (`Notation.declare_eq_leaves`), each
of which becomes one declaration (`Notation.Recorded`) or is the reason of a failure
(`Notation.Refused`).
-/

namespace BuildPath

variable {project : DeclaringProject} {action : Option Action}

/-- A failure to understand a notation of the right shape. -/
def Error.IsMalformed (error : Error) : Prop :=
  ∃ shown malformation, error = .malformed shown malformation

/-- The dependency after an action, or as it is if there is none. -/
def Action.applied (action : Option Action) (dependency : Dependency) : Outcome Dependency :=
  match action with
  | none => .ok dependency
  | some given => given.apply dependency

/-- What an action makes of a dependency. One for dependencies of a single kind changes the details
of those, and no other dependency comes of it; where there is no action, the dependency stays. -/
inductive Action.Makes : Option Action → Dependency → Dependency → Prop
  | nothing (dependency : Dependency) : Makes none dependency dependency
  | any (change : Dependency → Dependency) (dependency : Dependency) :
      Makes (some (.any change)) dependency (change dependency)
  | externalModule (change : ModuleDependency → ModuleDependency) (details : ModuleDependency) :
      Makes (some (.externalModule change)) (.externalModule details)
        (.externalModule (change details))
  | project (change : ProjectDependency → ProjectDependency) (details : ProjectDependency) :
      Makes (some (.project change)) (.project details) (.project (change details))
  | files (change : FileDependency → FileDependency) (details : FileDependency) :
      Makes (some (.files change)) (.files details) (.files (change details))

/-- An action succeeds on a dependency with what it makes of it. -/
theorem Action.applied_eq_ok_iff {dependency changed : Dependency} :
    applied action dependency = .ok changed ↔ Makes action dependency changed := by
  constructor
  · intro done
    cases action with
    | none =>
      cases done
      exact .nothing dependency
    | some given =>
      cases given <;> cases dependency <;> cases done <;> constructor
  · rintro (_ | _ | _ | _ | _) <;> rfl

/-- An action fails on a dependency exactly when its kind does not accept that of the dependency,
and its error names both. -/
theorem Action.applied_eq_error_iff {dependency : Dependency} {error : Error} :
    applied action dependency = .error error ↔
      ∃ given ∈ action, given.expects.accepts dependency.kind = false ∧
        error = .actionMismatch given.expects dependency.kind dependency.display := by
  cases action with
  | none => simp [applied]
  | some given =>
    simp only [applied, Option.mem_def, Option.some.injEq, exists_eq_left']
    cases given <;> cases dependency <;>
      simp [apply, expects, Dependency.kind, Kind.accepts, @eq_comm _ error]

/-- The declaration after an action, or as it is if there is none. -/
def Declared.configured (action : Option Action) (declaration : Declared) : Outcome Declared :=
  match action with
  | none => .ok declaration
  | some given => declaration.configure given

/-- An action on a declaration that waits for nothing is the action on its dependency. -/
theorem Declared.configured_resolved (dependency : Dependency) :
    configured action (.resolved dependency) = .resolved <$> Action.applied action dependency := by
  cases action <;> rfl

/-- An action on a declaration that waits is on everything that comes of it. -/
theorem Declared.configured_deferred (value : LazyValue Dependency) :
    configured action (.deferred value) = .ok (.deferred ⟨value.label, fun reported =>
      value.produce reported >>= fun found =>
        .ofOutcome (found.mapM (Action.applied action))⟩) := by
  cases action with
  | none =>
    have kept : (fun found : List Dependency =>
        Computation.ofOutcome (found.mapM (Action.applied none))) = pure := by
      funext found
      have all : found.mapM (Action.applied none) = .ok (found.map id) := List.mapM_pure
      rw [all, List.map_id]
      rfl
    simp only [configured, kept, bind_pure]
  | some given =>
    refine congrArg (fun produce => Except.ok (Declared.deferred ⟨value.label, produce⟩)) ?_
    funext reported
    refine congrArg (value.produce reported >>= ·) (funext fun found => ?_)
    exact Computation.concatMap_ofOutcome given.apply found

namespace Notation

mutual

/-- The notations in a notation that are no bundles, in the order in which they are written. -/
def leaves : Notation → List Notation
  | .bundle items => leavesEach items
  | leaf => [leaf]

/-- The leaves of several notations. -/
def leavesEach : List Notation → List Notation
  | [] => []
  | item :: items => item.leaves ++ leavesEach items

end

/-- A notation of one dependency that is known without evaluating anything. -/
def Direct : Notation → Prop
  | .deferred _ | .bundle _ => False
  | _ => True

/-- A notation that is no bundle. -/
def Single (leaf : Notation) : Prop :=
  leaf.Direct ∨ ∃ source, leaf = .deferred source

/-- A leaf that nothing is wrong with: a direct one stands for a dependency, and a lazy one is not
looked into. -/
def Understood (project : DeclaringProject) (leaf : Notation) : Prop :=
  leaf.Direct → ∃ dependency, leaf.parse project = .done dependency

/-- What is recorded for a leaf: what the action makes of the dependency of a direct one, or one
declaration for a lazy one, of which the action changes everything that it comes to. -/
inductive Recorded (project : DeclaringProject) (action : Option Action) :
    Notation → Declared → Prop
  | direct {leaf : Notation} {dependency changed : Dependency} (direct : leaf.Direct)
      (read : leaf.parse project = .done dependency)
      (made : Action.Makes action dependency changed) :
      Recorded project action leaf (.resolved changed)
  | lazy (source : LazyValue Notation) :
      Recorded project action (.deferred source) (.deferred ⟨source.label, fun reported =>
        source.produce reported >>= fun items => parseEach project items >>= fun found =>
          .ofOutcome (found.mapM (Action.applied action))⟩)

/-- Why a notation is refused together with an action. A direct leaf that is malformed comes before
one that the action does not accept, and of several such leaves the leftmost counts. -/
inductive Refused (project : DeclaringProject) (action : Option Action) (written : Notation) :
    Error → Prop
  | misread {earlier later : List Notation} {leaf : Notation} {error : Error}
      (split : written.leaves = earlier ++ leaf :: later)
      (before : ∀ other ∈ earlier, other.Understood project)
      (direct : leaf.Direct) (failed : leaf.parse project = .failed error) :
      Refused project action written error
  | mismatch {earlier later : List Notation} {leaf : Notation} {dependency : Dependency}
      {given : Action} (understood : ∀ other ∈ written.leaves, other.Understood project)
      (split : written.leaves = earlier ++ leaf :: later)
      (before : ∀ other ∈ earlier, ∃ declaration, Recorded project action other declaration)
      (direct : leaf.Direct) (read : leaf.parse project = .done dependency)
      (chosen : given ∈ action) (refused : given.expects.accepts dependency.kind = false) :
      Refused project action written
        (.actionMismatch given.expects dependency.kind dependency.display)

variable {written leaf : Notation} {error : Error}

/-- A notation is declared leaf by leaf. -/
theorem declare_eq_leaves (project : DeclaringProject) (written : Notation) :
    written.declare project = List.flatten <$> written.leaves.mapM (declare project) := by
  induction written using leaves.induct (motive_2 := fun items =>
    declareEach project items = List.flatten <$> (leavesEach items).mapM (declare project)) with
  | case1 items ih => rw [declare, leaves, ih]
  | case2 leaf single =>
    rw [leaves, List.mapM_cons, List.mapM_nil]
    · cases leaf.declare project with
      | error error => rfl
      | ok declared => exact congrArg Except.ok (List.append_nil declared).symm
    · exact single
  | case3 => rw [declareEach, leavesEach]; rfl
  | case4 item items here later =>
    rw [declareEach, leavesEach, here, later, List.mapM_append]
    simp

/-- A leaf is no bundle. -/
theorem single_of_mem_leaves (member : leaf ∈ written.leaves) : leaf.Single := by
  induction written using leaves.induct (motive_2 := fun items =>
    leaf ∈ leavesEach items → leaf.Single) with
  | case1 items ih =>
    rw [leaves] at member
    exact ih member
  | case2 other single =>
    rw [leaves] at member
    · rw [List.mem_singleton.1 member]
      cases other with
      | deferred source => exact .inr ⟨source, rfl⟩
      | bundle items => exact absurd rfl (single items)
      | _ => exact .inl trivial
    · exact single
  | case3 impossible =>
    rw [leavesEach] at impossible
    exact absurd impossible List.not_mem_nil
  | case4 item items here later member =>
    rw [leavesEach] at member
    rcases List.mem_append.1 member with first | rest
    · exact here first
    · exact later rest

/-- To parse what a computation yields is to parse it once all of it is there. -/
theorem parseProduced_eq (project : DeclaringProject) (computation : Computation (List Notation)) :
    parseProduced project computation = computation >>= parseEach project := by
  induction computation with
  | done items => rw [parseProduced]; rfl
  | failed error => rw [parseProduced]; rfl
  | ask asked resume ih =>
    rw [parseProduced]
    exact congrArg (Computation.ask asked) (funext ih)

/-- A direct notation is declared as the one dependency that it is parsed to, unless it is
malformed. -/
theorem Direct.exists_reading (direct : leaf.Direct) (project : DeclaringProject) :
    ∃ reading : Outcome Dependency,
      leaf.declare project = (fun dependency => [.resolved dependency]) <$> reading ∧
      leaf.parse project = .ofOutcome reading ∧
      ∀ error, reading = .error error → error.IsMalformed := by
  suffices known : ∃ reading : Outcome Dependency,
      leaf.declare project = (fun dependency => [.resolved dependency]) <$> reading ∧
      ∀ error, reading = .error error → error.IsMalformed by
    obtain ⟨reading, declared, malformed⟩ := known
    refine ⟨reading, declared, ?_, malformed⟩
    unfold parse parseAll
    rw [declared]
    cases reading <;> rfl
  cases leaf with
  | coordinates text =>
    rw [declare, Coordinates.parse]
    cases Coordinates.module? text.toList with
    | error malformation => exact ⟨.error _, rfl, by rintro _ ⟨⟩; exact ⟨_, _, rfl⟩⟩
    | ok details => exact ⟨.ok _, rfl, nofun⟩
  | parts given =>
    rw [declare, ModuleParts.parse]
    split
    · exact ⟨.error _, rfl, by rintro _ ⟨⟩; exact ⟨_, _, rfl⟩⟩
    · exact ⟨.ok _, rfl, nofun⟩
  | project reference =>
    rw [declare, ProjectReference.parse]
    split
    · exact ⟨.error _, rfl, by rintro _ ⟨⟩; exact ⟨_, _, rfl⟩⟩
    · exact ⟨.ok _, rfl, nofun⟩
  | files set => exact ⟨.ok _, by rw [declare]; rfl, nofun⟩
  | catalog entry => exact ⟨.ok _, by rw [declare]; rfl, nofun⟩
  | dependency built => exact ⟨.ok _, by rw [declare]; rfl, nofun⟩
  | deferred source => exact direct.elim
  | bundle items => exact direct.elim

/-- A lazy notation is declared as it is. -/
theorem declare_deferred (project : DeclaringProject) (source : LazyValue Notation) :
    (Notation.deferred source).declare project =
      .ok [.deferred ⟨source.label, fun reported =>
        source.produce reported >>= parseEach project⟩] := by
  rw [declare]
  simp only [parseProduced_eq]

/-- What is declared for a notation is a dependency or a lazy leaf of it. -/
theorem resolved_or_deferred_of_mem_declare {declared : List Declared} {declaration : Declared}
    (done : written.declare project = .ok declared) (member : declaration ∈ declared) :
    (∃ dependency, declaration = .resolved dependency) ∨
      ∃ source, .deferred source ∈ written.leaves ∧ declaration = .deferred ⟨source.label,
        fun reported => source.produce reported >>= parseEach project⟩ := by
  rw [declare_eq_leaves, Outcome.map_eq_ok_iff] at done
  obtain ⟨lists, found, rfl⟩ := done
  obtain ⟨given, present, member⟩ := List.mem_flatten.1 member
  obtain ⟨leaf, written, obtained⟩ := Outcome.exists_of_mem_mapM_eq_ok found given present
  rcases single_of_mem_leaves written with direct | ⟨source, rfl⟩
  · obtain ⟨reading, declared, -⟩ := direct.exists_reading project
    rw [declared, Outcome.map_eq_ok_iff] at obtained
    obtain ⟨dependency, -, rfl⟩ := obtained
    exact .inl ⟨dependency, List.mem_singleton.1 member⟩
  · rw [declare_deferred] at obtained
    cases obtained
    exact .inr ⟨source, written, List.mem_singleton.1 member⟩

/-- What is recorded for a direct leaf is its dependency, which the action accepts. -/
theorem Recorded.exists_of_direct {declaration : Declared}
    (recorded : Recorded project action leaf declaration) (direct : leaf.Direct) :
    ∃ dependency changed, leaf.parse project = .done dependency ∧
      Action.Makes action dependency changed := by
  cases recorded with
  | direct _ read made => exact ⟨_, _, read, made⟩
  | lazy source => exact direct.elim

section Single

variable (single : leaf.Single)
include single

/-- A leaf fails to be declared when it is direct and cannot be parsed. -/
theorem Single.declare_eq_error_iff : leaf.declare project = .error error ↔
    leaf.Direct ∧ leaf.parse project = .failed error := by
  rcases single with direct | ⟨source, rfl⟩
  · obtain ⟨reading, declared, parsed, -⟩ := direct.exists_reading project
    rw [declared, parsed, Outcome.map_eq_error_iff, and_iff_right direct]
    cases reading <;> simp [Computation.ofOutcome]
  · rw [declare_deferred]
    exact iff_of_false nofun (fun impossible => impossible.1)

/-- A leaf that nothing is wrong with is declared. -/
theorem Single.exists_declare_iff :
    (∃ declared, leaf.declare project = .ok declared) ↔ leaf.Understood project := by
  rcases single with direct | ⟨source, rfl⟩
  · obtain ⟨reading, declared, parsed, -⟩ := direct.exists_reading project
    simp only [Understood, declared, parsed, Outcome.map_eq_ok_iff, direct, forall_const]
    cases reading <;> simp [Computation.ofOutcome]
  · refine iff_of_true ⟨_, declare_deferred project source⟩ ?_
    exact fun impossible => impossible.elim

/-- What is declared for a leaf, after the action, is the one declaration that is recorded. -/
theorem Single.configured_eq_ok_iff {given : List Declared} :
    leaf.declare project >>= List.mapM (Declared.configured action) = .ok given ↔
      ∃ declaration, Recorded project action leaf declaration ∧ given = [declaration] := by
  rcases single with direct | ⟨source, rfl⟩
  · obtain ⟨reading, declared, parsed, -⟩ := direct.exists_reading project
    constructor
    · intro done
      rw [declared] at done
      cases reading with
      | error error => contradiction
      | ok dependency =>
        obtain ⟨declaration, others, here, ⟨⟩, rfl⟩ := Outcome.mapM_cons_eq_ok_iff.1 done
        rw [Declared.configured_resolved, Outcome.map_eq_ok_iff] at here
        obtain ⟨changed, applied, rfl⟩ := here
        exact ⟨_, .direct direct parsed (Action.applied_eq_ok_iff.1 applied), rfl⟩
    · rintro ⟨declaration, recorded, rfl⟩
      cases recorded with
      | lazy source => exact direct.elim
      | @direct _ dependency changed _ read made =>
        cases reading with
        | error error => rw [parsed] at read; contradiction
        | ok known =>
          rw [parsed] at read
          cases read
          rw [declared]
          refine Outcome.mapM_cons_eq_ok_iff.2 ⟨_, [], ?_, rfl, rfl⟩
          rw [Declared.configured_resolved, Action.applied_eq_ok_iff.2 made]
          rfl
  · have configured : (Notation.deferred source).declare project >>=
        List.mapM (Declared.configured action) = .ok [.deferred ⟨source.label, fun reported =>
          source.produce reported >>= fun items => parseEach project items >>= fun found =>
            .ofOutcome (found.mapM (Action.applied action))⟩] := by
      rw [declare_deferred]
      refine Outcome.mapM_cons_eq_ok_iff.2 ⟨_, [], ?_, rfl, rfl⟩
      simp only [Declared.configured_deferred, bind_assoc]
    rw [configured]
    constructor
    · rintro ⟨⟩
      exact ⟨_, .lazy source, rfl⟩
    · rintro ⟨declaration, recorded, rfl⟩
      cases recorded with
      | lazy source => rfl
      | direct direct _ _ => exact direct.elim

/-- A leaf that nothing is wrong with is refused when the action does not accept it. -/
theorem Single.configured_eq_error_iff (understood : leaf.Understood project) :
    leaf.declare project >>= List.mapM (Declared.configured action) = .error error ↔
      leaf.Direct ∧ ∃ dependency, leaf.parse project = .done dependency ∧
        Action.applied action dependency = .error error := by
  rcases single with direct | ⟨source, rfl⟩
  · obtain ⟨dependency, read⟩ := understood direct
    obtain ⟨reading, declared, parsed, -⟩ := direct.exists_reading project
    rw [read] at parsed
    cases reading with
    | error error => contradiction
    | ok known =>
      cases parsed
      rw [declared, read, and_iff_right direct]
      simp only [Computation.done.injEq, exists_eq_left']
      change [Declared.resolved dependency].mapM (Declared.configured action) = _ ↔ _
      rw [List.mapM_cons, Declared.configured_resolved]
      cases Action.applied action dependency with
      | error other =>
        change Except.error other = _ ↔ _
        simp
      | ok changed => exact iff_of_false nofun (by simp)
  · obtain ⟨given, configured⟩ : ∃ given, (Notation.deferred source).declare project >>=
        List.mapM (Declared.configured action) = .ok given :=
      ⟨_, (Single.configured_eq_ok_iff (.inr ⟨source, rfl⟩)).2 ⟨_, .lazy source, rfl⟩⟩
    rw [configured]
    exact iff_of_false nofun fun impossible => impossible.1

end Single

/-- The declarations of a notation, after the action, are those of its leaves. -/
theorem configured_eq_leaves (project : DeclaringProject) (action : Option Action)
    (written : Notation) : written.declare project >>= List.mapM (Declared.configured action) =
      List.flatten <$> (written.leaves.mapM (declare project) >>=
        List.mapM (List.mapM (Declared.configured action))) := by
  rw [declare_eq_leaves]
  cases written.leaves.mapM (declare project) with
  | error error => rfl
  | ok declared => exact Outcome.mapM_flatten declared

/-- Without an action, a notation is refused for nothing but being malformed. -/
theorem Refused.isMalformed (refused : written.Refused project none error) : error.IsMalformed := by
  cases refused with
  | mismatch understood split before direct read chosen refused => contradiction
  | misread split before direct failed =>
    obtain ⟨reading, -, parsed, malformed⟩ := direct.exists_reading project
    rw [failed] at parsed
    cases reading with
    | ok dependency => contradiction
    | error other =>
      cases parsed
      exact malformed _ rfl

/-- What is obtained of leaves is one declaration of each. -/
theorem flatten_mapM_configured_eq_ok_iff {items : List Notation} {given : List Declared}
    (single : ∀ leaf ∈ items, leaf.Single) :
    List.flatten <$> items.mapM (fun leaf =>
        leaf.declare project >>= List.mapM (Declared.configured action)) = .ok given ↔
      List.Forall₂ (Recorded project action) items given := by
  simp only [Outcome.map_eq_ok_iff]
  induction items generalizing given with
  | nil =>
    constructor
    · rintro ⟨_, ⟨⟩, rfl⟩
      exact .nil
    · rintro ⟨⟩
      exact ⟨[], rfl, rfl⟩
  | cons first rest ih =>
    obtain ⟨here, later⟩ := List.forall_mem_cons.1 single
    constructor
    · rintro ⟨_, found, rfl⟩
      obtain ⟨_, others, obtained, rest, rfl⟩ := Outcome.mapM_cons_eq_ok_iff.1 found
      obtain ⟨declaration, recorded, rfl⟩ := here.configured_eq_ok_iff.1 obtained
      exact .cons recorded ((ih later).1 ⟨others, rest, rfl⟩)
    · rintro (_ | ⟨recorded, others⟩)
      obtain ⟨lists, found, rfl⟩ := (ih later).2 others
      have obtained := here.configured_eq_ok_iff.2 ⟨_, recorded, rfl⟩
      exact ⟨_, Outcome.mapM_cons_eq_ok_iff.2 ⟨_, lists, obtained, found, rfl⟩, rfl⟩

/-- A notation is declared, after the action, as what is recorded for its leaves. -/
theorem configured_eq_ok_iff {given : List Declared} :
    written.declare project >>= List.mapM (Declared.configured action) = .ok given ↔
      List.Forall₂ (Recorded project action) written.leaves given := by
  rw [configured_eq_leaves, ← flatten_mapM_configured_eq_ok_iff fun _ => single_of_mem_leaves]
  simp only [Outcome.map_eq_ok_iff, Outcome.mapM_bind_mapM_eq_ok_iff]

/-- A notation fails to be declared, after the action, for the reasons that it can be refused. -/
theorem configured_eq_error_iff :
    written.declare project >>= List.mapM (Declared.configured action) = .error error ↔
      written.Refused project action error := by
  have single : ∀ leaf ∈ written.leaves, leaf.Single := fun _ => single_of_mem_leaves
  rw [configured_eq_leaves, Outcome.map_eq_error_iff, Outcome.bind_eq_error_iff]
  constructor
  · rintro (failed | ⟨declared, found, failed⟩)
    · obtain ⟨earlier, leaf, later, split, before, failed⟩ := Outcome.mapM_eq_error_iff.1 failed
      rw [split, List.forall_mem_append, List.forall_mem_cons] at single
      obtain ⟨first, here, -⟩ := single
      obtain ⟨direct, failed⟩ := here.declare_eq_error_iff.1 failed
      exact .misread split (fun other member =>
        (first other member).exists_declare_iff.1 (before other member)) direct failed
    · have understood : ∀ leaf ∈ written.leaves, leaf.Understood project := by
        intro leaf member
        obtain ⟨value, -, done⟩ := Outcome.exists_mem_of_mapM_eq_ok found leaf member
        exact (single leaf member).exists_declare_iff.1 ⟨value, done⟩
      rw [← Outcome.mapM_bind_of_ok found] at failed
      obtain ⟨earlier, leaf, later, split, before, failed⟩ := Outcome.mapM_eq_error_iff.1 failed
      have member : leaf ∈ written.leaves := by rw [split]; simp
      obtain ⟨direct, dependency, read, failed⟩ :=
        ((single leaf member).configured_eq_error_iff (understood leaf member)).1 failed
      obtain ⟨given, chosen, refused, rfl⟩ := Action.applied_eq_error_iff.1 failed
      refine .mismatch understood split (fun other earlier => ?_) direct read chosen refused
      obtain ⟨value, done⟩ := before other earlier
      have member : other ∈ written.leaves := by rw [split]; exact List.mem_append_left _ earlier
      obtain ⟨declaration, recorded, -⟩ := (single other member).configured_eq_ok_iff.1 done
      exact ⟨declaration, recorded⟩
  · rintro (⟨split, before, direct, failed⟩ |
      ⟨understood, split, before, direct, read, chosen, refused⟩)
    · rw [split, List.forall_mem_append, List.forall_mem_cons] at single
      obtain ⟨first, here, -⟩ := single
      refine .inl (Outcome.mapM_eq_error_iff.2 ⟨_, _, _, split, fun other member => ?_, ?_⟩)
      · exact (first other member).exists_declare_iff.2 (before other member)
      · exact here.declare_eq_error_iff.2 ⟨direct, failed⟩
    · obtain ⟨declared, found⟩ := Outcome.exists_mapM_eq_ok_iff.2 fun leaf member =>
        (single leaf member).exists_declare_iff.2 (understood leaf member)
      refine .inr ⟨declared, found, ?_⟩
      rw [← Outcome.mapM_bind_of_ok found]
      rw [split, List.forall_mem_append, List.forall_mem_cons] at single understood
      obtain ⟨first, here, -⟩ := single
      refine Outcome.mapM_eq_error_iff.2 ⟨_, _, _, split, fun other member => ?_, ?_⟩
      · obtain ⟨declaration, recorded⟩ := before other member
        exact ⟨_, (first other member).configured_eq_ok_iff.2 ⟨declaration, recorded, rfl⟩⟩
      · refine (here.configured_eq_error_iff understood.2.1).2 ⟨direct, _, read, ?_⟩
        exact Action.applied_eq_error_iff.2 ⟨_, chosen, refused, rfl⟩

end Notation

end BuildPath
