import BuildPath.Proofs.Graph.Publishing
import BuildPath.Proofs.Graph.Repeating

/-!
# Artifacts and the tasks that build them

What a configuration publishes after artifacts were added to it and taken back, said by what was
called: the artifacts that were added since the last time that those of their task were taken back
(`Publication.standing`), each at its first mention (`Session.artifacts_follow_producers`). An
addition is compared with what is there as a whole, artifact and task; a removal looks at the task
alone.
-/

namespace BuildPath

/-- A call on what a configuration publishes, with its answer. -/
inductive Publication
  | added (binding : ArtifactBinding)
  /-- The artifacts that a task builds were taken back, so many of them. -/
  | removed (producer : String) (count : Nat)

namespace Publication

/-- Whether a call takes an artifact back. -/
def removes (binding : ArtifactBinding) : Publication → Bool
  | .added _ => false
  | .removed producer _ => binding.isProducedBy producer

/-- The artifacts that were added and not taken back later, in the order of the calls. -/
def standing : List Publication → List ArtifactBinding
  | [] => []
  | .added binding :: later =>
    if later.any (removes binding) then standing later else binding :: standing later
  | .removed _ _ :: later => standing later

/-- An artifact that is added last stands. -/
theorem standing_added (calls : List Publication) (binding : ArtifactBinding) :
    standing (calls ++ [.added binding]) = standing calls ++ [binding] := by
  induction calls with
  | nil => rfl
  | cons call calls ih =>
    cases call with
    | added earlier =>
      rw [List.cons_append, standing, standing, List.any_append, ih]
      cases calls.any (removes earlier) <;> rfl
    | removed producer count => exact ih

/-- When the artifacts of a task are taken back, those of no task and of other ones stand. -/
theorem standing_removed (calls : List Publication) (producer : String) (count : Nat) :
    standing (calls ++ [.removed producer count]) =
      (standing calls).filter fun binding => !binding.isProducedBy producer := by
  induction calls with
  | nil => rfl
  | cons call calls ih =>
    cases call with
    | added earlier =>
      have last : [removed producer count].any (removes earlier) = earlier.isProducedBy producer :=
        Bool.or_false _
      rw [List.cons_append, standing, standing, List.any_append, ih, last]
      cases calls.any (removes earlier) <;> cases same : earlier.isProducedBy producer <;>
        simp [same]
    | removed producer count => exact ih

/-- No call takes an artifact back unless it names the task that builds it. -/
theorem any_removes_eq_false_iff {calls : List Publication} {binding : ArtifactBinding} :
    calls.any (removes binding) = false ↔
      ∀ producer count, .removed producer count ∈ calls → binding.producer ≠ some producer := by
  rw [List.any_eq_false]
  constructor
  · intro kept producer count member same
    exact kept _ member (beq_iff_eq.2 same)
  · intro apart call member taken
    cases call with
    | added other => contradiction
    | removed producer count => exact apart producer count member (beq_iff_eq.1 taken)

/-- An artifact stands if a call added it and no later one took it back. -/
theorem mem_standing_iff {calls : List Publication} {binding : ArtifactBinding} :
    binding ∈ standing calls ↔ ∃ earlier later, calls = earlier ++ .added binding :: later ∧
      ∀ producer count, .removed producer count ∈ later → binding.producer ≠ some producer := by
  simp only [← any_removes_eq_false_iff]
  induction calls with
  | nil => simp [standing]
  | cons call calls ih =>
    -- The addition is the first call, or else one of the others.
    have first_or_later : (∃ earlier later, call :: calls = earlier ++ .added binding :: later ∧
        later.any (removes binding) = false) ↔
        call = .added binding ∧ calls.any (removes binding) = false ∨ binding ∈ standing calls := by
      rw [ih]
      constructor
      · rintro ⟨_ | ⟨first, earlier⟩, later, split, kept⟩
        · cases split
          exact .inl ⟨rfl, kept⟩
        · cases split
          exact .inr ⟨earlier, later, rfl, kept⟩
      · rintro (⟨rfl, kept⟩ | ⟨earlier, later, rfl, kept⟩)
        · exact ⟨[], calls, rfl, kept⟩
        · exact ⟨call :: earlier, later, rfl, kept⟩
    rw [first_or_later]
    cases call with
    | added other =>
      rw [standing]
      by_cases same : other = binding
      · subst same
        cases calls.any (removes other) <;> simp
      · cases calls.any (removes other) <;> simp [same, Ne.symm same]
    | removed producer count => simp [standing]

/-- What a call makes of the artifacts that are there. -/
def publish (artifacts : List ArtifactBinding) : Publication → List ArtifactBinding
  | .added binding => Ordered.insert artifacts binding
  | .removed producer _ => artifacts.filter fun binding => !binding.isProducedBy producer

/-- What calls make of nothing are the first mentions of what stands. -/
theorem firstMentions_publish (calls : List Publication) :
    Ordered.FirstMentions (standing calls) (calls.foldl publish []) := by
  induction calls using List.reverseRecOn with
  | nil => exact .nothing
  | append_singleton calls last ih =>
    rw [List.foldl_append]
    cases last with
    | added binding =>
      rw [standing_added]
      exact ih.insert binding
    | removed producer count =>
      rw [standing_removed]
      refine ih.filter fun binding other same => ?_
      rw [ArtifactBinding.isProducedBy, ArtifactBinding.isProducedBy,
        ArtifactBinding.producer_eq_of_beq same]

end Publication

namespace Session

variable {name : String} {before fresh after : Session} {calls : List Publication}

/-- A call on what a configuration publishes succeeds with its answer and leads from one session to
another. -/
def Calls (name : String) (before after : Session) : Publication → Prop
  | .added binding =>
    (Operation.edit (.addArtifact name binding)).perform.perform before = (.ok (), after)
  | .removed producer count =>
    (Operation.removeArtifacts name producer).perform.perform before = (.ok count, after)

/-- Calls on what a configuration publishes, made one after the other, all of which succeed. -/
inductive Publishes (name : String) : Session → List Publication → Session → Prop
  | nothing (session : Session) : Publishes name session [] session
  | next {before middle after : Session} {call : Publication} {calls : List Publication}
    (first : Calls name before middle call) (rest : Publishes name middle calls after) :
    Publishes name before (call :: calls) after

/-- Calls in two parts lead to a session between them. -/
theorem Publishes.exists_middle {earlier later : List Publication}
    (published : Publishes name before (earlier ++ later) after) :
    ∃ middle, Publishes name before earlier middle ∧ Publishes name middle later after := by
  induction earlier generalizing before with
  | nil => exact ⟨before, .nothing before, published⟩
  | cons call earlier ih =>
    obtain _ | ⟨first, rest⟩ := published
    obtain ⟨middle, early, late⟩ := ih rest
    exact ⟨middle, .next first early, late⟩

/-- What a call that succeeds makes of the artifacts of its configuration. -/
theorem artifactsOf_of_calls {call : Publication} (called : Calls name before after call) :
    after.graph.artifactsOf name = call.publish (before.graph.artifactsOf name) := by
  cases call with
  | added binding =>
    obtain ⟨graph, applied, rfl⟩ := perform_edit_eq_ok.1 called
    exact (Graph.artifactsOf_apply applied).trans (if_pos rfl)
  | removed producer count =>
    obtain ⟨-, graph, -, applied, -, rfl⟩ := perform_removeArtifacts_eq_ok.1 called
    exact (Graph.artifactsOf_apply applied).trans (if_pos rfl)

/-- What calls that all succeed make of the artifacts of their configuration. -/
theorem Publishes.artifactsOf_eq (published : Publishes name before calls after) :
    after.graph.artifactsOf name =
      calls.foldl Publication.publish (before.graph.artifactsOf name) := by
  induction published with
  | nothing session => rfl
  | next first rest ih => rw [ih, artifactsOf_of_calls first, List.foldl_cons]

/-- A configuration that is there stays there. -/
theorem Publishes.contains (published : Publishes name before calls after)
    (known : before.graph.contains name = true) : after.graph.contains name = true := by
  induction published with
  | nothing session => exact known
  | @next before middle after call calls first rest ih =>
    refine ih ?_
    cases call with
    | added binding =>
      obtain ⟨graph, applied, rfl⟩ := perform_edit_eq_ok.1 first
      exact (Graph.grown_of_apply applied).contains known
    | removed producer count =>
      obtain ⟨-, graph, -, applied, -, rfl⟩ := perform_removeArtifacts_eq_ok.1 first
      exact (Graph.grown_of_apply applied).contains known

/-- A configuration that was created is there and publishes nothing. -/
theorem publishes_nothing_of_created
    (created : (Operation.edit (.create name)).perform.perform before = (.ok (), fresh)) :
    fresh.graph.contains name = true ∧ fresh.graph.artifactsOf name = [] := by
  obtain ⟨graph, applied, rfl⟩ := perform_edit_eq_ok.1 created
  obtain ⟨unknown, -, rfl⟩ := Graph.create_eq_ok_iff.1 applied
  have absent : before.graph.find? name = none := by
    rwa [Graph.contains, Option.isSome_eq_false_iff, Option.isNone_iff_eq_none] at unknown
  constructor
  · rw [Graph.contains, Graph.find?_create, absent]
    simp
  · rw [Graph.artifactsOf, Graph.find?_create, absent]
    simp [Configuration.named]

/-- Of a configuration that was created, artifacts added to it and taken back, all with success: it
publishes what was added since the last time that the artifacts of its task were taken back, in the
order of these additions and nothing twice, and a removal answers how many artifacts of its task
were there just before. -/
theorem artifacts_follow_producers
    (created : (Operation.edit (.create name)).perform.perform before = (.ok (), fresh))
    (published : Publishes name fresh calls after) :
    ∃ configuration, after.graph.find? name = some configuration ∧
      Ordered.FirstMentions (Publication.standing calls) configuration.artifacts ∧
      Ordered.Distinct configuration.artifacts ∧
      (∀ binding, configuration.artifacts.contains binding = true ↔
        ∃ earlier added later, calls = earlier ++ .added added :: later ∧
          (binding == added) = true ∧ ∀ producer count,
            .removed producer count ∈ later → binding.producer ≠ some producer) ∧
      ∀ earlier producer count later, calls = earlier ++ .removed producer count :: later →
        ∃ middle present, Publishes name fresh earlier middle ∧
          middle.graph.find? name = some present ∧ Ordered.Distinct present.artifacts ∧
          count = (present.artifacts.filter (·.isProducedBy producer)).length := by
  obtain ⟨known, nothing⟩ := publishes_nothing_of_created created
  have mentions {calls : List Publication} {after : Session} {configuration : Configuration}
      (published : Publishes name fresh calls after)
      (found : after.graph.find? name = some configuration) :
      Ordered.FirstMentions (Publication.standing calls) configuration.artifacts := by
    have listed := published.artifactsOf_eq
    rw [nothing, Graph.artifactsOf, found] at listed
    change configuration.artifacts = _ at listed
    rw [listed]
    exact Publication.firstMentions_publish calls
  obtain ⟨configuration, found⟩ := Option.isSome_iff_exists.1 (published.contains known)
  have standing := mentions published found
  refine ⟨configuration, found, standing, standing.distinct, fun binding => ?_, ?_⟩
  · rw [standing.contains_eq, List.contains_iff_exists_mem_beq]
    constructor
    · rintro ⟨added, member, same⟩
      obtain ⟨earlier, later, split, kept⟩ := Publication.mem_standing_iff.1 member
      rw [← ArtifactBinding.producer_eq_of_beq same] at kept
      exact ⟨earlier, added, later, split, same, kept⟩
    · rintro ⟨earlier, added, later, split, same, kept⟩
      rw [ArtifactBinding.producer_eq_of_beq same] at kept
      exact ⟨added, Publication.mem_standing_iff.2 ⟨earlier, later, split, kept⟩, same⟩
  · rintro earlier producer count later rfl
    obtain ⟨middle, early, late⟩ := published.exists_middle
    obtain _ | ⟨removed, -⟩ := late
    obtain ⟨present, -, found, -, counted, -⟩ := perform_removeArtifacts_eq_ok.1 removed
    refine ⟨middle, present, early, found, (mentions early found).distinct, ?_⟩
    rw [counted, Configuration.countArtifacts, List.countP_eq_length_filter]

/-- A program, as an artifact of a task or of none. -/
def program (producer : Option String) : ArtifactBinding :=
  ⟨.ofFile "app" "jar" ⟨"build/libs/app.jar"⟩, producer⟩

/-- One artifact of two tasks and of none; those of one task are taken back and added again. -/
def repackaged : List Publication := [
  .added (program (some "jar")), .added (program (some "repackage")), .added (program none),
  .added (program (some "jar")), .removed "jar" 1, .added (program (some "jar"))]

/-- The artifact of the other task and that of none stay when an equal file is taken back, and what
is added again comes last. -/
theorem artifacts_follow_producers_repackaged :
    ∃ empty fresh after configuration,
      (Operation.edit (.create "archives")).perform.perform empty = (.ok (), fresh) ∧
      Publishes "archives" fresh repackaged after ∧
      after.graph.find? "archives" = some configuration ∧
      Ordered.FirstMentions [program (some "repackage"), program none, program (some "jar")]
        configuration.artifacts ∧
      configuration.artifacts.contains (program none) = true := by
  let empty := start (.new {} .root) (FileTree.new [])
  have created : (Operation.edit (.create "archives")).perform.perform empty =
      (.ok (), empty.run [.edit (.create "archives")]) :=
    Event.perform_eq_of_fst (by decide +kernel)
  have published : Publishes "archives" (empty.run [.edit (.create "archives")]) repackaged _ :=
    .next (Event.perform_eq_of_fst (by decide +kernel)) <|
    .next (Event.perform_eq_of_fst (by decide +kernel)) <|
    .next (Event.perform_eq_of_fst (by decide +kernel)) <|
    .next (Event.perform_eq_of_fst (by decide +kernel)) <|
    .next (Event.perform_eq_of_fst (by decide +kernel)) <|
    .next (Event.perform_eq_of_fst (by decide +kernel)) <|
    .nothing _
  obtain ⟨configuration, found, mentions, -, present, -⟩ :=
    artifacts_follow_producers created published
  exact ⟨_, _, _, configuration, created, published, found, mentions,
    (present _).2 ⟨repackaged.take 2, _, repackaged.drop 3, rfl, by decide, fun _ _ _ => nofun⟩⟩

end Session

end BuildPath
