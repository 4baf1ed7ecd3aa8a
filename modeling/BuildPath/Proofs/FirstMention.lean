import BuildPath.Ordered
import Mathlib.Data.List.Induction

/-!
# First mentions

What it means that a list keeps only the first of equal items, said without the function that does
it: reading from the left, an item is kept exactly when no equal item stands before it
(`Ordered.FirstMentions`). `Ordered.distinctBy` computes that list and no other one
(`firstMentions_iff`), so it holds no two equal items and mentions what the whole list mentions.
-/

namespace BuildPath.Ordered

/-- No two items of a list are equal. -/
def Distinct {Item : Type} [BEq Item] (items : List Item) : Prop :=
  items.Pairwise fun earlier later => (earlier == later) = false

/-- What a list keeps when of equal items it keeps the first. -/
inductive FirstMentions {Item : Type} [BEq Item] : List Item → List Item → Prop
  | nothing : FirstMentions [] []
  /-- An item that no item before it equals is kept. -/
  | first {items kept : List Item} {item : Item} (prior : FirstMentions items kept)
      (new : items.contains item = false) : FirstMentions (items ++ [item]) (kept ++ [item])
  /-- An item that was mentioned before is dropped. -/
  | again {items kept : List Item} {item : Item} (prior : FirstMentions items kept)
      (mentioned : items.contains item = true) : FirstMentions (items ++ [item]) kept

section Insert

variable {Item : Type} [BEq Item] {items : List Item}

/-- An item that is there already is not inserted. -/
theorem insert_of_mem [LawfulBEq Item] {item : Item} (present : item ∈ items) :
    Ordered.insert items item = items := by
  simp [Ordered.insert, present]

/-- An item that is not there is inserted at the end. -/
theorem insert_of_not_mem [LawfulBEq Item] {item : Item} (absent : item ∉ items) :
    Ordered.insert items item = items ++ [item] := by
  simp [Ordered.insert, absent]

/-- Once an item is inserted, it is there besides those that were. -/
theorem mem_insert [LawfulBEq Item] {item other : Item} :
    other ∈ Ordered.insert items item ↔ other ∈ items ∨ other = item := by
  by_cases present : item ∈ items
  · rw [insert_of_mem present, iff_self_or]
    exact fun same => same ▸ present
  · rw [insert_of_not_mem present, List.mem_append, List.mem_singleton]

/-- Nothing is there after an insertion but what was and the item, whatever counts as equal. -/
theorem mem_or_eq_of_mem_insert {item other : Item} (member : other ∈ Ordered.insert items item) :
    other ∈ items ∨ other = item := by
  rw [Ordered.insert] at member
  split at member
  · exact .inl member
  · exact (List.mem_append.1 member).imp_right List.mem_singleton.1

/-- What was there stays where it is when an item is inserted. -/
theorem prefix_insert (items : List Item) (item : Item) : items <+: Ordered.insert items item := by
  rw [Ordered.insert]
  split
  · exact List.prefix_refl items
  · exact List.prefix_append items [item]

/-- An item is mentioned once it was inserted. -/
theorem contains_insert [EquivBEq Item] (items : List Item) (item : Item) :
    (Ordered.insert items item).contains item = true := by
  rw [Ordered.insert]
  split
  next present =>
    obtain ⟨other, member, same⟩ := List.any_eq_true.1 present
    exact List.contains_iff_exists_mem_beq.2 ⟨other, member, BEq.symm same⟩
  · exact List.contains_iff_exists_mem_beq.2
      ⟨item, List.mem_append_right _ List.mem_cons_self, BEq.rfl⟩

/-- Inserting an item keeps a list without equal items so. -/
theorem Distinct.insert (distinct : Distinct items) (item : Item) :
    Distinct (Ordered.insert items item) := by
  unfold Ordered.insert
  split
  · exact distinct
  · next absent =>
    rw [Bool.not_eq_true, List.any_eq_false] at absent
    refine List.pairwise_append.2 ⟨distinct, List.pairwise_singleton _ _, ?_⟩
    intro earlier member later last
    rw [List.mem_singleton.1 last]
    exact Bool.eq_false_iff.2 (absent earlier member)

/-- What remains of a list without equal items has none either. -/
theorem Distinct.filter (distinct : Distinct items) (keeps : Item → Bool) :
    Distinct (items.filter keeps) :=
  List.Pairwise.filter keeps distinct

end Insert

section Distinct

variable {Value Item : Type} [BEq Item] [EquivBEq Item] {key : Value → Item}

/-- An item at the end is kept unless its key was met, in the list or before it. -/
theorem distinctFrom_concat (seen : List Item) (values : List Value) (last : Value) :
    distinctFrom key seen (values ++ [last]) =
      if seen.contains (key last) || (values.map key).contains (key last) then
        distinctFrom key seen values
      else distinctFrom key seen values ++ [last] := by
  induction values generalizing seen with
  | nil =>
    cases met : seen.contains (key last) with
    | false => simp only [List.nil_append, distinctFrom, met]; rfl
    | true => simp only [List.nil_append, distinctFrom, met]; rfl
  | cons value values ih =>
    rw [List.cons_append, distinctFrom, distinctFrom, List.map_cons, List.contains_cons]
    by_cases met : seen.contains (key value) = true
    · rw [if_pos met, if_pos met, ih]
      -- The key of the first item adds nothing to the keys met before.
      have absorbed : (key last == key value) = true → seen.contains (key last) = true := by
        intro same
        rw [List.contains_congr same, met]
      cases same : key last == key value with
      | false => simp
      | true => simp [absorbed same]
    · rw [if_neg met, if_neg met, ih, List.contains_cons]
      cases key last == key value <;> cases seen.contains (key last) <;>
        cases (values.map key).contains (key last) <;> simp

omit [EquivBEq Item] in
/-- Only values that were given are kept. -/
theorem distinctFrom_sublist (seen : List Item) (values : List Value) :
    (distinctFrom key seen values).Sublist values := by
  induction values generalizing seen with
  | nil => exact .slnil
  | cons value values ih =>
    rw [distinctFrom]
    split
    · exact (ih seen).cons value
    · exact (ih _).cons_cons value

variable [BEq Value] (keyed : ∀ left right : Value, (left == right) = (key left == key right))
include keyed

omit [EquivBEq Item] in
/-- Whether a value is mentioned can be told by its key. -/
theorem contains_map_key (values : List Value) (value : Value) :
    (values.map key).contains (key value) = values.contains value := by
  induction values with
  | nil => rfl
  | cons first rest ih => rw [List.map_cons, List.contains_cons, List.contains_cons, ih, keyed]

/-- The last value of a list is kept unless an equal one stands before it. -/
theorem distinctBy_concat (values : List Value) (last : Value) :
    distinctBy key (values ++ [last]) =
      if values.contains last then distinctBy key values
      else distinctBy key values ++ [last] := by
  rw [distinctBy, distinctFrom_concat, contains_map_key keyed]
  simp [distinctBy]

/-- The first mentions of a list are what is computed by their keys. -/
theorem firstMentions_distinctBy (values : List Value) :
    FirstMentions values (distinctBy key values) := by
  induction values using List.reverseRecOn with
  | nil => exact .nothing
  | append_singleton values last ih =>
    rw [distinctBy_concat keyed]
    split
    · next mentioned => exact .again ih mentioned
    · next new => exact .first ih (Bool.eq_false_iff.2 new)

/-- The first mentions of a list are computed, and there is no other list of them. -/
theorem firstMentions_iff {values kept : List Value} :
    FirstMentions values kept ↔ kept = distinctBy key values := by
  constructor
  · intro mentions
    induction mentions with
    | nothing => rfl
    | first prior new ih => rw [distinctBy_concat keyed, new, ih]; rfl
    | again prior mentioned ih => rw [distinctBy_concat keyed, if_pos mentioned, ih]
  · rintro rfl
    exact firstMentions_distinctBy keyed values

end Distinct

section Renamed

variable {Value Other Item Tag : Type} [BEq Item] [BEq Tag] {change : Value → Other}
  {key : Other → Item} {tag : Value → Tag} {known : Value → Prop} {values : List Value}
  (alike : ∀ left right, known left → known right →
    (key (change left) == key (change right)) = (tag left == tag right))
include alike

/-- Where keys are equal exactly when tags are, a key is among keys when its tag is among tags. -/
theorem contains_map_congr (given : ∀ value ∈ values, known value) {value : Value}
    (here : known value) :
    ((values.map change).map key).contains (key (change value)) =
      (values.map tag).contains (tag value) := by
  induction values with
  | nil => rfl
  | cons first rest ih =>
    obtain ⟨before, later⟩ := List.forall_mem_cons.1 given
    rw [List.map_cons, List.map_cons, List.map_cons, List.contains_cons, List.contains_cons,
      alike value first here before, ih later]

/-- Of values that take another form the same are kept, by their keys then or by their tags. -/
theorem distinctFrom_map {seen : List Value} (met : ∀ value ∈ seen, known value)
    (given : ∀ value ∈ values, known value) :
    distinctFrom key ((seen.map change).map key) (values.map change) =
      (distinctFrom tag (seen.map tag) values).map change := by
  induction values generalizing seen with
  | nil => rfl
  | cons value values ih =>
    obtain ⟨here, later⟩ := List.forall_mem_cons.1 given
    rw [List.map_cons, distinctFrom, distinctFrom, contains_map_congr alike met here]
    split
    · exact ih met later
    · rw [List.map_cons]
      have more : ∀ other ∈ value :: seen, known other := List.forall_mem_cons.2 ⟨here, met⟩
      exact congrArg (change value :: ·) (@ih (value :: seen) more later)

/-- Values that take another form may be cut down to their first mentions before or after. -/
theorem distinctBy_map (given : ∀ value ∈ values, known value) :
    distinctBy key (values.map change) = (distinctBy tag values).map change :=
  @distinctFrom_map _ _ _ _ _ _ _ _ _ _ _ alike [] nofun given

end Renamed

section Mentions

variable {Item : Type} [BEq Item] [EquivBEq Item] {items kept : List Item}

/-- The first mentions of a list are those that `distinct` keeps. -/
theorem firstMentions_iff_distinct : FirstMentions items kept ↔ kept = distinct items :=
  firstMentions_iff fun _ _ => rfl

/-- Where no two items are equal, an item that is mentioned is there once. -/
theorem Distinct.countP_eq_one (distinct : Distinct items) {item : Item}
    (mentioned : items.contains item = true) : items.countP (· == item) = 1 := by
  induction items with
  | nil => contradiction
  | cons first rest ih =>
    obtain ⟨apart, others⟩ := List.pairwise_cons.1 distinct
    rw [List.contains_cons, Bool.or_eq_true] at mentioned
    rw [List.countP_cons]
    cases same : first == item with
    | true =>
      have absent : rest.countP (· == item) = 0 := by
        refine List.countP_eq_zero.2 fun other member equal => ?_
        have twice := apart other member
        rw [BEq.congr_left same, BEq.symm equal] at twice
        contradiction
      rw [absent]
      rfl
    | false =>
      rw [BEq.comm, same] at mentioned
      exact ih others (mentioned.resolve_left Bool.false_ne_true)

/-- The first mentions of a list mention all that it mentions. -/
theorem FirstMentions.contains_eq (mentions : FirstMentions items kept) (item : Item) :
    kept.contains item = items.contains item := by
  induction mentions with
  | nothing => rfl
  | first prior new ih => simp [ih]
  | @again items kept last prior mentioned ih =>
    rw [ih, List.contains_append]
    cases same : item == last with
    | false => simp [same]
    | true => rw [List.contains_congr same, mentioned, Bool.true_or]

omit [EquivBEq Item] in
/-- The first mentions of a list are among its items, in its order. -/
theorem FirstMentions.sublist (mentions : FirstMentions items kept) : kept.Sublist items := by
  induction mentions with
  | nothing => exact .slnil
  | first prior new ih => exact ih.append (List.Sublist.refl _)
  | again prior mentioned ih => exact ih.trans (List.sublist_append_left _ _)

/-- No two first mentions are equal. -/
theorem FirstMentions.distinct (mentions : FirstMentions items kept) : Distinct kept := by
  induction mentions with
  | nothing => exact List.Pairwise.nil
  | @first items kept last prior new ih =>
    refine List.pairwise_append.2 ⟨ih, List.pairwise_singleton _ _, ?_⟩
    intro earlier member later only
    rw [List.mem_singleton.1 only]
    rw [← prior.contains_eq] at new
    refine Bool.eq_false_iff.2 fun same => ?_
    have mentioned : kept.contains last = true :=
      List.contains_iff_exists_mem_beq.2 ⟨earlier, member, BEq.symm same⟩
    rw [new] at mentioned
    contradiction
  | again prior mentioned ih => exact ih

/-- A list without equal items keeps all of them. -/
theorem Distinct.firstMentions (distinct : Distinct items) : FirstMentions items items := by
  induction items using List.reverseRecOn with
  | nil => exact .nothing
  | append_singleton items last ih =>
    obtain ⟨before, -, apart⟩ := List.pairwise_append.1 distinct
    refine .first (ih before) (Bool.eq_false_iff.2 fun mentioned => ?_)
    obtain ⟨earlier, member, same⟩ := List.contains_iff_exists_mem_beq.1 mentioned
    have differs := apart earlier member last (List.mem_singleton_self last)
    rw [BEq.comm, same] at differs
    contradiction

/-- An item that is inserted is mentioned last, if it was not mentioned before. -/
theorem FirstMentions.insert (mentions : FirstMentions items kept) (item : Item) :
    FirstMentions (items ++ [item]) (Ordered.insert kept item) := by
  have present : kept.any (· == item) = items.contains item := by
    rw [← mentions.contains_eq, List.contains_eq_any_beq]
    exact congrArg (List.any _) (funext fun _ => BEq.comm)
  rw [Ordered.insert, present]
  split
  · next mentioned => exact .again mentions mentioned
  · next new => exact .first mentions (Bool.eq_false_iff.2 new)

omit [EquivBEq Item] in
/-- What does not distinguish equal items may be asked of a list before or after it is cut down to
its first mentions. -/
theorem FirstMentions.filter (mentions : FirstMentions items kept) {keeps : Item → Bool}
    (alike : ∀ item other, (item == other) = true → keeps item = keeps other) :
    FirstMentions (items.filter keeps) (kept.filter keeps) := by
  have contains_filter {items : List Item} {item : Item} (kept : keeps item = true) :
      (items.filter keeps).contains item = items.contains item := by
    rw [Bool.eq_iff_iff, List.contains_iff_exists_mem_beq, List.contains_iff_exists_mem_beq]
    constructor
    · exact fun ⟨other, member, same⟩ => ⟨other, (List.mem_filter.1 member).1, same⟩
    · exact fun ⟨other, member, same⟩ =>
        ⟨other, List.mem_filter.2 ⟨member, (alike item other same).symm.trans kept⟩, same⟩
  induction mentions with
  | nothing => exact .nothing
  | @first items kept last prior new ih =>
    rw [List.filter_append, List.filter_append, List.filter_cons, List.filter_nil]
    cases keep : keeps last with
    | false => simpa using ih
    | true => exact .first ih ((contains_filter keep).trans new)
  | @again items kept last prior mentioned ih =>
    rw [List.filter_append, List.filter_cons, List.filter_nil]
    cases keep : keeps last with
    | false => simpa using ih
    | true => exact .again ih ((contains_filter keep).trans mentioned)

/-- Items that are inserted one after the other are kept at their first mention. -/
theorem firstMentions_foldl_insert (items : List Item) :
    FirstMentions items (items.foldl Ordered.insert []) := by
  induction items using List.reverseRecOn with
  | nil => exact .nothing
  | append_singleton items last ih =>
    rw [List.foldl_append]
    exact ih.insert last

/-- The first mentions of a list are what is left of it when its items are inserted one after the
other. -/
theorem FirstMentions.eq_foldl_insert (mentions : FirstMentions items kept) :
    kept = items.foldl Ordered.insert [] := by
  have inserted := firstMentions_iff_distinct.1 (firstMentions_foldl_insert items)
  exact (firstMentions_iff_distinct.1 mentions).trans inserted.symm

end Mentions

section Twice

variable {Value Item : Type} [BEq Value] [EquivBEq Value] [BEq Item] [EquivBEq Item]
  {key : Value → Item} (keyed : ∀ left right : Value, (left == right) = (key left == key right))
include keyed

/-- Whether a first part is cut down to its first mentions beforehand makes no difference. -/
theorem distinctBy_distinctBy_append (values more : List Value) :
    distinctBy key (distinctBy key values ++ more) = distinctBy key (values ++ more) := by
  have mentions := firstMentions_distinctBy keyed values
  induction more using List.reverseRecOn with
  | nil =>
    rw [List.append_nil, List.append_nil]
    exact ((firstMentions_iff keyed).1 mentions.distinct.firstMentions).symm
  | append_singleton more last ih =>
    rw [← List.append_assoc, ← List.append_assoc, distinctBy_concat keyed, distinctBy_concat keyed,
      ih, List.contains_append, List.contains_append, mentions.contains_eq]

end Twice

/-- Items in front of others may be cut down to their first mentions beforehand. -/
theorem distinct_distinct_append {Item : Type} [BEq Item] [EquivBEq Item]
    (items more : List Item) : distinct (distinct items ++ more) = distinct (items ++ more) :=
  distinctBy_distinctBy_append (fun _ _ => rfl) items more

end BuildPath.Ordered
