import BuildPath.Manifest.Basic
import BuildPath.Proofs.Text.Bytes
import Mathlib.Data.List.Induction

/-!
# The names in a manifest

A manifest that was parsed lists its configurations in the order of the bytes of their names, each
name once (`Manifest.sorted_of_parse`). Members are sorted by their characters; that this is the
order of their bytes is a property of the encoding (`Text.bytes_lt_of_lt`).
-/

namespace BuildPath

namespace Json

variable {Value : Type} {members : List (String × Value)}

/-- The keys of members with one more are its key and theirs. -/
theorem mem_keys_insertMember {member : String × Value} {key : String}
    (present : key ∈ (insertMember members member).map Prod.fst) :
    key = member.1 ∨ key ∈ members.map Prod.fst := by
  induction members with
  | nil => exact .inl (List.mem_singleton.1 present)
  | cons other rest ih =>
    rw [insertMember] at present
    split at present
    · exact (List.mem_cons.1 present).imp_right (List.mem_cons_of_mem _)
    · split at present
      · exact List.mem_cons.1 present
      · rcases List.mem_cons.1 present with rfl | present
        · exact .inr List.mem_cons_self
        · exact (ih present).imp_right (List.mem_cons_of_mem _)

/-- One more member takes the place of its key. -/
theorem sorted_insertMember (sorted : (members.map Prod.fst).Pairwise (· < ·))
    (member : String × Value) : ((insertMember members member).map Prod.fst).Pairwise (· < ·) := by
  induction members with
  | nil => exact List.pairwise_singleton _ _
  | cons other rest ih =>
    obtain ⟨before, later⟩ := List.pairwise_cons.1 sorted
    rw [insertMember]
    split
    · next same =>
      rw [List.map_cons, eq_of_beq same]
      exact sorted
    · next differs =>
      split
      · next less =>
        refine List.pairwise_cons.2 ⟨List.forall_mem_cons.2 ⟨less, fun key present => ?_⟩, sorted⟩
        exact less.trans (before key present)
      · next larger =>
        refine List.pairwise_cons.2 ⟨fun key present => ?_, ih later⟩
        rcases mem_keys_insertMember present with rfl | present
        · exact lt_of_le_of_ne (not_lt.1 larger) fun same => differs (beq_iff_eq.2 same.symm)
        · exact before key present

/-- Members are sorted by their keys, each key once. -/
theorem sorted_sortMembers (members : List (String × Value)) :
    ((sortMembers members).map Prod.fst).Pairwise (· < ·) := by
  induction members using List.reverseRecOn with
  | nil => exact .nil
  | append_singleton members member ih =>
    rw [sortMembers, List.foldl_append]
    exact sorted_insertMember ih member

end Json

namespace Manifest

open Json

/-- The names of the configurations. -/
def keys (manifest : Manifest) : List String := manifest.configurations.map Prod.fst

/-- A manifest of which the configurations are in the order of the bytes of their names, each name
once. -/
def Sorted (manifest : Manifest) : Prop :=
  manifest.keys.Pairwise fun earlier later => Text.bytes earlier < Text.bytes later

/-- No two configurations of a sorted manifest have one name. -/
theorem Sorted.nodup {manifest : Manifest} (sorted : manifest.Sorted) : manifest.keys.Nodup := by
  refine List.Pairwise.imp (fun less same => ?_) sorted
  rw [same] at less
  exact List.lt_irrefl _ less

/-- A manifest that was parsed is sorted. -/
theorem sorted_of_parse {manifest : Manifest} {text : String}
    (parsed : parse text = .ok manifest) : manifest.Sorted := by
  unfold parse at parsed
  split at parsed
  · next found =>
    cases parsed
    obtain ⟨document, -, decoded⟩ := Option.bind_eq_some_iff.1 found
    obtain ⟨record, -, decoded⟩ := Option.bind_eq_some_iff.1 decoded
    obtain ⟨settings, -, decoded⟩ := Option.bind_eq_some_iff.1 decoded
    obtain ⟨configurations, listed, ⟨⟩⟩ := Option.bind_eq_some_iff.1 decoded
    refine List.Pairwise.imp Text.bytes_lt_of_lt ?_
    change (configurations.map Prod.fst).Pairwise _
    unfold Record.get at listed
    split at listed
    · cases listed
      exact .nil
    · unfold Decoder.dictionary at listed
      split at listed
      · obtain ⟨members, -, rfl⟩ := Option.map_eq_some_iff.1 listed
        exact sorted_sortMembers members
      · contradiction
  · contradiction

end Manifest

end BuildPath
