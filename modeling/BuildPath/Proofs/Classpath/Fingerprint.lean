import BuildPath.Proofs.Classpath.Algebra
import BuildPath.Proofs.Text.Bytes
import BuildPath.Text.Split
import Mathlib.Data.List.Basic

/-!
# What a fingerprint tells

A fingerprint is the hash of bytes from which the files of the classpath can be read again, since no
path that can name a file has a zero byte (`Classpath.bytes_eq_iff`), and its digits tell all of the
hash (`Blake3.text_injective`). So two classpaths that differ have one fingerprint only if two
different inputs have one hash (`Classpath.fingerprint_eq_iff`). Paths can be equal that are written
differently, but not on a classpath that was evaluated (`Path.beq_list_iff`); there, classpaths that
are equal have one fingerprint.
-/

namespace BuildPath

namespace Blake3

/-- A hexadecimal digit tells its value. -/
theorem digitChar_inj : ∀ left < 16, ∀ right < 16,
    Nat.digitChar left = Nat.digitChar right → left = right := by decide

/-- The two digits of a byte tell its value. -/
theorem byteText_inj {left right : Nat} (byte : left < 256) (other : right < 256)
    (same : byteText left = byteText right) : left = right := by
  obtain ⟨high, low⟩ := List.cons.inj same
  have high := digitChar_inj _ (by omega) _ (by omega) high
  have low := digitChar_inj _ (by omega) _ (by omega) (List.cons.inj low).1
  omega

/-- The bytes of a word, the lowest first. -/
def wordBytes (word : UInt32) : List Nat :=
  ([0, 8, 16, 24] : List UInt32).map fun shift => (word >>> shift).toNat % 256

/-- The bytes of a word by its value. -/
theorem wordBytes_eq (word : UInt32) : wordBytes word =
    [word.toNat % 256, word.toNat / 2 ^ 8 % 256, word.toNat / 2 ^ 16 % 256,
      word.toNat / 2 ^ 24 % 256] := by
  simp [wordBytes, Nat.shiftRight_eq_div_pow]

/-- A word is told by its bytes. -/
theorem wordBytes_injective : Function.Injective wordBytes := by
  intro left right same
  have bound := left.toNat_lt
  have limit := right.toNat_lt
  simp only [wordBytes_eq, List.cons.injEq] at same
  exact UInt32.toNat_inj.1 (by omega)

/-- The bytes of a word are bytes. -/
theorem lt_of_mem_wordBytes {word : UInt32} {byte : Nat} (member : byte ∈ wordBytes word) :
    byte < 256 := by
  obtain ⟨shift, -, rfl⟩ := List.mem_map.1 member
  exact Nat.mod_lt _ (by decide)

/-- The digits of a word, those of its bytes one after the other. -/
def wordText (word : UInt32) : List Char := (wordBytes word).flatMap byteText

/-- A word is told by its digits. -/
theorem wordText_injective : Function.Injective wordText := fun _ _ same =>
  wordBytes_injective <| Text.flatMap_inj_of_length rfl (fun _ _ => rfl)
    (fun _ member _ among => byteText_inj (lt_of_mem_wordBytes member) (lt_of_mem_wordBytes among))
    same

/-- The digits of a hash are those of its words. -/
theorem text_eq (chain : Chain) : text chain = String.ofList (chain.toList.flatMap wordText) := by
  have digits (word : UInt32) : wordText word = ([0, 8, 16, 24] : List UInt32).flatMap
      fun shift => byteText ((word >>> shift).toNat % 256) := List.flatMap_map _ _ _
  rw [text, funext digits]

/-- A hash is told by its digits. -/
theorem text_injective : Function.Injective text := by
  intro left right same
  rw [text_eq, text_eq] at same
  refine Vector.toList_inj.1 (Text.flatMap_inj_of_length ?_ (fun _ _ => rfl)
    (fun _ _ _ _ => @wordText_injective _ _) (String.ofList_injective same))
  rw [left.length_toList, right.length_toList]

/-- Two inputs that are not the same and have the same hash. -/
def Collide (left right : List UInt8) : Prop := left ≠ right ∧ hash left = hash right

end Blake3

namespace Path

/-- A path without the character that is encoded as a zero byte, which no name of a file has. -/
def NulFree (path : Path) : Prop := '\x00' ∉ path.text.toList

instance (path : Path) : Decidable path.NulFree :=
  inferInstanceAs (Decidable ('\x00' ∉ path.text.toList))

variable {left right : List Path}

/-- Normalized paths are equal when they are written alike. -/
theorem beq_iff_text_eq {path other : Path} (normal : path.Normal) (too : other.Normal) :
    (path == other) = true ↔ path.text = other.text := by
  constructor
  · exact fun same => congrArg text (eq_of_beq_of_normal same normal too)
  · exact fun same => beq_iff.2 (congrArg (fun text => components ⟨text⟩) same)

/-- Lists of normalized paths are equal when they are written alike. -/
theorem beq_list_iff (normal : ∀ path ∈ left, path.Normal) (too : ∀ path ∈ right, path.Normal) :
    (left == right) = true ↔ left.map text = right.map text := by
  induction left generalizing right with
  | nil => cases right <;> simp
  | cons path left ih =>
    cases right with
    | nil => simp
    | cons other right =>
      obtain ⟨here, later⟩ := List.forall_mem_cons.1 normal
      obtain ⟨there, beyond⟩ := List.forall_mem_cons.1 too
      rw [List.cons_beq_cons, Bool.and_eq_true, beq_iff_text_eq here there, ih later beyond,
        List.map_cons, List.map_cons, List.cons.injEq]

end Path

namespace Classpath

variable {left right : List Path}

/-- What is hashed are the bytes of the texts, with a zero byte behind each. -/
theorem bytes_eq (paths : List Path) :
    bytes paths = ((paths.map Path.text).map Text.bytes).flatMap (· ++ [0]) := by
  simp only [bytes, Text.toList_toUTF8, List.flatMap_map]

/-- What is hashed tells the files and their order. -/
theorem bytes_eq_iff (clean : ∀ path ∈ left, path.NulFree)
    (too : ∀ path ∈ right, path.NulFree) :
    bytes left = bytes right ↔ left.map Path.text = right.map Path.text := by
  have whole {paths : List Path} (clean : ∀ path ∈ paths, path.NulFree) :
      ∀ encoded ∈ (paths.map Path.text).map Text.bytes, (0 : UInt8) ∉ encoded := by
    simp only [List.map_map, List.forall_mem_map]
    exact fun path member => mt Text.zero_mem_bytes.1 (clean path member)
  rw [bytes_eq, bytes_eq, Text.flatMap_terminated_inj (whole clean) (whole too),
    (List.map_injective_iff.2 Text.bytes_injective).eq_iff]

/-- Classpaths have one fingerprint when their files are written alike, or else by a collision. -/
theorem fingerprint_eq_iff (clean : ∀ path ∈ left, path.NulFree)
    (too : ∀ path ∈ right, path.NulFree) :
    (Classpath.mk left).fingerprint = (Classpath.mk right).fingerprint ↔
      left.map Path.text = right.map Path.text ∨ Blake3.Collide (bytes left) (bytes right) := by
  rw [fingerprint, fingerprint, Blake3.text_injective.eq_iff, Blake3.Collide,
    ← bytes_eq_iff clean too]
  constructor
  · intro same
    exact (em (bytes left = bytes right)).imp_right fun differ => ⟨differ, same⟩
  · rintro (same | ⟨-, same⟩)
    · exact congrArg Blake3.hash same
    · exact same

end Classpath

/-- A fingerprint tells the classpath. What is hashed of paths without a zero byte is the same only
if these are written alike, one by one, so that files that are not have one fingerprint only where
two inputs collide. The files of classpaths that were evaluated, wherever and however that was, are
normalized: they are equal as paths when they are written alike, and equal classpaths have one
fingerprint. -/
theorem Classpath.fingerprint_tells_files :
    (∀ left right : List Path, (∀ path ∈ left, path.NulFree) → (∀ path ∈ right, path.NulFree) →
      (bytes left = bytes right ↔ left.map Path.text = right.map Path.text) ∧
      ((Classpath.mk left).fingerprint = (Classpath.mk right).fingerprint ↔
        left.map Path.text = right.map Path.text ∨ Blake3.Collide (bytes left) (bytes right))) ∧
    ∀ (session other : Session) (resolver another : Resolver) (view seen : View)
      (here there : Classpath), session.classpath resolver view = .ok here →
        other.classpath another seen = .ok there →
      (∀ path ∈ here.files, path.normalize = path) ∧
      (∀ path ∈ here.files, ∀ twin ∈ there.files,
        (path == twin) = true ↔ path.text = twin.text) ∧
      ((here.files == there.files) = true ↔
        here.files.map Path.text = there.files.map Path.text) ∧
      ((here.files == there.files) = true → here.fingerprint = there.fingerprint) ∧
      ((∀ path ∈ here.files, path.NulFree) → (∀ path ∈ there.files, path.NulFree) →
        here.fingerprint = there.fingerprint →
          (here.files == there.files) = true ∨
            Blake3.Collide (bytes here.files) (bytes there.files)) := by
  refine ⟨fun left right clean too => ⟨bytes_eq_iff clean too, fingerprint_eq_iff clean too⟩, ?_⟩
  intro session other resolver another view seen here there comes found
  have normal := (Session.listing_of_classpath comes).normal
  have besides := (Session.listing_of_classpath found).normal
  have written := Path.beq_list_iff normal besides
  refine ⟨normal, fun path member twin among =>
    Path.beq_iff_text_eq (normal path member) (besides twin among), written, ?_, ?_⟩
  · intro equal
    rw [fingerprint, fingerprint, bytes_eq, bytes_eq, written.1 equal]
  · intro clean too same
    exact ((fingerprint_eq_iff clean too).1 same).imp_left written.2

section Witness

/-- A project in which nothing is declared. -/
def bare : Session := Session.start (.new {} .root) ⟨[], []⟩

/-- Two archives. -/
def archives : View := .files (.ofPaths [⟨"lib//own.jar"⟩, ⟨"x/../api.jar"⟩])

/-- The same archives, written in another way. -/
def respelled : View := .files (.ofPaths [⟨"./lib/own.jar"⟩, ⟨"api.jar"⟩])

/-- One file and two files are told apart, although their names put together are the same; one file
that is written in two ways is hashed in two ways, though its path is the same, unless a classpath
lists it. -/
theorem Classpath.fingerprint_tells_files_respelled :
    Classpath.bytes [⟨"ab"⟩] ≠ Classpath.bytes [⟨"a"⟩, ⟨"b"⟩] ∧
    ([⟨"lib//own.jar"⟩] == [Path.mk "lib/own.jar"]) = true ∧
    Classpath.bytes [⟨"lib//own.jar"⟩] ≠ Classpath.bytes [⟨"lib/own.jar"⟩] ∧
    ∃ here there, bare.classpath (Layout.ofSettings {}).resolve archives = .ok here ∧
      bare.classpath (Layout.ofSettings {}).resolve respelled = .ok there ∧
      here.files.map Path.text = ["lib/own.jar", "api.jar"] ∧
      here.fingerprint = there.fingerprint := by
  obtain ⟨told, evaluated⟩ := Classpath.fingerprint_tells_files
  have apart (left right : List Path) (clean : ∀ path ∈ left, path.NulFree)
      (too : ∀ path ∈ right, path.NulFree)
      (differ : left.map Path.text ≠ right.map Path.text) :
      Classpath.bytes left ≠ Classpath.bytes right := mt (told left right clean too).1.1 differ
  have texts (view : View) (found : List String)
      (comes : (fun found : Classpath => found.files.map Path.text) <$>
        bare.classpath (Layout.ofSettings {}).resolve view = .ok found) :=
    Outcome.map_eq_ok_iff.1 comes
  obtain ⟨here, comes, listed⟩ := texts archives ["lib/own.jar", "api.jar"] (by decide +kernel)
  obtain ⟨there, found, again⟩ := texts respelled ["lib/own.jar", "api.jar"] (by decide +kernel)
  obtain ⟨-, -, written, equal, -⟩ := evaluated _ _ _ _ _ _ _ _ comes found
  exact ⟨apart _ _ (by decide) (by decide) (by decide), by decide +kernel,
    apart _ _ (by decide) (by decide) (by decide), here, there, comes, found, listed,
    equal (written.2 (listed.trans again.symm))⟩

end Witness

end BuildPath
