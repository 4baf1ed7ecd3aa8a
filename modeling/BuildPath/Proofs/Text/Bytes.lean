import Mathlib.Data.List.Basic
import Mathlib.Data.String.Basic
import Mathlib.Tactic.SplitIfs

/-!
# The bytes of a text

Texts are told apart by their bytes and sorted as these are (`Text.bytes_lt_of_lt`). A zero byte
encodes one character and is part of no other (`Text.zero_mem_bytes`).
-/

namespace BuildPath.Text

variable {text : String}

/-- The bytes of a text. -/
def bytes (text : String) : List UInt8 := text.toUTF8.data.toList

/-- The bytes of a text are those of its characters. -/
theorem bytes_eq (text : String) : bytes text = text.toList.flatMap String.utf8EncodeChar := by
  rw [bytes, String.toUTF8, ← String.ofList_toList (s := text), String.toByteArray_ofList,
    List.utf8Encode, List.toList_data_toByteArray, String.toList_ofList]

/-- There are no characters beyond the planes of Unicode. -/
theorem toNat_val_lt (character : Char) : character.val.toNat < 0x110000 := by
  have valid := character.valid
  simp only [UInt32.isValidChar, Nat.isValidChar] at valid
  omega

/-- The bytes of a smaller character are smaller, whatever follows. -/
theorem utf8EncodeChar_append_lt {smaller larger : Char} (less : smaller < larger)
    (following others : List UInt8) :
    String.utf8EncodeChar smaller ++ following < String.utf8EncodeChar larger ++ others := by
  have order : smaller.val.toNat < larger.val.toNat := less
  have limit := toNat_val_lt larger
  unfold String.utf8EncodeChar
  generalize smaller.val.toNat = low at *
  generalize larger.val.toNat = high at *
  have quotient (divisor : Nat) : low / divisor ≤ high / divisor := Nat.div_le_div_right order.le
  dsimp only
  split_ifs <;>
    simp only [List.cons_append, List.nil_append, List.cons_lt_cons_iff, UInt8.lt_iff_toNat_lt,
      ← UInt8.toNat_inj, UInt8.toNat_ofNat'] <;>
    simp (disch := omega) only [Nat.mod_eq_of_lt (b := 2 ^ 8)] <;>
    rcases (quotient 64).lt_or_eq with apart | same <;>
    rcases (quotient 4096).lt_or_eq with apart | same <;>
    rcases (quotient 262144).lt_or_eq with apart | same <;> omega

/-- What follows the same bytes decides which are smaller. -/
theorem append_lt_append (first : List UInt8) {following others : List UInt8}
    (less : following < others) : first ++ following < first ++ others := by
  induction first with
  | nil => exact less
  | cons byte first ih => exact List.cons_lt_cons_iff.2 (.inr ⟨rfl, ih⟩)

/-- Smaller characters in a row have smaller bytes. -/
theorem flatMap_utf8EncodeChar_lt {smaller larger : List Char} (less : smaller < larger) :
    smaller.flatMap String.utf8EncodeChar < larger.flatMap String.utf8EncodeChar := by
  induction smaller generalizing larger with
  | nil =>
    cases larger with
    | nil => exact absurd less (List.lt_irrefl [])
    | cons first rest =>
      rw [List.flatMap_nil, List.flatMap_cons]
      unfold String.utf8EncodeChar
      dsimp only
      split_ifs <;> exact List.nil_lt_cons _ _
  | cons character smaller ih =>
    cases larger with
    | nil => contradiction
    | cons first rest =>
      rw [List.flatMap_cons, List.flatMap_cons]
      rcases List.cons_lt_cons_iff.1 less with apart | ⟨rfl, below⟩
      · exact utf8EncodeChar_append_lt apart _ _
      · exact append_lt_append _ (ih below)

/-- A smaller text has smaller bytes. -/
theorem bytes_lt_of_lt {smaller larger : String} (less : smaller < larger) :
    bytes smaller < bytes larger := by
  rw [bytes_eq, bytes_eq]
  exact flatMap_utf8EncodeChar_lt (String.lt_iff_toList_lt.1 less)

/-- Reading an array of bytes from a position on adds what is there. -/
theorem toList_loop_eq (array : ByteArray) (position : Nat) (read : List UInt8) :
    ByteArray.toList.loop array position read =
      read.reverse ++ array.data.toList.drop position := by
  fun_induction ByteArray.toList.loop array position read with
  | case1 position read inside ih =>
    have inside : position < array.data.toList.length := inside
    rw [ih, List.reverse_cons, List.append_assoc, List.singleton_append,
      List.drop_eq_getElem_cons inside, ByteArray.get!, getElem!_pos array.data position inside,
      Array.getElem_toList]
  | case2 position read outside =>
    have outside : array.data.toList.length ≤ position := not_lt.1 outside
    rw [List.drop_eq_nil_of_le outside, List.append_nil]

/-- The bytes of a text, as a list that is read from its array. -/
theorem toList_toUTF8 (text : String) : text.toUTF8.toList = bytes text :=
  toList_loop_eq text.toUTF8 0 []

/-- A text is told apart by its bytes. -/
theorem bytes_injective : Function.Injective bytes := fun _ _ same =>
  String.toByteArray_inj.1 (ByteArray.ext (Array.toList_inj.1 same))

/-- A zero byte is the encoding of the first character, and in no other one. -/
theorem zero_mem_utf8EncodeChar {character : Char} :
    0 ∈ String.utf8EncodeChar character ↔ character = '\x00' := by
  constructor
  · intro member
    have limit := toNat_val_lt character
    have none : character.val.toNat = 0 := by
      unfold String.utf8EncodeChar at member
      generalize character.val.toNat = code at *
      dsimp only at member
      split_ifs at member <;>
        simp only [List.mem_cons, List.not_mem_nil, or_false, ← UInt8.toNat_inj,
          UInt8.toNat_ofNat', UInt8.toNat_zero] at member <;> omega
    exact Char.ext (UInt32.toNat_inj.1 none)
  · rintro rfl
    decide

/-- A text has a zero byte when it has the character that is encoded as one. -/
theorem zero_mem_bytes : 0 ∈ bytes text ↔ '\x00' ∈ text.toList := by
  rw [bytes_eq, List.mem_flatMap]
  simp only [zero_mem_utf8EncodeChar, exists_eq_right]

end BuildPath.Text
