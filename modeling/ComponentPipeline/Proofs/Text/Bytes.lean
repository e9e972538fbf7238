import ComponentPipeline.Text.Basic

/-!
# The bytes of a text

A text is written in UTF-8.  A character of ASCII is written by one byte with its
number, and any other character by several bytes, none of which has the number of
a character of ASCII.  So a byte with such a number stands where a character
starts.
-/

namespace ComponentPipeline

namespace Text

/-- The bytes of a text in UTF-8. -/
def bytes (text : Text) : List UInt8 :=
  text.flatMap String.utf8EncodeChar

@[simp] theorem bytes_nil : bytes [] = [] := rfl

@[simp] theorem bytes_cons (char : Char) (rest : Text) :
    bytes (char :: rest) = String.utf8EncodeChar char ++ bytes rest := rfl

/-- The character with the number of a byte. -/
def byteChar (byte : UInt8) : Char :=
  Char.ofNat byte.toNat

/-- A character that is not one of ASCII. -/
def BeyondAscii (char : Char) : Prop :=
  128 ≤ char.toNat

instance (char : Char) : Decidable (BeyondAscii char) :=
  inferInstanceAs (Decidable (_ ≤ _))

theorem toNat_byteChar (byte : UInt8) : (byteChar byte).toNat = byte.toNat := by
  have small := byte.toNat_lt
  have valid : Nat.isValidChar byte.toNat := .inl (by omega)
  rw [byteChar, Char.ofNat, dif_pos valid]
  rfl

theorem utf8EncodeChar_of_ascii {char : Char} (ascii : ¬BeyondAscii char) :
    ∃ byte, String.utf8EncodeChar char = [byte] ∧ byteChar byte = char := by
  unfold BeyondAscii at ascii
  refine ⟨UInt8.ofNat char.toNat, ?_, ?_⟩
  · have small : char.toNat ≤ 127 := by omega
    exact if_pos small
  · have same : (byteChar (UInt8.ofNat char.toNat)).toNat = char.toNat := by
      rw [toNat_byteChar, UInt8.toNat_ofNat']
      omega
    exact Char.ext (UInt32.toNat_inj.mp same)

/-- The bytes of a character beyond ASCII are beyond ASCII themselves. -/
theorem beyondAscii_of_mem_utf8EncodeChar
    {char : Char}
    (beyond : BeyondAscii char)
    {byte : UInt8}
    (member : byte ∈ String.utf8EncodeChar char) :
    BeyondAscii (byteChar byte) := by
  unfold BeyondAscii at beyond ⊢
  have large : ¬char.val.toNat ≤ 127 := by
    have same : char.toNat = char.val.toNat := rfl
    omega
  rw [toNat_byteChar]
  simp only [String.utf8EncodeChar, large, if_false] at member
  split at member
  · simp only [List.mem_cons, List.not_mem_nil, or_false] at member
    rcases member with rfl | rfl <;> rw [UInt8.toNat_ofNat'] <;> omega
  · split at member
    · simp only [List.mem_cons, List.not_mem_nil, or_false] at member
      rcases member with rfl | rfl | rfl <;> rw [UInt8.toNat_ofNat'] <;> omega
    · simp only [List.mem_cons, List.not_mem_nil, or_false] at member
      rcases member with rfl | rfl | rfl | rfl <;> rw [UInt8.toNat_ofNat'] <;> omega

theorem BeyondAscii.ne
    {char : Char}
    (beyond : BeyondAscii char)
    (other : Char)
    (ascii : other.toNat < 128) :
    char ≠ other := by
  rintro rfl
  exact absurd ascii (Nat.not_lt_of_le beyond)

/-! ## Single bytes -/

theorem bytes_append (first second : Text) :
    bytes (first ++ second) = bytes first ++ bytes second :=
  List.flatMap_append

theorem length_bytes (text : Text) : (bytes text).length = size text := by
  induction text with
  | nil => rfl
  | cons char rest ih =>
      rw [bytes_cons, List.length_append, ih, String.length_utf8EncodeChar, size_cons]

theorem utf8Size_of_ascii {char : Char} (ascii : ¬BeyondAscii char) : char.utf8Size = 1 := by
  obtain ⟨byte, written, -⟩ := utf8EncodeChar_of_ascii ascii
  rw [← String.length_utf8EncodeChar, written, List.length_singleton]

/-- The byte at an offset, as the character with its number. -/
def byteAt? (offset : Nat) (text : Text) : Option Char :=
  (bytes text)[offset]?.map byteChar

theorem byteAt?_eq_none {text : Text} {offset : Nat} (behind : size text ≤ offset) :
    byteAt? offset text = none := by
  rw [byteAt?, List.getElem?_eq_none (by rwa [length_bytes]), Option.map_none]

theorem lt_size_of_byteAt? {text : Text} {offset : Nat} {byte : Char}
    (found : byteAt? offset text = some byte) :
    offset < size text := by
  refine Nat.lt_of_not_le fun behind => ?_
  rw [byteAt?_eq_none behind] at found
  cases found

/-- The bytes of what stands behind a text are counted from its end. -/
theorem byteAt?_append (before rest : Text) (offset : Nat) :
    byteAt? (size before + offset) (before ++ rest) = byteAt? offset rest := by
  rw [byteAt?, bytes_append, ← length_bytes, List.getElem?_append_right (Nat.le_add_right _ _),
    Nat.add_sub_cancel_left, byteAt?]

/-- The bytes of a character come first in a text that it starts. -/
theorem byteAt?_cons {char : Char} {offset : Nat} (inside : offset < char.utf8Size) (rest : Text) :
    byteAt? offset (char :: rest) = (String.utf8EncodeChar char)[offset]?.map byteChar := by
  rw [byteAt?, bytes_cons, List.getElem?_append_left (by rwa [String.length_utf8EncodeChar])]

/-- A character of ASCII is written by its own number. -/
theorem byteAt?_of_ascii
    {char : Char}
    (ascii : ¬BeyondAscii char)
    (before rest : Text) :
    byteAt? (size before) (before ++ char :: rest) = some char := by
  obtain ⟨byte, written, same⟩ := utf8EncodeChar_of_ascii ascii
  have first : byteAt? (size before + 0) (before ++ char :: rest) = byteAt? 0 (char :: rest) :=
    byteAt?_append before (char :: rest) 0
  rw [Nat.add_zero, byteAt?_cons (Char.utf8Size_pos char), written] at first
  rw [first, ← same]
  rfl

/-- A character beyond ASCII is written by bytes beyond ASCII. -/
theorem exists_byteAt?_of_beyondAscii
    {char : Char}
    (beyond : BeyondAscii char)
    {offset : Nat}
    (inside : offset < char.utf8Size)
    (before rest : Text) :
    ∃ byte, byteAt? (size before + offset) (before ++ char :: rest) = some byte ∧
      BeyondAscii byte := by
  rw [← String.length_utf8EncodeChar] at inside
  refine ⟨byteChar (String.utf8EncodeChar char)[offset], ?_,
    beyondAscii_of_mem_utf8EncodeChar beyond (List.getElem_mem inside)⟩
  rw [byteAt?_append, byteAt?_cons (by rwa [← String.length_utf8EncodeChar]),
    List.getElem?_eq_getElem inside, Option.map_some]

/-- The last byte of a character is the number of a character of ASCII only if it is the
whole character. -/
theorem byteAt?_last_eq_iff
    {char other : Char}
    (ascii : ¬BeyondAscii other)
    (before rest : Text) :
    byteAt? (size (before ++ [char]) - 1) (before ++ [char] ++ rest) = some other ↔
      char = other := by
  have positive := char.utf8Size_pos
  have last : size (before ++ [char]) - 1 = size before + (char.utf8Size - 1) := by
    rw [size_append, size_cons, size_nil]
    omega
  rw [last, List.append_assoc, List.singleton_append]
  by_cases beyond : BeyondAscii char
  · obtain ⟨byte, found, byteBeyond⟩ :=
      exists_byteAt?_of_beyondAscii beyond (by omega : char.utf8Size - 1 < _) before rest
    rw [found, Option.some.injEq]
    constructor
    · rintro rfl
      exact absurd byteBeyond ascii
    · rintro rfl
      exact absurd beyond ascii
  · rw [utf8Size_of_ascii beyond, Nat.sub_self, Nat.add_zero, byteAt?_of_ascii beyond,
      Option.some.injEq]

end Text
end ComponentPipeline
