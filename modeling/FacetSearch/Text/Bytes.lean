/-!
Byte offsets. A text is a list of characters; callers point into it by counting bytes of UTF-8.

`cut` never splits a character (`cut_append`), so every offset that this library computes from the
length of a part lies between two characters.
-/

set_option autoImplicit false

namespace FacetSearch.Text

/-- Bytes that a text takes in UTF-8. -/
def byteLength : List Char → Nat
  | [] => 0
  | c :: rest => c.utf8Size + byteLength rest

@[simp] theorem byteLength_nil : byteLength [] = 0 := rfl

@[simp] theorem byteLength_cons (c : Char) (rest : List Char) :
    byteLength (c :: rest) = c.utf8Size + byteLength rest := rfl

@[simp] theorem byteLength_append (first second : List Char) :
    byteLength (first ++ second) = byteLength first + byteLength second := by
  induction first with
  | nil => simp
  | cons c rest ih => simp [ih, Nat.add_assoc]

theorem byteLength_eq_size (text : List Char) : byteLength text = text.utf8Encode.size := by
  induction text with
  | nil => simp
  | cons c rest ih =>
    rw [List.utf8Encode_cons, ByteArray.size_append, byteLength_cons, ih, List.utf8Encode_singleton,
      List.size_toByteArray, String.length_utf8EncodeChar]

@[simp] theorem byteLength_toList (text : String) : byteLength text.toList = text.utf8ByteSize := by
  rw [byteLength_eq_size, String.utf8Encode_toList, String.size_toByteArray]

/-- Cuts a text at a byte offset. An offset inside a character cuts before that character, and one
past the end cuts at the end. -/
def cut (offset : Nat) : List Char → List Char × List Char
  | [] => ([], [])
  | c :: rest =>
    if c.utf8Size ≤ offset then
      let parts := cut (offset - c.utf8Size) rest
      (c :: parts.1, parts.2)
    else
      ([], c :: rest)

@[simp] theorem cut_append (offset : Nat) (text : List Char) :
    (cut offset text).1 ++ (cut offset text).2 = text := by
  induction text generalizing offset with
  | nil => rfl
  | cons c rest ih =>
    by_cases fits : c.utf8Size ≤ offset
    · simp [cut, fits, ih]
    · simp [cut, fits]

theorem byteLength_cut_le (offset : Nat) (text : List Char) :
    byteLength (cut offset text).1 ≤ offset := by
  induction text generalizing offset with
  | nil => simp [cut]
  | cons c rest ih =>
    by_cases fits : c.utf8Size ≤ offset
    · have shorter := ih (offset - c.utf8Size)
      simp only [cut, fits, ↓reduceIte, byteLength_cons]
      omega
    · simp [cut, fits]

/-- The last character boundary that is not past the offset. -/
def floor (text : List Char) (offset : Nat) : Nat := byteLength (cut offset text).1

def isBoundary (text : List Char) (offset : Nat) : Bool := floor text offset = offset

/-- The text between two offsets, each moved back to a character boundary. -/
def slice (text : List Char) (start stop : Nat) : List Char := (cut start (cut stop text).1).2

/-- The text between two offsets, if they are in order and on character boundaries. -/
def slice? (text : List Char) (start stop : Nat) : Option (List Char) :=
  if start ≤ stop && isBoundary text start && isBoundary text stop then
    some (slice text start stop)
  else
    none

end FacetSearch.Text
