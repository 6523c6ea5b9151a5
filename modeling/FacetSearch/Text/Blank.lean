import FacetSearch.Text.Bytes

/-!
Blanks, and the words between them. Blanks are the characters of the Unicode property `White_Space`.
-/

set_option autoImplicit false

namespace FacetSearch.Text

/-- White space of every script. -/
def isBlank (c : Char) : Bool :=
  (0x09 ≤ c.toNat && c.toNat ≤ 0x0D) || (0x2000 ≤ c.toNat && c.toNat ≤ 0x200A)
    || [0x20, 0x85, 0xA0, 0x1680, 0x2028, 0x2029, 0x202F, 0x205F, 0x3000].contains c.toNat

def trimStart (text : List Char) : List Char := text.dropWhile isBlank

def trimEnd (text : List Char) : List Char := (text.reverse.dropWhile isBlank).reverse

def trim (text : List Char) : List Char := trimEnd (trimStart text)

def allBlank (text : List Char) : Bool := text.all isBlank

theorem length_dropWhile_le {α : Type} (keep : α → Bool) (list : List α) :
    (list.dropWhile keep).length ≤ list.length :=
  (List.dropWhile_sublist keep).length_le

/-- The maximal runs of kept characters, each with the offset of its first character. -/
def runsAt (keep : Char → Bool) (offset : Nat) (text : List Char) : List (Nat × List Char) :=
  match text with
  | [] => []
  | c :: rest =>
    if keep c then
      let run := c :: rest.takeWhile keep
      (offset, run) :: runsAt keep (offset + byteLength run) (rest.dropWhile keep)
    else
      runsAt keep (offset + c.utf8Size) rest
termination_by text.length
decreasing_by
  · have shorter := length_dropWhile_le keep rest
    simp only [List.length_cons]
    omega
  · simp only [List.length_cons]
    omega

def runs (keep : Char → Bool) (text : List Char) : List (List Char) :=
  (runsAt keep 0 text).map Prod.snd

/-- The words of a text: what stands between blanks. -/
def words (text : List Char) : List (List Char) := runs (!isBlank ·) text

end FacetSearch.Text
