import FacetSearch.Text.Columns

/-!
Tables in box-drawing characters. A column is as wide as its widest line; cells may have several
lines, and every line stands between single blanks.
-/

set_option autoImplicit false

namespace FacetSearch.Terminal

/-- The characters of a horizontal rule: its left end, line, crossing and right end. -/
structure Rule where
  left : Char
  line : Char
  crossing : Char
  right : Char

def topRule : Rule := ⟨'┌', '─', '┬', '┐'⟩

def headerRule : Rule := ⟨'╞', '═', '╪', '╡'⟩

def bottomRule : Rule := ⟨'└', '─', '┴', '┘'⟩

def Rule.write (rule : Rule) (widths : List Nat) : List Char :=
  let segments := widths.map fun width => List.replicate (width + 2) rule.line
  rule.left :: [rule.crossing].intercalate segments ++ [rule.right]

def cellLines : List Char → List (List Char)
  | [] => [[]]
  | c :: rest =>
    let lines := cellLines rest
    if c = '\n' then [] :: lines else (c :: lines.headD []) :: lines.tail

def cellWidth (cell : List Char) : Nat :=
  (cellLines cell).foldl (fun width line => max width (Text.columns line)) 0

/-- A line of a cell, filled up to a width. -/
def writeCellLine (width : Nat) (line : List Char) : List Char :=
  ' ' :: line ++ List.replicate (width - Text.columns line) ' ' ++ [' ']

def writeRowLine (widths : List Nat) (cells : List (List (List Char))) (index : Nat) : List Char :=
  let parts := (widths.zip cells).map fun (width, lines) =>
    writeCellLine width (lines[index]?.getD [])
  '│' :: ['┆'].intercalate parts ++ ['│']

def writeRow (widths : List Nat) (row : List (List Char)) : List (List Char) :=
  let cells := row.map cellLines
  let height := cells.foldl (fun height lines => max height lines.length) 1
  (List.range height).map (writeRowLine widths cells)

def columnWidths (header : List (List Char)) (rows : List (List (List Char))) : List Nat :=
  rows.foldl (fun widths row =>
      (widths.zip row).map fun (width, cell) => max width (cellWidth cell))
    (header.map cellWidth)

/-- A table, without a line end after its last line. -/
def table (header : List String) (rows : List (List String)) : String :=
  let header := header.map String.toList
  let rows := rows.map (List.map String.toList)
  let widths := columnWidths header rows
  let lines := topRule.write widths :: writeRow widths header
    ++ headerRule.write widths :: rows.flatMap (writeRow widths) ++ [bottomRule.write widths]
  "\n".intercalate (lines.map String.ofList)

end FacetSearch.Terminal
