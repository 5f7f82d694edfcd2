import StatusLine.Text.Lines

/-!
Tables with boxed cells for reports.
-/

namespace StatusLine.CommandLine

structure Table where
  title : Option String
  heading : List String
  rows : List (List String)
  deriving Repr

/-- The lines between the cells of a table: what is on the left, between two cells, on the right,
and what a cell is filled with. -/
structure Rule where
  left : Char
  between : Char
  right : Char
  filling : Char

namespace Table

def top : Rule := ⟨'┏', '┳', '┓', '━'⟩

def middle : Rule := ⟨'┡', '╇', '┩', '━'⟩

def bottom : Rule := ⟨'└', '┴', '┘', '─'⟩

def widest (lines : List (List String)) (column : Nat) : Nat :=
  (lines.map fun cells => ((cells[column]?).getD "").length).foldl max 0

def widths (table : Table) : List Nat :=
  (List.range table.heading.length).map (widest (table.heading :: table.rows))

def ruleLine (table : Table) (rule : Rule) : List Char :=
  rule.left ::
    Text.joinWith [rule.between]
      (table.widths.map fun width => List.replicate (width + 2) rule.filling) ++ [rule.right]

def cell (width : Nat) (text : String) : List Char :=
  ' ' :: text.toList ++ List.replicate (width - text.length) ' ' ++ [' ']

def line (table : Table) (border : Char) (cells : List String) : List Char :=
  border :: Text.joinWith [border] ((table.widths.zip cells).map fun (width, text) =>
    cell width text) ++ [border]

def width (table : Table) : Nat :=
  (table.widths.map (· + 3)).foldl (· + ·) 1

def titleLine (table : Table) (title : String) : List Char :=
  let room := table.width - title.length
  List.replicate (room / 2) ' ' ++ title.toList ++ List.replicate (room - room / 2) ' '

def lines (table : Table) : List (List Char) :=
  (match table.title with
    | some title => [table.titleLine title]
    | none => []) ++
  [table.ruleLine top, table.line '┃' table.heading, table.ruleLine middle] ++
  table.rows.map (table.line '│') ++ [table.ruleLine bottom]

def render (table : Table) : List Char :=
  table.lines.flatMap fun line => line ++ ['\n']

end Table

end StatusLine.CommandLine
