/-! Lines whose cells are aligned in columns. A cell is padded to the width of the widest one in the same
column, where a column goes over lines that follow each other and all have the cell. -/
namespace LoxLang.Schema.Layout

inductive Mark where
  | text (text : String)
  /-- A comment, with blanks to what stands before it and, if `apart`, to what comes after. -/
  | remark (text : String) (apart : Bool)
  | blank
  /-- The end of a cell. -/
  | cell
  | newline
  /-- A line break that no column goes over. -/
  | divide
  | indent
  | unindent
deriving DecidableEq, Inhabited, Repr

namespace Mark

def isBreak : Mark → Bool
  | newline | divide => true
  | _ => false

/-- The number of bytes on a line. -/
def width : Mark → Nat
  | .text written => written.utf8ByteSize
  | remark written apart => written.utf8ByteSize + (if apart then 2 else 1)
  | blank | cell => 1
  | _ => 0

end Mark

/-- The marks stand on one line, and that is at most `limit` bytes wide. -/
def fits (limit : Nat) (marks : List Mark) : Bool :=
  !marks.any Mark.isBreak && marks.foldl (fun width mark => width + mark.width) 0 ≤ limit

/-- A line: how far it is set in, its cells, and the text after the last of them. -/
structure Line where
  depth : Nat
  cells : List String := []
  text : String := ""
  /-- No column goes on in the next line. -/
  divides : Bool := false
deriving DecidableEq, Inhabited, Repr

namespace Line

def add (line : Line) (text : String) : Line :=
  { line with text := line.text ++ text }

/-- Puts a comment at the end of the line, after a blank unless a cell begins there. -/
def addRemark (line : Line) (text : String) (apart : Bool) : Line :=
  let front := if line.text == "" || line.text.endsWith " " then "" else " "
  line.add (front ++ text ++ (if apart then " " else ""))

def endCell (line : Line) : Line :=
  { line with cells := line.cells ++ [line.text], text := "" }

def render (line : Line) : String :=
  let text := String.join (line.cells ++ [line.text])
  let trimmed := (text.toList.reverse.dropWhile (· == ' ')).reverse
  if trimmed.isEmpty then "" else String.ofList (List.replicate line.depth '\t' ++ trimmed)

end Line

/-- The lines of a layout, where `line` is the one that has begun. How far a line is set in is decided
where it begins. -/
def linesOf (depth : Nat) (line : Option Line) : List Mark → List Line
  | [] => line.toList
  | .text text :: rest => linesOf depth (some ((line.getD { depth }).add text)) rest
  | .remark text apart :: rest => linesOf depth (some ((line.getD { depth }).addRemark text apart)) rest
  | .blank :: rest => linesOf depth (some ((line.getD { depth }).add " ")) rest
  | .cell :: rest => linesOf depth (some (line.getD { depth }).endCell) rest
  | .newline :: .unindent :: rest =>
    { line.getD { depth } with divides := true } :: linesOf (depth - 1) none rest
  | .newline :: rest => line.getD { depth } :: linesOf depth none rest
  | .divide :: rest => { line.getD { depth } with divides := true } :: linesOf depth none rest
  | .indent :: rest => linesOf (depth + 1) line rest
  | .unindent :: rest => linesOf (depth - 1) line rest

/-- Two lines after each other share their column with the given number, or the lack of it. -/
def sharesColumn (column : Nat) (a b : Line) : Bool :=
  !a.divides && a.depth == b.depth && decide (column < a.cells.length) == decide (column < b.cells.length)

/-- Pads the cells of a column to one width. A column of empty cells vanishes. -/
def padCells (column : Nat) (lines : List Line) : List Line :=
  let widest := (lines.map fun line => ((line.cells[column]?).getD "").length).foldl max 0
  let width := if widest = 0 then 0 else widest + 1
  lines.map fun line =>
    { line with cells := line.cells.modify column fun cell =>
        cell ++ String.ofList (List.replicate (width - cell.length) ' ') }

def alignColumn (lines : List Line) (column : Nat) : List Line :=
  ((lines.splitBy (sharesColumn column)).map (padCells column)).flatten

def align (lines : List Line) : List Line :=
  let columns := (lines.map (·.cells.length)).foldl max 0
  (List.range columns).foldl alignColumn lines

def render (marks : List Mark) : String :=
  String.join ((align (linesOf 0 none marks)).map fun line => line.render ++ "\n")

end LoxLang.Schema.Layout
