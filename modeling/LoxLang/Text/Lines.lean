import LoxLang.Text.Utf8

/-! Lines of texts. Input is cut into lines: a line ends with a line feed, before which a carriage return is
dropped, or with the input, and one that is longer than the buffer comes in several pieces. -/
namespace LoxLang.Text

def lineBuffer : Nat := 4096

/-- A line, or a piece of one that has filled the buffer. -/
structure InputLine where
  bytes : List UInt8
  full : Bool
deriving DecidableEq, Inhabited, Repr

def lineFeed : UInt8 := 10
def carriageReturn : UInt8 := 13

/-- A line that was ended by a line feed, given backwards. -/
def endedLine : List UInt8 → List UInt8
  | [] => []
  | b :: rest => (if b = carriageReturn then rest else b :: rest).reverse

/-- The lines of the input, where `held` are the bytes of the line so far, backwards. A carriage
return at the end of a full buffer is left for the next piece, as it may belong to the line's end. -/
def linesFrom (held : List UInt8) : List UInt8 → List InputLine
  | [] => if held.isEmpty then [] else [{ bytes := held.reverse, full := false }]
  | b :: rest =>
    if b = lineFeed then { bytes := endedLine held, full := false } :: linesFrom [] rest
    else if held.length + 1 < lineBuffer then linesFrom (b :: held) rest
    else if b = carriageReturn then { bytes := held.reverse, full := true } :: linesFrom [b] rest
    else { bytes := (b :: held).reverse, full := true } :: linesFrom [] rest

def inputLines (input : List UInt8) : List InputLine :=
  linesFrom [] input

/-- The bytes are the encoding of some text. -/
def isUtf8 (bytes : List UInt8) : Bool :=
  (String.ofList (decodeUtf8 bytes)).toUTF8.toList == bytes

/-- Each line with a line feed after it. -/
def ofLines (lines : List String) : String :=
  String.join (lines.map (· ++ "\n"))

end LoxLang.Text
