import LoxLang.Command.App
import LoxLang.Command.Span
import LoxLang.Text.Lines
import Std.Time.Format

/-! The command line: the program in the surroundings of a process. -/
namespace LoxLang

def fileCause : IO.Error → FileCause
  | .noFileOrDirectory .. => .notFound
  | .inappropriateType _ _ details =>
    if details.toLower = "is a directory" then .isDirectory else .notDirectory
  | e => .other (toString e)

/-- Reads a file. That it is a directory shows only when it is read. -/
def readPath (path : String) : IO (Except FileError (List UInt8)) := do
  try
    let content ← IO.FS.readBinFile path
    return .ok content.toList
  catch e =>
    let cause := fileCause e
    let attempt := if cause = .isDirectory then "read" else "open"
    return .error { attempt, path, cause }

def writePath (path : String) (content : List UInt8) : IO (Except FileError Unit) := do
  try
    IO.FS.writeBinFile path ⟨content.toArray⟩
    return .ok ()
  catch e => return .error { attempt := "open", path, cause := fileCause e }

def pathExists (path : String) : IO Bool := do
  try
    let _ ← IO.FS.realPath path
    return true
  catch _ => return false

def twoDigits (n : Int) : String :=
  if n < 10 then s!"0{n}" else toString n

def clockText : IO String := do
  let now ← Std.Time.PlainDateTime.now
  let micros := toString (now.nanosecond.val / 1000)
  let zeros := String.ofList (List.replicate (6 - micros.length) '0')
  return s!"{twoDigits now.hour.val}:{twoDigits now.minute.val}:{twoDigits now.second.val}.{zeros}{micros}"

def timedValue (value : Unit → α) : IO (α × String) := do
  let start ← IO.monoNanosNow
  let found ← IO.lazyPure value
  let stop ← IO.monoNanosNow
  return (found, spanText (stop - start))

def feedPieces (step : σ → List UInt8 → IO (σ × Bool)) : List Text.InputLine → σ → IO (σ × Bool)
  | [], s => return (s, true)
  | piece :: rest, s => do
    match ← step s piece.bytes with
    | (s, true) => feedPieces step rest s
    | (s, false) => return (s, false)

/-- Asks for lines and hands them to a step until that says to stop or the input ends. -/
partial def feedLines (prompt : String) (step : σ → List UInt8 → IO (σ × Bool)) (s : σ) :
    IO (σ × Bool) := do
  let output ← IO.getStdout
  output.putStr prompt
  output.flush
  let line ← (← IO.getStdin).getLine
  if line.isEmpty then return (s, true)
  match ← feedPieces step (Text.inputLines line.toUTF8.toList) s with
  | (s, true) => feedLines prompt step s
  | (s, false) => return (s, false)

instance : Console IO where
  print := IO.print
  complain := IO.eprint
  readFile := readPath
  writeFile := writePath
  fileExists := pathExists
  home := IO.getEnv "HOME"
  showsColor := do
    let plain ← IO.getEnv "NO_COLOR"
    let terminal ← IO.getEnv "TERM"
    return plain.getD "" = "" && terminal != some "dumb" && (← (← IO.getStdout).isTty)
  timeOfDay := clockText
  timed := timedValue
  eachLine := feedLines

end LoxLang

def main (arguments : List String) : IO UInt32 := do
  let status : Int ← LoxLang.lox arguments
  return status.toNat.toUInt32
