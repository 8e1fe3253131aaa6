/-! What a command needs of its surroundings: two output streams, files, lines of input, a clock. -/
namespace LoxLang

inductive FileCause where
  | notFound
  | isDirectory
  | notDirectory
  /-- Anything else, as the surroundings tell it. -/
  | other (text : String)
deriving DecidableEq, Inhabited, Repr

/-- Why a file could not be used: what was tried, on which path, and what went wrong. -/
structure FileError where
  attempt : String
  path : String
  cause : FileCause
deriving DecidableEq, Inhabited, Repr

def FileCause.message : FileCause → String
  | notFound => "no such file or directory"
  | isDirectory => "is a directory"
  | notDirectory => "not a directory"
  | other text => text

def FileError.message (e : FileError) : String :=
  s!"{e.attempt} {e.path}: {e.cause.message}"

class Console (m : Type → Type) where
  /-- Writes to the output. -/
  print : String → m Unit
  /-- Writes to the errors. -/
  complain : String → m Unit
  readFile : String → m (Except FileError (List UInt8))
  writeFile : String → List UInt8 → m (Except FileError Unit)
  fileExists : String → m Bool
  home : m (Option String)
  /-- The output can show colours. -/
  showsColor : m Bool
  timeOfDay : m String
  /-- A value, and how long it took to find. -/
  timed : {α : Type} → (Unit → α) → m (α × String)
  /-- Asks for lines, each with the prompt, and hands them to a step until that says to stop or the
  input ends. Says whether the input has ended. -/
  eachLine : {σ : Type} → String → (σ → List UInt8 → m (σ × Bool)) → σ → m (σ × Bool)

end LoxLang
