import LoxLang.Console.FileTree
import LoxLang.Text.Lines

/-! Surroundings held in memory: what was written is kept, the input is given, and the clock shows
fixed texts. -/
namespace LoxLang

structure Surroundings where
  files : FileTree := {}
  /-- The directory that paths start from. -/
  directory : Place := []
  home : Option String := none
  input : List UInt8 := []
  showsColor : Bool := false
  timeOfDay : String := ""
  span : String := ""
  out : String := ""
  err : String := ""
deriving Inhabited

namespace Surroundings

def print (text : String) (w : Surroundings) : Surroundings :=
  { w with out := w.out ++ text }

def complain (text : String) (w : Surroundings) : Surroundings :=
  { w with err := w.err ++ text }

/-- Hands lines to a step until that says to stop. -/
def feed (prompt : String) (step : σ → List UInt8 → StateM Surroundings (σ × Bool)) :
    List Text.InputLine → σ → StateM Surroundings (σ × Bool)
  | [], s => do
    modify (print prompt)
    return (s, true)
  | line :: rest, s => do
    modify (print prompt)
    match ← step s line.bytes with
    | (s, true) => feed prompt step rest s
    | (s, false) => return (s, false)

end Surroundings

instance : Console (StateM Surroundings) where
  print text := modify (Surroundings.print text)
  complain text := modify (Surroundings.complain text)
  readFile path := do
    let w ← get
    return w.files.read w.directory path
  writeFile path content := do
    let w ← get
    match w.files.write w.directory path content with
    | .ok files =>
      set { w with files }
      return .ok ()
    | .error e => return .error e
  fileExists path := do
    let w ← get
    return w.files.isPresent w.directory path
  home := return (← get).home
  showsColor := return (← get).showsColor
  timeOfDay := return (← get).timeOfDay
  timed value := return (value (), (← get).span)
  eachLine prompt step s := do
    Surroundings.feed prompt step (Text.inputLines (← get).input) s

end LoxLang
