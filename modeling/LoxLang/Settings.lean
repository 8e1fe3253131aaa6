import LoxLang.Machine
import LoxLang.Parser

/-! The user's settings, and the places that they name. -/
namespace LoxLang

structure Settings where
  maxDepth : Int := defaultParseDepth
  maxEvalDepth : Int := defaultEvalDepth
  color : Bool := true
  history : String := "~/.lox_history"
  prompt : String := "> "
  showTokens : Bool := false
deriving DecidableEq, Inhabited, Repr

namespace Settings

/-- The file that settings are read from unless another one is named. -/
def defaultFile : String := "lox.yaml"

def zero : Settings :=
  { maxDepth := 0, maxEvalDepth := 0, color := false, history := "", prompt := "" }

def parseLimit (s : Settings) : Nat :=
  positiveOr defaultParseDepth (some s.maxDepth)

def evalLimit (s : Settings) : Nat :=
  positiveOr defaultEvalDepth (some s.maxEvalDepth)

/-- One more component of a path, where `stack` holds those before it, the last one first. -/
def cleanStep (rooted : Bool) (stack : List String) (component : String) : List String :=
  if component = "" ∨ component = "." then stack
  else if component = ".." then
    match stack with
    | [] => if rooted then [] else [".."]
    | top :: rest => if top = ".." then ".." :: stack else rest
  else component :: stack

/-- The shortest path that means the same, told from the text alone: no empty or `.` components, and
`..` only at the front. -/
def cleanPath (path : String) : String :=
  let rooted := path.startsWith "/"
  let body := "/".intercalate ((path.splitOn "/").foldl (cleanStep rooted) []).reverse
  if rooted then "/" ++ body else if body = "" then "." else body

/-- Where the history is kept: `~/` at the front stands for the home directory. Without a home there
is no such place. -/
def historyPath (s : Settings) (home : Option String) : String :=
  if s.history.startsWith "~/" then
    match home with
    | none | some "" => ""
    | some home => cleanPath (home ++ "/" ++ String.ofList (s.history.toList.drop 2))
  else s.history

end Settings
end LoxLang
