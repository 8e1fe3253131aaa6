import LoxLang.Machine.Evaluate
import LoxLang.Report
import LoxLang.Settings

/-! Running sources: a whole script, and the lines of an interactive session one by one. Both say
what is shown on the output and among the errors, and neither runs anything of a source that is
lexically or syntactically wrong. -/
namespace LoxLang

/-- How often the loops of a run may go round. Nothing that ends takes as long. -/
def loopRounds : Nat := Nat.pow 2 62

/-- The exit status of a run that came upon a tree with a hole. No source gives such a tree. -/
def exitFault : Int := 2

/-- What is shown by a command, and why it failed if it did. -/
structure Outcome where
  out : String := ""
  err : String := ""
  failure : Option Failure := none
deriving DecidableEq, Inhabited, Repr

def reportAll (coloured : Bool) (ds : List Diagnostic) : String :=
  (report? coloured (.list ds)).getD ""

def Stop.report (coloured : Bool) : Stop → String
  | .error e => reportAll coloured [e.diagnostic]
  | .fault f => f.message ++ "\n"
  | .exhausted => ""

def Stop.failure : Stop → Failure
  | .error _ => .exit "" exitSoftware
  | .fault _ | .exhausted => .exit "" exitFault

def Parsed.run (coloured : Bool) (rounds : Nat) (m : Machine) (parsed : Parsed) :
    Machine × Outcome :=
  match parsed.diagnostics with
  | [] =>
    match runProgram rounds parsed.program m.withoutOutput with
    | .ok _ m => (m, { out := m.printed })
    | .error stop m =>
      (m, { out := m.printed, err := stop.report coloured, failure := some stop.failure })
  | ds => (m, { err := reportAll coloured ds, failure := some (.exit "" exitDataError) })

def runScript (s : Settings) (coloured : Bool) (rounds : Nat) (m : Machine) (file : String)
    (source : List Char) : Machine × Outcome :=
  (parse s.parseLimit file source).run coloured rounds m

def sessionFile : String := "<repl>"

def shownTokens (line : List Char) : String :=
  String.join ((scan sessionFile line).1.map fun t => t.text ++ "\n")

/-- The value of a line as it is echoed; a line whose last statement gives no value has no echo. -/
def echo : Value → String
  | .void => ""
  | v => v.text?.getD "" ++ "\n"

def runLine (s : Settings) (coloured : Bool) (rounds : Nat) (m : Machine) (line : List Char) :
    Machine × Outcome :=
  let tokens := if s.showTokens then shownTokens line else ""
  let parsed := parse s.parseLimit sessionFile line
  match parsed.diagnostics with
  | [] =>
    match runProgram rounds parsed.program m.withoutOutput with
    | .ok v m => (m, { out := tokens ++ m.printed ++ echo v })
    | .error stop m => (m, { out := tokens ++ m.printed, err := stop.report coloured })
  | ds => (m, { out := tokens, err := reportAll coloured ds })

def Settings.machine (s : Settings) : Machine :=
  { limit := s.evalLimit }

end LoxLang
