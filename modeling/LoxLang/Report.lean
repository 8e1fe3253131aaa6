import LoxLang.Diagnostic

/-! How a failed command ends: the diagnostics that it shows, and its exit status. -/
namespace LoxLang

/-- A line for the user; a coloured one is red. -/
def shownLine (coloured : Bool) (text : String) : String :=
  if coloured then "\x1b[31m" ++ text ++ "\x1b[0m\n" else text ++ "\n"

def report? (coloured : Bool) (d : Diagnostic) : Option String :=
  (Diagnostic.texts? d.shown).map fun texts => String.join (texts.map (shownLine coloured))

/-! Exit statuses. -/

def exitUsage : Int := 64
def exitDataError : Int := 65
def exitNoInput : Int := 66
def exitSoftware : Int := 70

/-- Why a command fails: with a status of its own, or with a message only. -/
inductive Failure where
  | exit (message : String) (status : Int)
  | error (message : String)
deriving DecidableEq, Inhabited, Repr

namespace Failure

def message : Failure → String
  | exit message _ => message
  | error message => message

end Failure

/-- The exit status, and what is still to be said. A failure without a status of its own is a usage
error; one with a status may have nothing to say. -/
def exitStatus : Option Failure → Int × String
  | none => (0, "")
  | some (.exit "" status) => (status, "")
  | some (.exit message status) => (status, message ++ "\n")
  | some (.error message) => (exitUsage, message ++ "\n")

end LoxLang
