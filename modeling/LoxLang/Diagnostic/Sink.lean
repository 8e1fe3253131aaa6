import LoxLang.Diagnostic

/-! Sinks take diagnostics as they are found. A tee hands each one to all of its sinks, in order. -/
namespace LoxLang

inductive Sink where
  /-- Keeps what it is given. -/
  | list (items : List Diagnostic)
  /-- Hands what it is given to the log of the tee. -/
  | log
  /-- Takes nothing. -/
  | none
deriving Inhabited

/-- Sinks, and what was handed to those that log: the number of the sink, and the diagnostic. -/
structure Tee where
  sinks : List Sink
  log : List (Nat × Diagnostic) := []
deriving Inhabited

namespace Sink

def report (d : Diagnostic) : Sink → Sink
  | list items => list (items ++ [d])
  | sink => sink

def isLog : Sink → Bool
  | log => true
  | _ => false

def text? : Sink → Option String
  | list items => (Diagnostic.list items).text?
  | _ => some ""

end Sink

namespace Tee

def report (t : Tee) (d : Diagnostic) : Tee :=
  { sinks := t.sinks.map (Sink.report d)
    log := t.log ++ (t.sinks.zipIdx.filter fun (sink, _) => sink.isLog).map fun (_, i) => (i, d) }

end Tee
end LoxLang
