import LoxLang.Proofs.Machine.Triples

/-! The parts of a run. A run of a program runs its statements, these run their parts, and so on; each
part is met with the machine that the parts before it have left. What holds of the machine when a part
is met holds of every part of a run, once each kind of part hands it on to its own parts. -/
namespace LoxLang

inductive Task where
  | evaluate (e : Expr)
  | execute (s : Stmt)

/-- A task gives the value of its expression, or what its statement gives. -/
def Task.run (rounds : Nat) : Task → Eval Value
  | evaluate e => e.evaluate
  | execute s => s.execute rounds

/-- A loop gets from one machine to another in so many turns, each a test that holds and the body. -/
inductive Turns (test : Eval Bool) (body : Eval Value) : Nat → Machine → Machine → Prop where
  | zero : Turns test body 0 m m
  | succ : Turns test body n m before → test before = .ok true inside →
      body inside = .ok value after → Turns test body (n + 1) m after

/-- The first task, run on the first machine, comes to run the second one on the second machine as one
of its own parts. The parts of a call are not among them, since a call fails first. -/
inductive Calls (rounds : Nat) : Task → Machine → Task → Machine → Prop where
  | grouping {inner : Expr} : m.Roomy →
      Calls rounds (.evaluate (.grouping inner)) m (.evaluate inner) m.deeper
  | unary : m.Roomy → Calls rounds (.evaluate (.unary operator right)) m (.evaluate right) m.deeper
  | left : Calls rounds (.evaluate (.binary left operator right)) m (.evaluate left) m
  | right : left.evaluate m = .ok value m' →
      Calls rounds (.evaluate (.binary left operator right)) m (.evaluate right) m'
  | assign : m.Roomy → Calls rounds (.evaluate (.assign name value)) m (.evaluate value) m.deeper
  | expression : m.Roomy → Calls rounds (.execute (.expression e)) m (.evaluate e) m.deeper
  | print : m.Roomy → Calls rounds (.execute (.print e)) m (.evaluate e) m.deeper
  | define : m.Roomy → Calls rounds (.execute (.define name e)) m (.evaluate e) m.deeper
  | block : m.Roomy → Stmt.executeAll rounds earlier m.deeper.opened = .ok () m' →
      Calls rounds (.execute (.block brace (earlier ++ s :: later))) m (.execute s) m'
  | ifThen : m.Roomy →
      Calls rounds (.execute (.ifThen condition thenBranch)) m (.evaluate condition) m.deeper
  | thenOnly : m.Roomy → condition.holds m.deeper = .ok true m' →
      Calls rounds (.execute (.ifThen condition thenBranch)) m (.execute thenBranch) m'
  | ifElse : m.Roomy →
      Calls rounds (.execute (.ifElse condition thenBranch elseBranch)) m (.evaluate condition)
        m.deeper
  | thenBranch : m.Roomy → condition.holds m.deeper = .ok true m' →
      Calls rounds (.execute (.ifElse condition thenBranch elseBranch)) m (.execute thenBranch) m'
  | elseBranch : m.Roomy → condition.holds m.deeper = .ok false m' →
      Calls rounds (.execute (.ifElse condition thenBranch elseBranch)) m (.execute elseBranch) m'
  | loop : m.Roomy → n < rounds →
      Turns condition.holds (body.execute rounds) n m.deeper m' →
      Calls rounds (.execute (.loop condition body)) m (.evaluate condition) m'
  | body : m.Roomy → n < rounds →
      Turns condition.holds (body.execute rounds) n m.deeper m' →
      condition.holds m' = .ok true m'' →
      Calls rounds (.execute (.loop condition body)) m (.execute body) m''

/-- A run of the program on the machine `m` comes to the task with the machine `m'`. -/
inductive Visits (rounds : Nat) (program : List Stmt) (m : Machine) : Task → Machine → Prop where
  | start : program = earlier ++ s :: later → runProgram rounds earlier m = .ok value m' →
      Visits rounds program m (.execute s) m'
  | call : Visits rounds program m task m' → Calls rounds task m' part m'' →
      Visits rounds program m part m''

end LoxLang
