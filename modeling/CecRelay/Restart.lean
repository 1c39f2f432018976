import CecRelay.Text.Numeral
import CecRelay.Warning

/-!
# Restarting the program

When the adapter cannot be recovered the program is replaced by a fresh copy of itself. Two things
are handed over, both in the environment: where the queue is, and how many restarts are left. The
budget is one less in every copy, and at zero nothing is restarted.
-/

namespace CecRelay

/-- The variable that tells where the queue is. -/
def queueDirVariable : String := "CEC_QUEUE_DIR"

/-- The variable that tells how many restarts are left. -/
def budgetVariable : String := "CEC_RESTART_RETRIES"

/-- What is needed to start a fresh copy. -/
structure RestartPlan where
  /-- The program. -/
  program : String
  /-- Its arguments, the name it is called by among them. -/
  args : List String
  /-- The variables put over the environment. -/
  env : List (String × String)
  deriving DecidableEq, Repr

/-- A program that can be restarted. -/
structure Program where
  /-- The file to run, if the system can tell it. -/
  path : Option String
  /-- The arguments it was called with. -/
  args : List String
  /-- Where its queue is. -/
  queueDir : String
  deriving DecidableEq, Repr

/-- The plan for the next copy, when `budget` restarts are left; none at zero, nor when there is no file to
run. -/
def Program.plan? (p : Program) (budget : UInt32) : Option RestartPlan :=
  if budget = 0 then none
  else p.path.map fun path =>
    { program := path
      args := p.args
      env := [(queueDirVariable, p.queueDir), (budgetVariable, toString (budget - 1))] }

end CecRelay
