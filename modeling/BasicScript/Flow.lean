import BasicScript.Syntax.Operator
import BasicScript.Value.Basic

/-!
# Flow of control

How a statement ends, and what a loop makes of the way in which its body ended.
-/

namespace BasicScript

/-- How a statement ended. -/
inductive Flow where
  | normal
  | returned (v : Value)
  | broke
  | continued
  | exited (target : ExitTarget)

/-- What a loop does after its body. -/
inductive LoopStep where
  | next
  | leave
  /-- The loop ends, and the statement around it has to deal with the flow. -/
  | propagate (flow : Flow)

/-- What a loop of the kind `target` does after its body ended with some flow. -/
def Flow.stepOf (target : ExitTarget) : Flow → LoopStep
  | .normal | .continued => .next
  | .broke => .leave
  | .exited t => if t = target then .leave else .propagate (.exited t)
  | .returned v => .propagate (.returned v)

end BasicScript
