import BasicScript.Journal

/-!
# Member hooks

A host may watch over the members of its own objects: a read hook can answer a read, a write hook
can take a write.  The hook that was added last is asked first.
-/

namespace BasicScript

/-- A hook for reads answers with a value, or leaves the read to others. -/
abbrev ReadHook := Value → String → Option Value

/-- What a hook for writes answers. -/
structure WriteReply where
  events : List Event := []
  /-- The hook has taken the write. -/
  claimed : Bool

/-- A hook for writes. -/
abbrev WriteHook := Value → String → Value → WriteReply

/-- The hooks of a host, in the order in which they were added. -/
structure Hooks where
  read : List ReadHook := []
  write : List WriteHook := []

namespace Hooks

/-- There is no hook at all. -/
def isEmpty (h : Hooks) : Bool :=
  h.read.isEmpty && h.write.isEmpty

/-- The answer of the first hook that has one. -/
def resolve? (h : Hooks) (object : Value) (member : String) : Option Value :=
  h.read.reverse.findSome? (· object member)

/-- Asks hooks in turn until one takes the write. -/
def offer (object : Value) (member : String) (v : Value) : List WriteHook → WriteReply
  | [] => { claimed := false }
  | hook :: rest =>
    let reply := hook object member v
    if reply.claimed then reply
    else
      let later := offer object member v rest
      { later with events := reply.events ++ later.events }

/-- Asks all hooks, the last one first. -/
def assign (h : Hooks) (object : Value) (member : String) (v : Value) : WriteReply :=
  offer object member v h.write.reverse

end Hooks

end BasicScript
