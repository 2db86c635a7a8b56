import BasicScript.Value.Basic

/-!
# The journal

What a run does to the world outside, in order: lines printed, notes for the person who runs the
program, calls of the host's own functions and writes that a hook of the host has seen.
-/

namespace BasicScript

/-- Something that happened outside the interpreter. -/
inductive Event where
  | printed (line : String)
  | diagnosed (note : String)
  | called (name : String) (args : List Value)
  /-- The hook with this number was asked to take a write. -/
  | written (hook : Nat) (object : Value) (member : String) (v : Value)

/-- The events of a run, in order. -/
abbrev Journal := Array Event

namespace Journal

/-- The printed lines. -/
def printed (j : Journal) : List String :=
  j.toList.filterMap fun | .printed line => some line | _ => none

/-- The notes. -/
def diagnosed (j : Journal) : List String :=
  j.toList.filterMap fun | .diagnosed note => some note | _ => none

/-- The calls with their arguments. -/
def called (j : Journal) : List (String × List Value) :=
  j.toList.filterMap fun | .called name args => some (name, args) | _ => none

/-- The writes, each with the number of the hook that saw it. -/
def written (j : Journal) : List (Nat × Value × String × Value) :=
  j.toList.filterMap fun
    | .written hook object member v => some (hook, object, member, v)
    | _ => none

end Journal

end BasicScript
