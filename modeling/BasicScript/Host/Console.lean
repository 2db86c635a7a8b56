import BasicScript.Double.Reading
import BasicScript.Host.Native
import BasicScript.Text.Blank
import BasicScript.Value.Index

/-!
# Console natives

The small set of natives of the command line: printing, texts, numbers and arrays.
`Console.natives` is the list in the order in which they are registered.
-/

namespace BasicScript.Console

/-- A value without events. -/
def answer (v : Value) : Reply := { result := .ok v }

/-- A reply that may fail. -/
def reply (r : Except Failure Value) : Reply := { result := r }

/-- The argument as a double. -/
def number (name : String) (v : Value) : Except Failure Float :=
  match v.toFloat? with
  | some x => .ok x
  | none => .error (.native (name ++ ": expected a number, got " ++ v.kindName))

/-- The argument as an integer, without its fraction. -/
def integer (name : String) : Value → Except Failure Int64
  | .int n => .ok n
  | v => (number name v).map Float.toInt64

/-- The argument as an array. -/
def items (name : String) : Value → Except Failure (List Value)
  | .array items => .ok items
  | _ => .error (.native (name ++ ": first argument must be an array"))

/-- PRINT writes the text of its argument as a line. -/
def print (v : Value) : Reply :=
  { events := [.printed v.toText], result := .ok .nil }

/-- VAL reads a number off a text, blanks around it put aside; what is no number is zero. -/
def val : Value → Value
  | .int n => .int n
  | .float x => .float x
  | .bool b => .int (if b then 1 else 0)
  | .str s =>
    let cs := Text.trimBlanks s.toList
    match Double.readInt? cs with
    | some n => .int n
    | none => ((Double.readDouble? cs).map Value.float).getD (.int 0)
  | _ => .int 0

/-- LEN counts characters, items or fields. -/
def len : Value → Nat
  | .str s => s.length
  | .array items => items.length
  | .map fields => fields.length
  | _ => 0

/-- SUBSTR cuts `length` characters out of a text from `start` on; both are cut to the text. -/
def substr (v start length : Value) : Except Failure Value := do
  let text := v.toText.toList
  let start ← integer "SUBSTR" start
  let length ← integer "SUBSTR" length
  return .str (String.ofList ((text.drop start.toInt.toNat).take length.toInt.toNat))

/-- ABS. -/
def abs : Value → Except Failure Value
  | .int n =>
    match Word.ofInt? n.toInt.natAbs with
    | some r => .ok (.int r)
    | none => .ok (.float (Double.ofInt n.toInt).abs)
  | v => (number "ABS" v).map fun x => .float x.abs

/-- INT is the largest integer not above a number. -/
def floor : Value → Except Failure Value
  | .int n => .ok (.int n)
  | v => (number "INT" v).map fun x => .int x.floor.toInt64

/-- The first argument that no later one betters, with the best one so far as a double. -/
def extremum (name : String) (better : Float → Float → Bool) :
    Option (Value × Float) → List Value → Except Failure Value
  | best, [] => .ok ((best.map (·.1)).getD .nil)
  | best, v :: rest => do
    let x ← number name v
    match best with
    | none => extremum name better (some (v, x)) rest
    | some (w, y) => extremum name better (some (if better x y then (v, x) else (w, y))) rest

/-- A native of one argument. -/
def one (f : Value → Reply) : Arity × (List Value → Reply) :=
  (.exact 1, fun args => f (args.headD .nil))

/-- A native of two arguments. -/
def two (f : Value → Value → Reply) : Arity × (List Value → Reply) :=
  (.exact 2, fun args => f (args.headD .nil) ((args[1]?).getD .nil))

/-- A native of three arguments. -/
def three (f : Value → Value → Value → Reply) : Arity × (List Value → Reply) :=
  (.exact 3, fun args => f (args.headD .nil) ((args[1]?).getD .nil) ((args[2]?).getD .nil))

/-- A native of any number of arguments. -/
def any (f : List Value → Reply) : Arity × (List Value → Reply) :=
  (.variadic, f)

/-- The console natives in the order of their registration. -/
def natives : List (String × Arity × (List Value → Reply)) :=
  [("PRINT", one print),
   ("STR", one fun v => answer (.str v.toText)),
   ("VAL", one fun v => answer (val v)),
   ("LEN", one fun v => answer (.int (Int64.ofNat (len v)))),
   ("UCASE", one fun v => answer (.str (Text.upper v.toText))),
   ("LCASE", one fun v => answer (.str (Text.lower v.toText))),
   ("SUBSTR", three fun v start length => reply (substr v start length)),
   ("ABS", one fun v => reply (abs v)),
   ("SQR", one fun v => reply ((number "SQR" v).map fun x => .float x.sqrt)),
   ("INT", one fun v => reply (floor v)),
   ("MIN", any fun args => reply (extremum "MIN" (fun x y => x < y) none args)),
   ("MAX", any fun args => reply (extremum "MAX" (fun x y => y < x) none args)),
   ("ARRAY", one fun v => reply ((integer "ARRAY" v).map fun n =>
      .array (List.replicate n.toInt.toNat .nil))),
   ("PUSH", two fun v item => reply ((items "PUSH" v).map fun vs => .array (vs ++ [item]))),
   ("POP", one fun v => reply ((items "POP" v).map fun vs => .array vs.dropLast))]

/-- Registers natives one by one.  When a name is taken, those before it stay registered. -/
def registerAll (ns : Natives) :
    List (String × Arity × (List Value → Reply)) → Natives × Except DuplicateNative Unit
  | [] => (ns, .ok ())
  | (name, arity, run) :: rest =>
    match ns.register name arity run with
    | .ok ns => registerAll ns rest
    | .error e => (ns, .error e)

/-- Registers the console natives. -/
def register (ns : Natives) : Natives × Except DuplicateNative Unit :=
  registerAll ns natives

/-- Every native of the console is found by its name. -/
theorem get?_register :
    ∀ f ∈ natives, Table.get? (register []).1 f.1 = some ⟨f.1, f.2.1, f.2.2⟩ := by
  unfold natives
  simp only [List.forall_mem_cons]
  exact ⟨rfl, rfl, rfl, rfl, rfl, rfl, rfl, rfl, rfl, rfl, rfl, rfl, rfl, rfl, rfl,
    fun _ hf => nomatch hf⟩

/-- A call of a native of the console, by its name in any case. -/
theorem call_register {f : String × Arity × (List Value → Reply)} (hf : f ∈ natives)
    {text : String} (htext : Text.upper text = f.1) (args : List Value) :
    Natives.call (register []).1 text args = Native.invoke ⟨f.1, f.2.1, f.2.2⟩ args := by
  unfold Natives.call Natives.find?
  rw [htext, get?_register f hf]

end BasicScript.Console
