import BasicScript.Main
import BasicScript.Proofs.CallDepth
import BasicScript.Proofs.CatchVariable
import BasicScript.Proofs.Closure
import BasicScript.Proofs.Comparison
import BasicScript.Proofs.Constant
import BasicScript.Proofs.DebugMode
import BasicScript.Proofs.DecliningHook
import BasicScript.Proofs.Destructuring
import BasicScript.Proofs.Frame
import BasicScript.Proofs.MapKey
import BasicScript.Proofs.Method
import BasicScript.Proofs.Reload
import BasicScript.Proofs.RoundTrip
import BasicScript.Proofs.RoundTrip.Dump
import BasicScript.Proofs.Signal
import BasicScript.Proofs.StrictMode
import BasicScript.Proofs.Termination
import BasicScript.Proofs.Allocation
import BasicScript.Proofs.Assignment
import BasicScript.Proofs.FailedWrite
import BasicScript.Proofs.ForLoop
import BasicScript.Proofs.IndexedWrite
import BasicScript.Proofs.IntegerArithmetic
import BasicScript.Proofs.MemberWrite
import BasicScript.Proofs.Range
import BasicScript.Proofs.SuperCall
import BasicScript.Proofs.Unwinding
import BasicScript.Proofs.Construction
import BasicScript.Proofs.Inheritance
import BasicScript.Proofs.Parameter
import BasicScript.Proofs.Extremum
import BasicScript.Proofs.PrintedInteger
