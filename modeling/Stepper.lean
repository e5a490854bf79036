import Stepper.Debug.Script
import Stepper.Main
import Stepper.Proofs.Control.Framing
import Stepper.Proofs.Control.Rejection
import Stepper.Proofs.Debug.Correlation
import Stepper.Proofs.Debug.Dialogue
import Stepper.Proofs.Debug.Registry
import Stepper.Proofs.Eval.Arithmetic
import Stepper.Proofs.Eval.Calls
import Stepper.Proofs.Eval.Comparison
import Stepper.Proofs.Eval.Data
import Stepper.Proofs.Eval.Injection
import Stepper.Proofs.Eval.Inspection
import Stepper.Proofs.Eval.Naming
import Stepper.Proofs.Eval.Positions
import Stepper.Proofs.Eval.Reports
import Stepper.Proofs.Eval.Restoring
import Stepper.Proofs.Eval.Totals
import Stepper.Proofs.Service.Aborted
import Stepper.Proofs.Service.Cancelled
import Stepper.Proofs.Service.Ending
import Stepper.Proofs.Service.Force
import Stepper.Proofs.Service.Forgotten
import Stepper.Proofs.Service.Isolation
import Stepper.Proofs.Service.Origins
import Stepper.Proofs.Syntax.Floats
