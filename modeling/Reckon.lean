import Reckon.Main
import Reckon.Proofs.Attempts
import Reckon.Proofs.Batches
import Reckon.Proofs.Carets
import Reckon.Proofs.Composition
import Reckon.Proofs.Descent.Calls
import Reckon.Proofs.Dumps
import Reckon.Proofs.Enclosures
import Reckon.Proofs.Expressions
import Reckon.Proofs.FirstFailures
import Reckon.Proofs.IntegerDisplays
import Reckon.Proofs.Operators
import Reckon.Proofs.PrefixSigns
import Reckon.Proofs.Records
import Reckon.Proofs.Refusals
import Reckon.Proofs.RowFiles
import Reckon.Proofs.Setup
import Reckon.Proofs.ShiftReduce.Bounds
import Reckon.Proofs.ShiftReduce.Handles
import Reckon.Proofs.ShiftReduce.Resumption
import Reckon.Proofs.Spacing
import Reckon.Proofs.StepCounts
import Reckon.Proofs.Traces
