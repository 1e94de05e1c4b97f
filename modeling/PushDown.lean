import PushDown.CommandLine
import PushDown.Main
import PushDown.Proofs.Binding
import PushDown.Proofs.Ownership
import PushDown.Proofs.Policy
import PushDown.Proofs.Agreement
import PushDown.Proofs.History
import PushDown.Proofs.NullLogic
import PushDown.Proofs.Writing
import PushDown.Proofs.Reading
import PushDown.Proofs.Identity
import PushDown.Proofs.Inference
import PushDown.Proofs.Rendering
import PushDown.Proofs.Building
import PushDown.Proofs.Safety
import PushDown.Proofs.Fetching
import PushDown.Proofs.Delivery
import PushDown.Proofs.Rebinding
import PushDown.Proofs.Columns
import PushDown.Proofs.Copying
import PushDown.Proofs.Conjunction
import PushDown.Proofs.Strictness
import PushDown.Proofs.Restriction
import PushDown.Proofs.Replanning
import PushDown.Proofs.Recording
import PushDown.Proofs.Scopes
import PushDown.Proofs.Extents
import PushDown.Proofs.Forming
import PushDown.Proofs.Scales
import PushDown.Proofs.ArgumentOrder
import PushDown.Proofs.TableNumbers
import PushDown.Proofs.LetterCase
import PushDown.Proofs.TableNames
import PushDown.Proofs.ClosedForms
import PushDown.Proofs.Traversal
