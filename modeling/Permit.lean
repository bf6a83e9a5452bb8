import Permit.Proofs.Condition.RoundTrip
import Permit.Proofs.Joins.Algebra
import Permit.Proofs.MemoryStore.Equality
import Permit.Proofs.MemoryStore.Rebuilding
import Permit.Proofs.Plan.BlockReach
import Permit.Proofs.Plan.Scopes
import Permit.Proofs.Policy.Attributes
import Permit.Proofs.Query.NormalForm
import Permit.Proofs.Selection.ExactJoins
import Permit.Proofs.Selection.Insertion
import Permit.Proofs.Selection.Reordering
import Permit.Proofs.Selection.Retrieval
import Permit.Proofs.Selection.Separation
import Permit.Proofs.Selection.Similarity
import Permit.Proofs.Settings.Closure
import Permit.Proofs.Settings.RoundTrip
import Permit.Proofs.Settings.Wildcard
import Permit.Proofs.Verdict.Choices
import Permit.Proofs.Verdict.Extremes
