import DynamoExpr.Builder
import DynamoExpr.Data
import DynamoExpr.Proofs.Alias.Indexed
import DynamoExpr.Proofs.Alias.Numbers
import DynamoExpr.Proofs.Base64
import DynamoExpr.Proofs.Builder.Acceptance
import DynamoExpr.Proofs.Builder.Arithmetic
import DynamoExpr.Proofs.Builder.Continuation
import DynamoExpr.Proofs.Builder.Grouping
import DynamoExpr.Proofs.Builder.History
import DynamoExpr.Proofs.Builder.Identity
import DynamoExpr.Proofs.Builder.Limits
import DynamoExpr.Proofs.Builder.Projection
import DynamoExpr.Proofs.Builder.Renaming
import DynamoExpr.Proofs.Builder.Repetition
import DynamoExpr.Proofs.Builder.Serialization
import DynamoExpr.Proofs.Data.Direct
import DynamoExpr.Proofs.Data.Rendering
import DynamoExpr.Proofs.Json.Unordered
import DynamoExpr.Proofs.Path.Display
import DynamoExpr.Proofs.Path.Grammar
import DynamoExpr.Proofs.RoundTrip.Condition
import DynamoExpr.Proofs.RoundTrip.KeyCondition
import DynamoExpr.Proofs.RoundTrip.Update
import DynamoExpr.Proofs.Value.Numbering
import DynamoExpr.Proofs.Value.Repeated
import DynamoExpr.Proofs.Value.Wire
import DynamoExpr.Value.Text
