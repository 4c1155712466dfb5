import SchemaDrift.History
import SchemaDrift.Main
import SchemaDrift.Proofs.Coherence
import SchemaDrift.Proofs.Exchange
import SchemaDrift.Proofs.PlanContents
import SchemaDrift.Proofs.Filtering
import SchemaDrift.Proofs.PartialPull
import SchemaDrift.Proofs.Derivation
import SchemaDrift.Proofs.Compilation
import SchemaDrift.Proofs.JoinEvents
import SchemaDrift.Proofs.Scanning
import SchemaDrift.Proofs.JoinFile
import SchemaDrift.Proofs.JsonText
import SchemaDrift.Proofs.ModelFile
import SchemaDrift.Proofs.Linkage
import SchemaDrift.Proofs.Batch
import SchemaDrift.Proofs.JoinElements
import SchemaDrift.Proofs.Directions
import SchemaDrift.Proofs.KeyOrder
import SchemaDrift.Proofs.Normalization
import SchemaDrift.Proofs.Undo
import SchemaDrift.Proofs.Orientation
import SchemaDrift.Proofs.Constraint
import SchemaDrift.Proofs.JoinColumns
import SchemaDrift.Proofs.Loading
import SchemaDrift.Proofs.PlanOptions
import SchemaDrift.Proofs.KeyReplacement
import SchemaDrift.Proofs.DeclaredType
import SchemaDrift.Proofs.Rendering
import SchemaDrift.Proofs.Provisioning
import SchemaDrift.Proofs.Deployment
