import DocForms.Proofs.Catalog.Remote
import DocForms.Definition.Shipped
import DocForms.Proofs.Links.Searches
import DocForms.Proofs.Links.Superseding
import DocForms.Proofs.Registry.Amending
import DocForms.Proofs.Registry.Appending
import DocForms.Proofs.Registry.Isolation
import DocForms.Proofs.Registry.Leniency
import DocForms.Proofs.Registry.Ordering
import DocForms.Proofs.Registry.Supply
import DocForms.Proofs.Rendering.Numbers
import DocForms.Proofs.Rendering.Serialised
import DocForms.Proofs.Schema.Rereading
import DocForms.Proofs.Shape.Meeting
import DocForms.Proofs.Service.Answers
import DocForms.Proofs.Service.Statuses
import DocForms.Proofs.Signers
import DocForms.Proofs.Signers.Orders
import DocForms.Proofs.Snapshot
import DocForms.Proofs.Store.Refusing
import DocForms.Proofs.Store.Reloading
import DocForms.Proofs.Submission.Grounding
import DocForms.Proofs.Submission.Keys
import DocForms.Proofs.Template.Markup
import DocForms.Proofs.Template.Rebinding
import DocForms.Proofs.Template.Rereading
import DocForms.Proofs.Template.Starting
import DocForms.Proofs.Template.Unknown
import DocForms.Proofs.Validation.Bounds
import DocForms.Proofs.Validation.Locality
import DocForms.Proofs.Definition.Admission
import DocForms.Proofs.Definition.Clean
import DocForms.Proofs.Definition.Descriptions
import DocForms.Proofs.Definition.Endings
import DocForms.Proofs.Definition.Failures
import DocForms.Proofs.Definition.Fidelity
