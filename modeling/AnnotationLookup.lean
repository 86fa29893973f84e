import AnnotationLookup.Session
import AnnotationLookup.Json.Printer
import AnnotationLookup.LogFilter
import AnnotationLookup.Proofs.Sample
import AnnotationLookup.Proofs.Workspace.Transparency
import AnnotationLookup.Proofs.Workspace.WriteOnce
import AnnotationLookup.Proofs.Workspace.Isolation
import AnnotationLookup.Proofs.Resolver.Success
import AnnotationLookup.Proofs.Form.Restore
import AnnotationLookup.Proofs.Tree.Refusal
import AnnotationLookup.Proofs.Tree.Coherence
import AnnotationLookup.Proofs.Tree.Built
import AnnotationLookup.Proofs.Resolver.Order
import AnnotationLookup.Proofs.Workspace.Separation
import AnnotationLookup.Proofs.Provider.Faults
import AnnotationLookup.Proofs.Workspace.Faults
import AnnotationLookup.Proofs.Tree.Names
import AnnotationLookup.Proofs.Workspace.Overriding
import AnnotationLookup.Proofs.Resolver.Source
import AnnotationLookup.Proofs.Number.Decimal
import AnnotationLookup.Proofs.Json.Number
import AnnotationLookup.Proofs.Json.Text
import AnnotationLookup.Proofs.Form.Faithful
import AnnotationLookup.Proofs.Form.Row
import AnnotationLookup.Proofs.Form.Value
import AnnotationLookup.Proofs.Form.RoundTrip
import AnnotationLookup.Proofs.Provider.Serving
import AnnotationLookup.Proofs.Tree.Run
import AnnotationLookup.Proofs.Tree.Redeclaration
import AnnotationLookup.Proofs.Workspace.Interchange
import AnnotationLookup.Proofs.Form.Tree
import AnnotationLookup.Proofs.Tree.Valid
import AnnotationLookup.Proofs.Tree.Copy
import AnnotationLookup.Proofs.Tree.Anchored
import AnnotationLookup.Proofs.Tree.Appending
import AnnotationLookup.Proofs.Workspace.Presence
import AnnotationLookup.Proofs.Workspace.Copies
import AnnotationLookup.Proofs.Provider.Flattening
import AnnotationLookup.Proofs.Provider.Naming
import AnnotationLookup.Proofs.Tree.Linked
import AnnotationLookup.Proofs.Tree.Description
import AnnotationLookup.Proofs.Resolver.Overloads
import AnnotationLookup.Proofs.Resolver.Precedence
import AnnotationLookup.Proofs.Workspace.References
import AnnotationLookup.Proofs.Value.Equality
import AnnotationLookup.Proofs.Arena.Names
import AnnotationLookup.Proofs.Resolver.Rebinding
import AnnotationLookup.Proofs.Workspace.Severity
import AnnotationLookup.Proofs.Form.Lenient
import AnnotationLookup.Proofs.Form.Lacking
import AnnotationLookup.Proofs.Environment.Boolean
import AnnotationLookup.Proofs.Environment.Stack
import AnnotationLookup.Proofs.Value.Conversion
import AnnotationLookup.Proofs.Workspace.Extraction
