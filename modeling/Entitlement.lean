import Entitlement.Http.Exchange
import Entitlement.Proofs.Access.Agreement
import Entitlement.Proofs.Access.DepthLimit
import Entitlement.Proofs.Access.Everywhere
import Entitlement.Proofs.Access.Explanation
import Entitlement.Proofs.Access.Failures
import Entitlement.Proofs.Access.Independence
import Entitlement.Proofs.Access.Inherited
import Entitlement.Proofs.Access.Monotonicity
import Entitlement.Proofs.Administration.Deletion
import Entitlement.Proofs.Administration.GroupNames
import Entitlement.Proofs.Administration.Hiding
import Entitlement.Proofs.Administration.History
import Entitlement.Proofs.Administration.Listing
import Entitlement.Proofs.Administration.RelationNames
import Entitlement.Proofs.Administration.Trail
import Entitlement.Proofs.Condition.Leaves
import Entitlement.Proofs.Inheritance.Notes
import Entitlement.Proofs.Record.Reading
import Entitlement.Proofs.Registry.Catalogue
import Entitlement.Proofs.Registry.Closure
import Entitlement.Proofs.Registry.Growth
import Entitlement.Proofs.Store.Ancestors
import Entitlement.Proofs.Store.EntryDialogue
import Entitlement.Proofs.Store.Grants
import Entitlement.Proofs.Store.Paging
import Entitlement.Proofs.Store.RoleDialogue
import Entitlement.Record
import Entitlement.Registry.Documents
import Entitlement.Settings
import Entitlement.Store.Closed
import Entitlement.Store.Tampering
