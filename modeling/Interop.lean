import Interop.Main
import Interop.Proofs.AliasChains
import Interop.Proofs.ClassMerging
import Interop.Proofs.Collection.Accessors
import Interop.Proofs.Collection.Reporting
import Interop.Proofs.Collection.Scoping
import Interop.Proofs.Collection.Steadiness
import Interop.Proofs.CommentFree
import Interop.Proofs.Comments
import Interop.Proofs.DeclaredNames
import Interop.Proofs.Forest
import Interop.Proofs.Imports
import Interop.Proofs.InputOrder
import Interop.Proofs.Instantiation
import Interop.Proofs.Items
import Interop.Proofs.Lookup
import Interop.Proofs.MemberSlots
import Interop.Proofs.Modules
import Interop.Proofs.Naming
import Interop.Proofs.Occurrences
import Interop.Proofs.OutputFiles
import Interop.Proofs.Overloads
import Interop.Proofs.ParameterNames
import Interop.Proofs.Passages
import Interop.Proofs.Positions
import Interop.Proofs.References
import Interop.Proofs.ReportMode
import Interop.Proofs.ReportOrder
import Interop.Proofs.Representatives
import Interop.Proofs.ScriptNames
import Interop.Proofs.Texts.Unambiguity
import Interop.Proofs.Transparency
import Interop.Workspace.Memory
