import Tabular.Config
import Tabular.Database.Session
import Tabular.Proofs.Agreement
import Tabular.Proofs.Atomicity
import Tabular.Proofs.Catalogs
import Tabular.Proofs.Consistency
import Tabular.Proofs.Directories
import Tabular.Proofs.Durability
import Tabular.Proofs.Effects
import Tabular.Proofs.Equality
import Tabular.Proofs.Fallible
import Tabular.Proofs.Filing
import Tabular.Proofs.Integrity
import Tabular.Proofs.Invisibility
import Tabular.Proofs.Naming
import Tabular.Proofs.Persistence
import Tabular.Proofs.Reachability
import Tabular.Proofs.Requests
import Tabular.Proofs.Revision
import Tabular.Proofs.Snapshots
import Tabular.Proofs.SortedMaps
import Tabular.Proofs.Stores
import Tabular.Proofs.Upkeep
import Tabular.Store.Directory
import Tabular.Store.Memory
import Tabular.Proofs.Grammar
import Tabular.Proofs.Reading
import Tabular.Proofs.Numbering
import Tabular.Proofs.Literals
import Tabular.Proofs.Substitution
import Tabular.Proofs.Backends
import Tabular.Proofs.Building
import Tabular.Proofs.Queries
import Tabular.Proofs.Safety
import Tabular.Proofs.Locality
import Tabular.Proofs.Conditions
import Tabular.Proofs.Truncation
import Tabular.Proofs.Joins
import Tabular.Proofs.Assembly
import Tabular.Proofs.Loading
import Tabular.Proofs.Spacing
import Tabular.Proofs.Faults
import Tabular.Proofs.Slots
import Tabular.Proofs.Meaning
import Tabular.Proofs.Nearest
import Tabular.Proofs.Widening
import Tabular.Proofs.Retrieval
