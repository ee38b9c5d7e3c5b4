import BoundSql.Connection.Echo
import BoundSql.Proofs.Boundary
import BoundSql.Proofs.ByteScan
import BoundSql.Proofs.Chronology
import BoundSql.Proofs.Context
import BoundSql.Proofs.Coverage
import BoundSql.Proofs.Derivation
import BoundSql.Proofs.Detection
import BoundSql.Proofs.Fragment
import BoundSql.Proofs.Grouping
import BoundSql.Proofs.Journal
import BoundSql.Proofs.Language
import BoundSql.Proofs.Literal
import BoundSql.Proofs.Marking
import BoundSql.Proofs.Outline
import BoundSql.Proofs.Precedence
import BoundSql.Proofs.Protocol
import BoundSql.Proofs.Quoting
import BoundSql.Proofs.Recovery
import BoundSql.Proofs.Relevance
import BoundSql.Proofs.Reporting
import BoundSql.Proofs.Storage
import BoundSql.Proofs.Tagged
import BoundSql.Proofs.Validation
import BoundSql.Value.HostType
import BoundSql.Value.Tagged
