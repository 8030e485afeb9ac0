import FederatedJoin.Main
import FederatedJoin.Collection.Served
import FederatedJoin.Operand.Text
import FederatedJoin.Proofs.CallDiscipline
import FederatedJoin.Proofs.Checks
import FederatedJoin.Proofs.PageBounds
import FederatedJoin.Proofs.PageWalk
import FederatedJoin.Proofs.RelationOrder
import FederatedJoin.Proofs.RootOrder
import FederatedJoin.Proofs.AttachedRows
import FederatedJoin.Proofs.InnerJoins
import FederatedJoin.Proofs.Totals
import FederatedJoin.Proofs.LeftJoins
import FederatedJoin.Proofs.SingleRoots
import FederatedJoin.Proofs.RootSorts
import FederatedJoin.Proofs.Independence
import FederatedJoin.Proofs.HashJoins
import FederatedJoin.Proofs.PlanShapes
import FederatedJoin.Proofs.RoundTrips
import FederatedJoin.Proofs.RoundedOrder
import FederatedJoin.Proofs.ColumnOrder
import FederatedJoin.Proofs.CollectionPages
import FederatedJoin.Proofs.Routes
import FederatedJoin.Proofs.ExistenceChecks
import FederatedJoin.Proofs.CheckedSums
import FederatedJoin.Proofs.SearchTrees
import FederatedJoin.Proofs.OperatorLaws
import FederatedJoin.Proofs.CompactText
import FederatedJoin.Proofs.Fingerprints
import FederatedJoin.Proofs.Loading
import FederatedJoin.Proofs.OperandReadings
import FederatedJoin.Proofs.KeyConstraints
import FederatedJoin.Proofs.Alignment
