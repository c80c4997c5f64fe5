import GatedQuery.Main
import GatedQuery.Proofs.AllowList.Rearrangement
import GatedQuery.Proofs.Canonical.Dotted
import GatedQuery.Proofs.Grammar.Acceptance
import GatedQuery.Proofs.Secrecy.Running
import GatedQuery.Proofs.Query.Nodes
import GatedQuery.Proofs.Solve.Answers
import GatedQuery.Proofs.Solve.Accesses
import GatedQuery.Proofs.Grammar.Places
import GatedQuery.Proofs.Scanning.Places
import GatedQuery.Proofs.Grammar.Fails
import GatedQuery.Proofs.Grammar.Refusals
import GatedQuery.Proofs.Solve.Failures
import GatedQuery.Proofs.Secrecy.Messages
import GatedQuery.Proofs.Execution.Places
import GatedQuery.Proofs.Slice.Places
import GatedQuery.Proofs.Slice.Laws
import GatedQuery.Proofs.Query.Shape
import GatedQuery.Proofs.Solve.Chains
import GatedQuery.Proofs.Solve.Rows
import GatedQuery.Proofs.Value.Arguments
import GatedQuery.Proofs.Filter.Arguments
import GatedQuery.Proofs.Filter.Rounding
import GatedQuery.Proofs.Scanning.Widening
import GatedQuery.Proofs.Grammar.Streams
import GatedQuery.Proofs.Grammar.Viability
import GatedQuery.Proofs.Filter.Collections
import GatedQuery.Proofs.Value.Encoding
import GatedQuery.Proofs.Secrecy.Roots
import GatedQuery.Proofs.AllowList.Queue
import GatedQuery.Proofs.Grammar.Termination
