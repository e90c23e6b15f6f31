import Concordance.Form.Board
import Concordance.Form.Sheet
import Concordance.Main
import Concordance.Proofs.Text.Balance
import Concordance.Proofs.Query.Contexts
import Concordance.Proofs.Query.Reading
import Concordance.Proofs.Query.Reproduction
import Concordance.Session
import Concordance.Proofs.Page.Fence
import Concordance.Proofs.Page.Showable
import Concordance.Proofs.Page.Shown
import Concordance.Proofs.Metric.Lawful
import Concordance.Proofs.Service.Call
import Concordance.Proofs.Service.Run
import Concordance.Proofs.Service.Accounts
import Concordance.Proofs.Service.LatestTrace
import Concordance.Proofs.Form.FrontEnds
import Concordance.Proofs.Cql.Reversal
import Concordance.Proofs.Query.Refused
import Concordance.Proofs.Query.Symmetry
import Concordance.Proofs.Query.ContextSet
import Concordance.Proofs.Service.Ceilings
import Concordance.Proofs.Trace.Gather
import Concordance.Proofs.Trace.History
import Concordance.Proofs.Trace.Summary
import Concordance.Proofs.Trace.Delivery
import Concordance.Proofs.Trace.Published
import Concordance.Proofs.Pattern.Inclusion
import Concordance.Proofs.Pattern.Size
import Concordance.Proofs.Query.PatternLists
import Concordance.Proofs.Log.Context
import Concordance.Proofs.Distance
import Concordance.Proofs.Query.Count
import Concordance.Proofs.Service.Decision
import Concordance.Proofs.Query.Retyped
import Concordance.Proofs.Log.Setup
import Concordance.Proofs.Trace.Bracket
import Concordance.Proofs.Metric.Kept
