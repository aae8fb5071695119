import SmallLisp.Gauge
import SmallLisp.Inspect
import SmallLisp.Json.Reader
import SmallLisp.Main
import SmallLisp.Proofs.Eval.Expansion
import SmallLisp.Proofs.Eval.Limit
import SmallLisp.Proofs.Prelude.Sort
import SmallLisp.Proofs.Reader.Printing
import SmallLisp.Proofs.Repl.Buffer
import SmallLisp.Proofs.Session.Unused
import SmallLisp.Proofs.Eval.OpenRun
import SmallLisp.Proofs.Eval.Soundness
import SmallLisp.Proofs.Eval.Reachable
import SmallLisp.Proofs.Eval.Repetition
import SmallLisp.Proofs.Session
import SmallLisp.Proofs.Session.Joining
import SmallLisp.Proofs.Session.Printing
import SmallLisp.Proofs.Reader.Position
import SmallLisp.Proofs.Prelude.Range
import SmallLisp.Proofs.Eval.Copy
import SmallLisp.Proofs.Eval.Steps
import SmallLisp.Proofs.Prelude.Pointwise
import SmallLisp.Proofs.Repl.Dialogue
import SmallLisp.Proofs.Operation
import SmallLisp.Proofs.Store.Visibility
import SmallLisp.Proofs.Eval.Counter
import SmallLisp.Proofs.Prelude.Lists
import SmallLisp.Proofs.Eval.Calls
import SmallLisp.Proofs.Reader.Ranking
import SmallLisp.Proofs.Repl.Blank
import SmallLisp.Proofs.Session.Closures
import SmallLisp.Proofs.Store.Names
import SmallLisp.Proofs.Json.Node
import SmallLisp.Proofs.CommandLine.Batch
import SmallLisp.Proofs.Repl.Parentheses
