import Clausal.About
import Clausal.CommandLine.Program
import Clausal.Datum
import Clausal.Family.Demo
import Clausal.Graph.Vertex
import Clausal.Main
import Clausal.Notice
import Clausal.Proofs.Horn.Verdict
import Clausal.Proofs.Search.Verdict
import Clausal.Proofs.TwoSat.Verdict
import Clausal.Proofs.Search.Recursion
import Clausal.Proofs.Horn.Meaning
import Clausal.Proofs.Rebuilding
import Clausal.Proofs.Dispatch
import Clausal.Proofs.Format.RoundTrip
import Clausal.Proofs.Format.Grammar
import Clausal.Proofs.Format.Canonical
import Clausal.Proofs.Refusal
import Clausal.Proofs.CommandLine.Dialogue
import Clausal.Proofs.Evaluation
import Clausal.Proofs.Search.Ending
import Clausal.Proofs.Horn.Session
import Clausal.Proofs.Search.Forced
import Clausal.Proofs.Search.Presentation
import Clausal.Proofs.TwoSat.Readings
import Clausal.Proofs.Graph.Edges
import Clausal.Proofs.TwoSat.Entailment
import Clausal.Proofs.Graph.Recursion
import Clausal.Proofs.Graph.Transposition
import Clausal.Proofs.Horn.Deletion
import Clausal.Proofs.Horn.Copies
import Clausal.Proofs.Graph.Forest
import Clausal.Proofs.Graph.History
import Clausal.Proofs.Checking
import Clausal.Proofs.Family.Pigeonhole
import Clausal.Proofs.Family.Random
import Clausal.Proofs.Text.Utf8
import Clausal.Proofs.CommandLine.Containment
import Clausal.Proofs.Search.Stack
