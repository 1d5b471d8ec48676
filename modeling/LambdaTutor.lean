import LambdaTutor.Main
import LambdaTutor.Proofs.Closure.Capture
import LambdaTutor.Proofs.Closure.Symbolic
import LambdaTutor.Proofs.Evaluation.Congruence
import LambdaTutor.Proofs.Evaluation.Reprinting
import LambdaTutor.Proofs.Level.Program
import LambdaTutor.Proofs.Parsing.Scanning
import LambdaTutor.Proofs.Parsing.Viability
import LambdaTutor.Proofs.Level.Availability
import LambdaTutor.Proofs.Parsing.Canonical
import LambdaTutor.Proofs.Level.Progress
import LambdaTutor.Proofs.Transcript.Lines
import LambdaTutor.Proofs.Closure.Stripping
import LambdaTutor.Proofs.Evaluation.Origin
import LambdaTutor.Proofs.Text.Encoding
import LambdaTutor.Proofs.Transcript.Framing
import LambdaTutor.Proofs.Transcript.OneLine
import LambdaTutor.Proofs.Evaluation.Definitions
import LambdaTutor.Proofs.Level.Texts
import LambdaTutor.Proofs.Level.SelfContained
import LambdaTutor.Proofs.Level.Visibility
import LambdaTutor.Proofs.Closure.FiniteMap
import LambdaTutor.Proofs.Closure.Substitution
import LambdaTutor.Proofs.Parsing.Descent
