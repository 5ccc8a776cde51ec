import AnnotatedLisp.Main
import AnnotatedLisp.Store.Describe
import AnnotatedLisp.Proofs.Simulation.Basic
import AnnotatedLisp.Proofs.Simulation.Step
import AnnotatedLisp.Proofs.Simulation.Run
import AnnotatedLisp.Proofs.Confinement
import AnnotatedLisp.Proofs.Annotation
import AnnotatedLisp.Proofs.Fuel
import AnnotatedLisp.Proofs.MacroExpansion
import AnnotatedLisp.Proofs.Tail.Step
import AnnotatedLisp.Proofs.Tail.Depth
import AnnotatedLisp.Proofs.Tail.Limit
import AnnotatedLisp.Proofs.Limit.Guard
import AnnotatedLisp.Proofs.Quasiquote.Evaluation
import AnnotatedLisp.Proofs.Reader.Continuation
import AnnotatedLisp.Proofs.Number.Canonical
import AnnotatedLisp.Proofs.Number.Digits
import AnnotatedLisp.Proofs.Number.Exact
import AnnotatedLisp.Proofs.Number.RoundTrip
import AnnotatedLisp.Proofs.Form.Written
import AnnotatedLisp.Proofs.Reader.Token
import AnnotatedLisp.Proofs.Reader.Printed
import AnnotatedLisp.Proofs.Reader.RoundTrip
import AnnotatedLisp.Proofs.Session.Submission
import AnnotatedLisp.Proofs.Simulation.Host
import AnnotatedLisp.Proofs.Stamps.Record
import AnnotatedLisp.Proofs.Stamps.Visits
import AnnotatedLisp.Proofs.Stamps.Restamped
import AnnotatedLisp.Proofs.Stamps.Overlay
import AnnotatedLisp.Proofs.Plain
import AnnotatedLisp.Proofs.Reraise
import AnnotatedLisp.Proofs.Reader.Alike
import AnnotatedLisp.Proofs.Reader.Comment
import AnnotatedLisp.Proofs.Form.Spelled
import AnnotatedLisp.Proofs.Reader.Produced
import AnnotatedLisp.Proofs.Reader.Reread
import AnnotatedLisp.Proofs.Params.Match
import AnnotatedLisp.Proofs.Params.Bind
import AnnotatedLisp.Proofs.Renaming.Form
import AnnotatedLisp.Proofs.Renaming.Store
import AnnotatedLisp.Proofs.Renaming.Binding
import AnnotatedLisp.Proofs.Renaming.Native
import AnnotatedLisp.Proofs.Renaming.Step
import AnnotatedLisp.Proofs.Renaming.Run
import AnnotatedLisp.Proofs.Renaming.Closed
import AnnotatedLisp.Proofs.LetCall.Forms
import AnnotatedLisp.Proofs.LetCall.Agreement
import AnnotatedLisp.Proofs.World.Basic
import AnnotatedLisp.Proofs.World.Store
import AnnotatedLisp.Proofs.World.Binding
import AnnotatedLisp.Proofs.World.Native
import AnnotatedLisp.Proofs.World.Step
import AnnotatedLisp.Proofs.World.Run
import AnnotatedLisp.Proofs.World.Reached
import AnnotatedLisp.Proofs.Scopes.Chain
import AnnotatedLisp.Proofs.Scopes.Listing
import AnnotatedLisp.Proofs.Scopes.Definition
import AnnotatedLisp.Proofs.Number.Comparison
import AnnotatedLisp.Proofs.Equality
import AnnotatedLisp.Proofs.Quasiquote.Cost
import AnnotatedLisp.Proofs.Constant
import AnnotatedLisp.Proofs.Reader.Word
import AnnotatedLisp.Proofs.Reader.Marks
import AnnotatedLisp.Proofs.Native.Conversion
import AnnotatedLisp.Proofs.Native.Call
import AnnotatedLisp.Proofs.Native.Registry
import AnnotatedLisp.Proofs.Native.Routes
import AnnotatedLisp.Proofs.Excerpt
import AnnotatedLisp.Proofs.Session.Cancellation
import AnnotatedLisp.Proofs.Descent.Rules
import AnnotatedLisp.Proofs.Descent.Choice
import AnnotatedLisp.Proofs.Descent.Progress
import AnnotatedLisp.Proofs.Descent.Gaps
import AnnotatedLisp.Proofs.Descent.Tokens
import AnnotatedLisp.Proofs.Descent.Forms
import AnnotatedLisp.Proofs.Descent.Texts
import AnnotatedLisp.Proofs.Composition
import AnnotatedLisp.Proofs.Scopes.WellFounded
