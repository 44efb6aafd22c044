import MixedCalculator.Calculation
import MixedCalculator.Editor
import MixedCalculator.Evaluation.Arithmetic
import MixedCalculator.Evaluation.Basic
import MixedCalculator.Evaluation.Event
import MixedCalculator.Evaluation.Traced
import MixedCalculator.Expression.Basic
import MixedCalculator.Expression.Reading
import MixedCalculator.Fault
import MixedCalculator.Fraction.Arithmetic
import MixedCalculator.Fraction.Basic
import MixedCalculator.MixedNumber.Basic
import MixedCalculator.MixedNumber.Conversion
import MixedCalculator.Operator
import MixedCalculator.Proofs.Editor.EnterKey
import MixedCalculator.Proofs.Editor.History
import MixedCalculator.Proofs.Editor.IdleFrame
import MixedCalculator.Proofs.Editor.Importing
import MixedCalculator.Proofs.Editor.Invariant
import MixedCalculator.Proofs.Editor.NeutralOperations
import MixedCalculator.Proofs.Editor.Operands
import MixedCalculator.Proofs.Editor.Operations
import MixedCalculator.Proofs.Editor.Reachability
import MixedCalculator.Proofs.Editor.SeparateFrames
import MixedCalculator.Proofs.Editor.ShownText
import MixedCalculator.Proofs.Evaluation.Account
import MixedCalculator.Proofs.Evaluation.Bounded
import MixedCalculator.Proofs.Evaluation.Composition
import MixedCalculator.Proofs.Evaluation.Events
import MixedCalculator.Proofs.Evaluation.Exactness
import MixedCalculator.Proofs.Evaluation.Extension
import MixedCalculator.Proofs.Evaluation.FirstFault
import MixedCalculator.Proofs.Evaluation.Likeness
import MixedCalculator.Proofs.Evaluation.Progression
import MixedCalculator.Proofs.Evaluation.Reporting
import MixedCalculator.Proofs.Evaluation.Representation
import MixedCalculator.Proofs.Evaluation.Rereading
import MixedCalculator.Proofs.Evaluation.Step
import MixedCalculator.Proofs.Evaluation.Structure
import MixedCalculator.Proofs.Evaluation.Transport
import MixedCalculator.Proofs.Evaluation.TypedBack
import MixedCalculator.Proofs.Expression.Concatenation
import MixedCalculator.Proofs.Expression.Grammar
import MixedCalculator.Proofs.Expression.LongestMatch
import MixedCalculator.Proofs.Expression.Offence
import MixedCalculator.Proofs.Expression.Redisplay
import MixedCalculator.Proofs.Expression.Rereading
import MixedCalculator.Proofs.Expression.Writing
import MixedCalculator.Proofs.Fraction.Exactness
import MixedCalculator.Proofs.Fraction.Holding
import MixedCalculator.Proofs.Fraction.Laws
import MixedCalculator.Proofs.Fraction.Neutral
import MixedCalculator.Proofs.MixedNumber.Canonical
import MixedCalculator.Proofs.MixedNumber.Exactness
import MixedCalculator.Proofs.MixedNumber.Normal
import MixedCalculator.Proofs.MixedNumber.SignedParts
import MixedCalculator.Proofs.MixedNumber.Value
import MixedCalculator.Proofs.Outcome
import MixedCalculator.Proofs.Screen.Confinement
import MixedCalculator.Proofs.Screen.DrawingOrder
import MixedCalculator.Proofs.Screen.Effect
import MixedCalculator.Proofs.Screen.View
import MixedCalculator.Proofs.Text.Concatenation
import MixedCalculator.Proofs.Text.Cutting
import MixedCalculator.Proofs.Text.Flaw
import MixedCalculator.Proofs.Text.Piece
import MixedCalculator.Proofs.Text.Refusal
import MixedCalculator.Proofs.Text.Runs
import MixedCalculator.Proofs.Text.Spelling
import MixedCalculator.Proofs.Word.Checked
import MixedCalculator.Proofs.Word.Computation
import MixedCalculator.Proofs.Word.Construction
import MixedCalculator.Proofs.Word.Fraction
import MixedCalculator.Screen.Basic
import MixedCalculator.Screen.Frame
import MixedCalculator.Screen.Member
import MixedCalculator.Sign
import MixedCalculator.Text.Blank
import MixedCalculator.Text.Lexeme
import MixedCalculator.Text.Numeral
