import LineCalculator.Main
import LineCalculator.Proofs.Reading.Silence
import LineCalculator.Proofs.Reading.FirstLine
import LineCalculator.Proofs.Reading.Grammar
import LineCalculator.Proofs.Reading.Soundness
import LineCalculator.Proofs.Reading.Room
import LineCalculator.Proofs.Reading.Completeness
import LineCalculator.Proofs.Reading.Language
import LineCalculator.Proofs.Reading.Account
import LineCalculator.Proofs.Reading.Thinning
import LineCalculator.Proofs.Reading.Lenience
import LineCalculator.Proofs.Reading.LineAccount
import LineCalculator.Proofs.Reading.Diagnostics
import LineCalculator.Proofs.Reading.Tolerance
import LineCalculator.Proofs.Reading.Abreast
import LineCalculator.Proofs.Reading.NextLine
import LineCalculator.Proofs.Reading.LaterLines
import LineCalculator.Proofs.Reading.Placement
import LineCalculator.Proofs.Evaluation.Chains
import LineCalculator.Proofs.Evaluation.Meaning
import LineCalculator.Proofs.Evaluation.Frame
import LineCalculator.Proofs.Evaluation.Course
import LineCalculator.Proofs.Evaluation.DomainFailure
import LineCalculator.Proofs.Session.History
import LineCalculator.Proofs.Console.Abort
import LineCalculator.Proofs.Scanning.Pieces
import LineCalculator.Proofs.Scanning.Order
import LineCalculator.Proofs.Scanning.Spelling
import LineCalculator.Proofs.Scanning.Separators
import LineCalculator.Proofs.Scanning.Steps
import LineCalculator.Proofs.Scanning.Counter
import LineCalculator.Proofs.Scanning.Counting
import LineCalculator.Proofs.Scanning.Tiling
import LineCalculator.Proofs.Scanning.Driving
import LineCalculator.Proofs.Scanning.LineBreak
import LineCalculator.Proofs.Scanning.LongestMatch
import LineCalculator.Proofs.Scanning.Faultless
import LineCalculator.Proofs.Scanning.Layout
import LineCalculator.Proofs.Scanning.Words
import LineCalculator.Proofs.Scanning.Rendering
import LineCalculator.Proofs.Printing.FewestBrackets
import LineCalculator.Proofs.Numbers.Magnitude
import LineCalculator.Proofs.Evaluation.Footprint
import LineCalculator.Proofs.Evaluation.Visibility
import LineCalculator.Proofs.Console.Modes
import LineCalculator.Proofs.Numbers.Nearest
import LineCalculator.Proofs.Numbers.Literals
import LineCalculator.Proofs.Numbers.Exactness
import LineCalculator.Proofs.Numbers.Remainder
import LineCalculator.Proofs.Numbers.WholeNumbers
import LineCalculator.Proofs.Numbers.Words
import LineCalculator.Proofs.Numbers.Shortest
import LineCalculator.Proofs.Printing.DecimalText
import LineCalculator.Proofs.Printing.SignedNumbers
import LineCalculator.Proofs.Printing.Results
import LineCalculator.Proofs.Reading.Updates
import LineCalculator.Proofs.Evaluation.CompoundAssignment
import LineCalculator.Proofs.Evaluation.Demand
import LineCalculator.Proofs.Reading.FlatText
import LineCalculator.Proofs.Reading.Nesting
import LineCalculator.Proofs.Reading.LessRoom
import LineCalculator.Proofs.Reading.Trace
import LineCalculator.Proofs.Session.Bindings
import LineCalculator.Proofs.Session.InnerLayer
import LineCalculator.Proofs.Evaluation.Trace
import LineCalculator.Proofs.Console.Trace
