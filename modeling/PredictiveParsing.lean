import PredictiveParsing.Script.Scan
import PredictiveParsing.Proofs.Lexicon.Anchoring
import PredictiveParsing.Proofs.Lexicon.FixedTexts
import PredictiveParsing.Proofs.Lexicon.Skipping
import PredictiveParsing.Proofs.Ecma.Printing
import PredictiveParsing.Proofs.Ecma.Joining
import PredictiveParsing.Proofs.Ecma.Prefix
import PredictiveParsing.Proofs.Predict.Probing
import PredictiveParsing.Proofs.Ecma.Spans
import PredictiveParsing.Proofs.Ecma.Errors
import PredictiveParsing.Proofs.Ecma.Naming
import PredictiveParsing.Proofs.Parse.Milestones
import PredictiveParsing.Proofs.Parse.Mismatching
import PredictiveParsing.Proofs.Parse.Reporting
import PredictiveParsing.Proofs.Parse.Repeating
import PredictiveParsing.Proofs.Parse.Restarting
import PredictiveParsing.Proofs.Parse.Scripts
import PredictiveParsing.Proofs.Ecma.Prepending
import PredictiveParsing.Proofs.Ecma.Dropping
import PredictiveParsing.Proofs.Ecma.RegexLiterals
import PredictiveParsing.Proofs.Ecma.LineBreaks
import PredictiveParsing.Proofs.Ecma.Conflicts
import PredictiveParsing.Proofs.Report.Locations
