import LoxLex.Directory
import LoxLex.Main
import LoxLex.Proofs.LongestMatch
import LoxLex.Proofs.SessionAgreement
import LoxLex.Proofs.SourceSpans
import LoxLex.Proofs.ErrorAutomaton
import LoxLex.Proofs.Relocation
import LoxLex.Proofs.Unparsing
import LoxLex.Proofs.Locality
import LoxLex.Proofs.Blanking
import LoxLex.Proofs.LineEndings
import LoxLex.Proofs.TokenDumps
import LoxLex.Proofs.Resumption
import LoxLex.ByteCursor
import LoxLex.CursorOperation
import LoxLex.Proofs.CursorRefinement
import LoxLex.Proofs.OpenStrings
import LoxLex.Proofs.LogLevels
import LoxLex.Proofs.Rounding
import LoxLex.Proofs.ShortestDecimals
import LoxLex.Proofs.NumberTexts
import LoxLex.Proofs.Exhaustion
import LoxLex.Proofs.CutSafety
import LoxLex.Proofs.StopPoints
import LoxLex.Proofs.FileRuns
import LoxLex.Proofs.ScanTrace
import LoxLex.Proofs.ValueEquality
import LoxLex.WordCursor
import LoxLex.CursorProgram
import LoxLex.Proofs.OutputLines
import LoxLex.Proofs.CursorPrograms
import LoxLex.Proofs.PositionArithmetic
import LoxLex.Proofs.ArgumentSteps
import LoxLex.Proofs.CommandLineReading
import LoxLex.Proofs.UsageErrors
import LoxLex.Proofs.DirectoryPaths
