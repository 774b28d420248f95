import ScriptLexer.Command.Arguments
import ScriptLexer.Command.Basic
import ScriptLexer.Command.Word
import ScriptLexer.Console
import ScriptLexer.Diagnostic
import ScriptLexer.Encoding.Basic
import ScriptLexer.Encoding.SingleByte
import ScriptLexer.Encoding.Utf16
import ScriptLexer.Encoding.Utf8
import ScriptLexer.Files.Opening
import ScriptLexer.Files.Reading
import ScriptLexer.Files.Tree
import ScriptLexer.LexError
import ScriptLexer.Lexer.Basic
import ScriptLexer.Lexer.Heap
import ScriptLexer.Lexer.Session
import ScriptLexer.Lexer.Tokenize
import ScriptLexer.Lexer.Watched
import ScriptLexer.Log.Calls
import ScriptLexer.Log.Level
import ScriptLexer.Log.Registry
import ScriptLexer.Main
import ScriptLexer.Numeric.Binary64
import ScriptLexer.Numeric.Numeral
import ScriptLexer.Numeric.Shortest
import ScriptLexer.Numeric.Written
import ScriptLexer.Proofs.Adjacency
import ScriptLexer.Proofs.Blanking
import ScriptLexer.Proofs.CarriageReturns
import ScriptLexer.Proofs.Characters
import ScriptLexer.Proofs.Cursor
import ScriptLexer.Proofs.CutUniqueness
import ScriptLexer.Proofs.Delimiters
import ScriptLexer.Proofs.Endings
import ScriptLexer.Proofs.FailedSteps
import ScriptLexer.Proofs.Grammar
import ScriptLexer.Proofs.InputLines
import ScriptLexer.Proofs.LevelSetting
import ScriptLexer.Proofs.Lexemes
import ScriptLexer.Proofs.LineEnds
import ScriptLexer.Proofs.Lines
import ScriptLexer.Proofs.LoggerCalls
import ScriptLexer.Proofs.LoggerHistory
import ScriptLexer.Proofs.LoggerNames
import ScriptLexer.Proofs.Lookahead
import ScriptLexer.Proofs.MalformedBytes
import ScriptLexer.Proofs.MalformedScripts
import ScriptLexer.Proofs.MalformedSequences
import ScriptLexer.Proofs.Modes
import ScriptLexer.Proofs.NearestValues
import ScriptLexer.Proofs.NumberLiterals
import ScriptLexer.Proofs.NumberText
import ScriptLexer.Proofs.Placement
import ScriptLexer.Proofs.PrintedRuns
import ScriptLexer.Proofs.Printing
import ScriptLexer.Proofs.Prompting
import ScriptLexer.Proofs.Quotation
import ScriptLexer.Proofs.Readings
import ScriptLexer.Proofs.Recognition
import ScriptLexer.Proofs.Renaming
import ScriptLexer.Proofs.Rewriting
import ScriptLexer.Proofs.Rounding
import ScriptLexer.Proofs.SafeTokenizing
import ScriptLexer.Proofs.ScriptFiles
import ScriptLexer.Proofs.Sessions
import ScriptLexer.Proofs.ShortestDecimals
import ScriptLexer.Proofs.ShortestSearch
import ScriptLexer.Proofs.Spacing
import ScriptLexer.Proofs.Tokenizing
import ScriptLexer.Proofs.Utf8Decoding
import ScriptLexer.Proofs.Verbosity
import ScriptLexer.Proofs.WatchedReaders
import ScriptLexer.Proofs.Watching
import ScriptLexer.Proofs.WrittenLiterals
import ScriptLexer.Proofs.WrittenNumbers
import ScriptLexer.Run.Basic
import ScriptLexer.Run.File
import ScriptLexer.Run.Prompt
import ScriptLexer.Scan.Basic
import ScriptLexer.Scan.Cut
import ScriptLexer.Scan.Lead
import ScriptLexer.Scan.Piece
import ScriptLexer.Text.Basic
import ScriptLexer.Text.Blank
import ScriptLexer.Text.Capitalized
import ScriptLexer.Text.Case.Context
import ScriptLexer.Text.Case.Lower
import ScriptLexer.Text.Case.Shift
import ScriptLexer.Text.Case.Title
import ScriptLexer.Text.DecimalDigit
import ScriptLexer.Text.Quoted
import ScriptLexer.Text.Ranges
import ScriptLexer.Text.Unprintable
import ScriptLexer.Token.Basic
import ScriptLexer.Token.Keyword
import ScriptLexer.Token.Kind
import ScriptLexer.Token.Symbol
