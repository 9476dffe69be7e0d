import StructuralRules.CommandLine.Arguments
import StructuralRules.CommandLine.Run
import StructuralRules.CommandLine.Scan
import StructuralRules.Data.Basic
import StructuralRules.Data.Json
import StructuralRules.Data.Reader
import StructuralRules.Engine
import StructuralRules.Error
import StructuralRules.Files.Disk
import StructuralRules.Files.Filter
import StructuralRules.Files.Loader
import StructuralRules.Files.Path
import StructuralRules.Finding
import StructuralRules.Glob.Basic
import StructuralRules.Glob.Scope
import StructuralRules.Main
import StructuralRules.Pattern.Ast
import StructuralRules.Pattern.Basic
import StructuralRules.Pattern.CharSet
import StructuralRules.Pattern.Property
import StructuralRules.Pattern.Reader
import StructuralRules.Pattern.Regex
import StructuralRules.Pattern.Search
import StructuralRules.Proofs.Checked.Body
import StructuralRules.Proofs.Checked.Call
import StructuralRules.Proofs.Checked.Member
import StructuralRules.Proofs.Checked.Rule
import StructuralRules.Proofs.Checked.Site
import StructuralRules.Proofs.Checked.Text
import StructuralRules.Proofs.Data.Tables
import StructuralRules.Proofs.Engine.InPlace
import StructuralRules.Proofs.Engine.Session
import StructuralRules.Proofs.Failure
import StructuralRules.Proofs.Files.LevelPaths
import StructuralRules.Proofs.Files.Lexical
import StructuralRules.Proofs.Files.Loading
import StructuralRules.Proofs.Files.Paths
import StructuralRules.Proofs.Files.RelativePaths
import StructuralRules.Proofs.Files.Resolution
import StructuralRules.Proofs.Files.Trees
import StructuralRules.Proofs.Pattern.Leftmost
import StructuralRules.Proofs.Pattern.Readings
import StructuralRules.Proofs.Pattern.Spans
import StructuralRules.Proofs.Report.Colours
import StructuralRules.Proofs.Report.Counts
import StructuralRules.Proofs.Report.Document
import StructuralRules.Proofs.Report.Order
import StructuralRules.Proofs.Rule.Absence
import StructuralRules.Proofs.Rule.Coverage
import StructuralRules.Proofs.Rule.CoverageReports
import StructuralRules.Proofs.Rule.Excuses
import StructuralRules.Proofs.Rule.FunctionCode
import StructuralRules.Proofs.Rule.Immunity
import StructuralRules.Proofs.Rule.LineReports
import StructuralRules.Proofs.Rule.LineSites
import StructuralRules.Proofs.Rule.Locality
import StructuralRules.Proofs.Rule.Messages
import StructuralRules.Proofs.Rule.OrderChecks
import StructuralRules.Proofs.Rule.Places
import StructuralRules.Proofs.Rule.Regions
import StructuralRules.Proofs.Settings.Gate
import StructuralRules.Proofs.Settings.RoundTrip
import StructuralRules.Proofs.Source.ArgumentLists
import StructuralRules.Proofs.Source.Arguments
import StructuralRules.Proofs.Source.Blanking
import StructuralRules.Proofs.Source.Bodies
import StructuralRules.Proofs.Source.BodyRows
import StructuralRules.Proofs.Source.BodySearch
import StructuralRules.Proofs.Source.Braces
import StructuralRules.Proofs.Source.ByteLexer
import StructuralRules.Proofs.Source.CallSites
import StructuralRules.Proofs.Source.Calls
import StructuralRules.Proofs.Source.CommentSwap
import StructuralRules.Proofs.Source.Comments
import StructuralRules.Proofs.Source.CorpusFiles
import StructuralRules.Proofs.Source.Declarations
import StructuralRules.Proofs.Source.Definitions
import StructuralRules.Proofs.Source.EnumItems
import StructuralRules.Proofs.Source.Fields
import StructuralRules.Proofs.Source.Headers
import StructuralRules.Proofs.Source.LexRun
import StructuralRules.Proofs.Source.LineClasses
import StructuralRules.Proofs.Source.LineNumbers
import StructuralRules.Proofs.Source.MaskLayout
import StructuralRules.Proofs.Source.MaskedTwice
import StructuralRules.Proofs.Source.MemberLines
import StructuralRules.Proofs.Source.Members
import StructuralRules.Proofs.Source.Parts
import StructuralRules.Proofs.Source.Shapes
import StructuralRules.Proofs.Text.Bytes
import StructuralRules.Proofs.Text.Cut
import StructuralRules.Proofs.Text.Lines
import StructuralRules.Proofs.Text.Search
import StructuralRules.Proofs.Text.Tokens
import StructuralRules.Report.Console
import StructuralRules.Report.Document
import StructuralRules.Report.Verdict
import StructuralRules.Rule.Basic
import StructuralRules.Rule.Checker
import StructuralRules.Rule.Site
import StructuralRules.Rule.Spec
import StructuralRules.Rule.Template
import StructuralRules.Settings.Basic
import StructuralRules.Settings.Codec
import StructuralRules.Settings.Discovery
import StructuralRules.Settings.Listing
import StructuralRules.Settings.Template
import StructuralRules.Settings.Validation
import StructuralRules.Source.Argument
import StructuralRules.Source.Body
import StructuralRules.Source.Call
import StructuralRules.Source.Construct
import StructuralRules.Source.Corpus
import StructuralRules.Source.File
import StructuralRules.Source.Lex
import StructuralRules.Source.LineClass
import StructuralRules.Source.Member
import StructuralRules.Text.Basic
import StructuralRules.Text.Utf8
import StructuralRules.Toml.Document
import StructuralRules.Toml.Draft
import StructuralRules.Toml.Scalar
import StructuralRules.Unicode.CaseFold
import StructuralRules.Unicode.Category
import StructuralRules.Unicode.Script
import StructuralRules.Unicode.Word
