import ClassMigration.LogLevel
import ClassMigration.Main
import ClassMigration.Proofs.Stylesheet.RespelledValues
import ClassMigration.Proofs.Edits
import ClassMigration.Proofs.Script.Onward
import ClassMigration.Proofs.KeyedTable
import ClassMigration.Proofs.Stylesheet.RespelledText
import ClassMigration.Proofs.SheetStability
import ClassMigration.Proofs.Stylesheet.PieceMentions
import ClassMigration.Proofs.Stylesheet.RuleMentions
import ClassMigration.Proofs.Script.Lexing
import ClassMigration.Proofs.Script.Standing
import ClassMigration.Proofs.Script.Steps
import ClassMigration.Proofs.Script.Functions
import ClassMigration.Proofs.Script.Literals
import ClassMigration.Proofs.Script.Elements
import ClassMigration.Proofs.Script.Expressions
import ClassMigration.Proofs.Script.Statements
import ClassMigration.Proofs.Splicing
import ClassMigration.Proofs.Undo
import ClassMigration.Proofs.Script.Escapes
import ClassMigration.Proofs.Script.Spelling
import ClassMigration.Proofs.Script.Requoting
import ClassMigration.Proofs.NewValue
import ClassMigration.Proofs.LiteralMeaning
import ClassMigration.Proofs.ImportedNames
import ClassMigration.Proofs.Script.Scopes
import ClassMigration.Proofs.SlotReferents
import ClassMigration.Proofs.SeparateEdits
import ClassMigration.Proofs.SlotSpan
import ClassMigration.Proofs.ScriptSeparation
import ClassMigration.Proofs.Stylesheet.Spelled
import ClassMigration.Proofs.SheetOrder
import ClassMigration.Proofs.SeveralMigrations
import ClassMigration.Proofs.ValueStability
import ClassMigration.Proofs.Overwriting
import ClassMigration.Proofs.FileRuns
import ClassMigration.Proofs.ParallelRuns
import ClassMigration.Proofs.ByteStability
import ClassMigration.Proofs.DirectorySearch
import ClassMigration.Proofs.SlotExtent
import ClassMigration.Proofs.CommandLine.Switches
import ClassMigration.Proofs.CommandLine.Answers
import ClassMigration.Proofs.Script.Quoting
import ClassMigration.Proofs.SkippedBlanks
import ClassMigration.Proofs.Stylesheet.LineColumns
import ClassMigration.Proofs.Stylesheet.SelectorClasses
import ClassMigration.Proofs.TemplateMerging
import ClassMigration.Proofs.Stylesheet.Tiling
import ClassMigration.Proofs.DocumentOrder
import ClassMigration.Proofs.RuleOrder
import ClassMigration.Proofs.Script.SiteOrder
import ClassMigration.Proofs.VisibleChange
import ClassMigration.Proofs.QuoteChoices
import ClassMigration.Proofs.KeyedLists
import ClassMigration.Proofs.TableBuilding
import ClassMigration.Proofs.KeysAndNames
import ClassMigration.Proofs.Spellings
import ClassMigration.Proofs.RenamedImports
import ClassMigration.Proofs.EditOrder
import ClassMigration.Proofs.PathLists
import ClassMigration.Proofs.DistinctFiles
import ClassMigration.Proofs.LiteralPlaces
import ClassMigration.Proofs.BareQuotes
