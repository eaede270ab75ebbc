import ByteMachine.Batch
import ByteMachine.CommandLine
import ByteMachine.Config
import ByteMachine.Console
import ByteMachine.Fault
import ByteMachine.Files
import ByteMachine.History
import ByteMachine.Identifier
import ByteMachine.Literal
import ByteMachine.Machine.Access
import ByteMachine.Machine.Arithmetic
import ByteMachine.Machine.Builtin
import ByteMachine.Machine.Core
import ByteMachine.Machine.Execution
import ByteMachine.Machine.Settings
import ByteMachine.Main
import ByteMachine.Number.Binary128
import ByteMachine.Number.Binary16
import ByteMachine.Number.Binary64
import ByteMachine.Number.Decimal
import ByteMachine.Number.Integers
import ByteMachine.Number.Power
import ByteMachine.Number.Rounding
import ByteMachine.Proofs.Acceptance
import ByteMachine.Proofs.AddressSums
import ByteMachine.Proofs.Assignment
import ByteMachine.Proofs.Atomicity
import ByteMachine.Proofs.ByteOwners
import ByteMachine.Proofs.Bytes
import ByteMachine.Proofs.Canonicity
import ByteMachine.Proofs.Casting
import ByteMachine.Proofs.Catalogs
import ByteMachine.Proofs.Cleaning
import ByteMachine.Proofs.Collection
import ByteMachine.Proofs.Compatibility
import ByteMachine.Proofs.Consistency
import ByteMachine.Proofs.Consoles
import ByteMachine.Proofs.Denotation
import ByteMachine.Proofs.Derivation
import ByteMachine.Proofs.Discipline
import ByteMachine.Proofs.Drivers
import ByteMachine.Proofs.Elements
import ByteMachine.Proofs.Expressions
import ByteMachine.Proofs.FloatBytes
import ByteMachine.Proofs.FreshNames
import ByteMachine.Proofs.Functions
import ByteMachine.Proofs.Grammar
import ByteMachine.Proofs.Growth
import ByteMachine.Proofs.Halves
import ByteMachine.Proofs.HeapBlocks
import ByteMachine.Proofs.Hereditary
import ByteMachine.Proofs.Histories
import ByteMachine.Proofs.Indexing
import ByteMachine.Proofs.Instructions
import ByteMachine.Proofs.IntegerBytes
import ByteMachine.Proofs.LastingTables
import ByteMachine.Proofs.Ledgers
import ByteMachine.Proofs.Literals
import ByteMachine.Proofs.Lockstep
import ByteMachine.Proofs.Machines
import ByteMachine.Proofs.MeasuredRuns
import ByteMachine.Proofs.Measures
import ByteMachine.Proofs.Mirrors
import ByteMachine.Proofs.Observation
import ByteMachine.Proofs.OperandRanges
import ByteMachine.Proofs.Operands
import ByteMachine.Proofs.OrderSwitch
import ByteMachine.Proofs.PointerArithmetic
import ByteMachine.Proofs.Pointers
import ByteMachine.Proofs.Promotion
import ByteMachine.Proofs.ProperTokens
import ByteMachine.Proofs.Quadruples
import ByteMachine.Proofs.QuotedTokens
import ByteMachine.Proofs.Ranges
import ByteMachine.Proofs.Reachability
import ByteMachine.Proofs.Reading
import ByteMachine.Proofs.Reconfiguration
import ByteMachine.Proofs.Release
import ByteMachine.Proofs.Resolution
import ByteMachine.Proofs.Sizes
import ByteMachine.Proofs.SlotSearch
import ByteMachine.Proofs.SourceForm
import ByteMachine.Proofs.Spelling
import ByteMachine.Proofs.StackDiscipline
import ByteMachine.Proofs.StackEffect
import ByteMachine.Proofs.Statements
import ByteMachine.Proofs.States
import ByteMachine.Proofs.Steadiness
import ByteMachine.Proofs.StoredTexts
import ByteMachine.Proofs.StoredValues
import ByteMachine.Proofs.TableChanges
import ByteMachine.Proofs.Tables
import ByteMachine.Proofs.TextBytes
import ByteMachine.Proofs.TextLines
import ByteMachine.Proofs.TimeTravel
import ByteMachine.Proofs.Traces
import ByteMachine.Proofs.TypeTags
import ByteMachine.Proofs.Views
import ByteMachine.Proofs.Widening
import ByteMachine.Proofs.Words
import ByteMachine.Proofs.WriteThrough
import ByteMachine.Screen.Cell
import ByteMachine.Screen.Display
import ByteMachine.Screen.Panes
import ByteMachine.Screen.Theme
import ByteMachine.Statement.Clean
import ByteMachine.Statement.Lexer
import ByteMachine.Statement.Parser
import ByteMachine.Statement.Token
import ByteMachine.Statement.Tree
import ByteMachine.Storage.ByteOrder
import ByteMachine.Storage.Memory
import ByteMachine.Storage.Rendering
import ByteMachine.Storage.TypeTag
import ByteMachine.Symbols.Placement
import ByteMachine.Symbols.Region
import ByteMachine.Symbols.SplitMix
import ByteMachine.Symbols.Table
import ByteMachine.Symbols.Variable
import ByteMachine.Text.Blank
import ByteMachine.Text.CharacterTable
import ByteMachine.Text.Cluster
import ByteMachine.Text.ClusterTable
import ByteMachine.Text.Hex
import ByteMachine.Text.Quoted
import ByteMachine.Text.Width
import ByteMachine.Text.WidthTable
import ByteMachine.Types.Catalog
import ByteMachine.Types.Scalar
import ByteMachine.Types.Ty
import ByteMachine.Workbench
import ByteMachine.Workbench.Drawing
import ByteMachine.Workbench.Session
