import StrategyScript.Command.Arguments
import StrategyScript.Command.Basic
import StrategyScript.Config.Document
import StrategyScript.Config.Fault
import StrategyScript.Config.Read
import StrategyScript.Config.Settings
import StrategyScript.Config.Validate
import StrategyScript.Csv.Reader
import StrategyScript.Csv.Writer
import StrategyScript.Fault
import StrategyScript.Host.Basic
import StrategyScript.Host.Tree
import StrategyScript.Indicator.Average
import StrategyScript.Indicator.Deviation
import StrategyScript.Indicator.Strength
import StrategyScript.Indicator.Window
import StrategyScript.Main
import StrategyScript.Market.Bar
import StrategyScript.Market.Date
import StrategyScript.Market.Field
import StrategyScript.Market.Snapshot
import StrategyScript.Market.Table
import StrategyScript.Number.Arithmetic
import StrategyScript.Number.Read
import StrategyScript.Number.Shortest
import StrategyScript.Number.Text
import StrategyScript.Parse.Cursor
import StrategyScript.Parse.Expr
import StrategyScript.Parse.Fault
import StrategyScript.Parse.Program
import StrategyScript.Parse.Stmt
import StrategyScript.Run.Argument
import StrategyScript.Run.Builtin
import StrategyScript.Run.Evaluate
import StrategyScript.Run.Fault
import StrategyScript.Run.Memory
import StrategyScript.Run.Operator
import StrategyScript.Run.Script
import StrategyScript.Run.Session
import StrategyScript.Scope.Count
import StrategyScript.Scope.Forest
import StrategyScript.Source.Position
import StrategyScript.Store.Dictionary
import StrategyScript.Syntax.Declared
import StrategyScript.Syntax.Expr
import StrategyScript.Syntax.Print
import StrategyScript.Syntax.Stmt
import StrategyScript.Text.Blank
import StrategyScript.Text.Layout
import StrategyScript.Text.Letter
import StrategyScript.Text.Lowercase
import StrategyScript.Text.Property
import StrategyScript.Text.Quoted
import StrategyScript.Text.Visible
import StrategyScript.Token.Basic
import StrategyScript.Token.Kind
import StrategyScript.Token.Lexer
import StrategyScript.Trade.Action
import StrategyScript.Trade.Arguments
import StrategyScript.Trade.Csv
import StrategyScript.Trade.Log
import StrategyScript.Value.Basic
import StrategyScript.Value.Builtin
import StrategyScript.Proofs.Run.Relocate
import StrategyScript.Proofs.Run.Fuel
import StrategyScript.Proofs.Run.Invariant
import StrategyScript.Proofs.Run.Limits
import StrategyScript.Proofs.Run.Turn
import StrategyScript.Proofs.Parse.Accord
import StrategyScript.Proofs.Syntax.Meet
import StrategyScript.Proofs.Parse.Made
import StrategyScript.Proofs.Parse.Grammar
import StrategyScript.Proofs.Parse.Layout
import StrategyScript.Proofs.Run.Layout
import StrategyScript.Proofs.Number.Sign
import StrategyScript.Proofs.Number.Text
import StrategyScript.Proofs.Syntax.Render
import StrategyScript.Proofs.Token.Spell
import StrategyScript.Proofs.Token.Render
import StrategyScript.Proofs.Token.Proper
import StrategyScript.Proofs.Parse.Post
import StrategyScript.Proofs.Parse.Output
import StrategyScript.Proofs.Parse.Read
import StrategyScript.Proofs.Parse.ReadExpr
import StrategyScript.Proofs.Parse.ReadLoosely
import StrategyScript.Proofs.Parse.ReadStmt
import StrategyScript.Proofs.Parse.Roundtrip
import StrategyScript.Proofs.Syntax.Sign
import StrategyScript.Proofs.Parse.Walk
import StrategyScript.Proofs.Parse.WalkExpr
import StrategyScript.Proofs.Parse.Recovery
import StrategyScript.Proofs.Parse.Account
import StrategyScript.Proofs.Parse.Bounds
import StrategyScript.Proofs.Token.Span
import StrategyScript.Proofs.Token.Item
import StrategyScript.Proofs.Syntax.Chain
import StrategyScript.Proofs.Parse.Chain
import StrategyScript.Proofs.Syntax.Height
import StrategyScript.Proofs.Parse.Height
import StrategyScript.Proofs.Run.Cleanup
import StrategyScript.Proofs.Run.Hygiene
import StrategyScript.Proofs.Run.Rooted
import StrategyScript.Proofs.Scope.Count
import StrategyScript.Proofs.Run.Live
import StrategyScript.Proofs.Run.Release
import StrategyScript.Proofs.Run.Shadowing
import StrategyScript.Proofs.Run.Containers
import StrategyScript.Proofs.Run.Ledger
import StrategyScript.Proofs.Run.Trades
import StrategyScript.Proofs.Run.Globals
import StrategyScript.Proofs.Run.Lines
import StrategyScript.Proofs.Run.Budget
import StrategyScript.Proofs.Run.LoopFree
import StrategyScript.Proofs.Run.Lexical
import StrategyScript.Proofs.Command.Run
import StrategyScript.Proofs.Run.Returning
import StrategyScript.Proofs.Parse.Counter
import StrategyScript.Proofs.Run.TradePaths
import StrategyScript.Proofs.Run.Desugar
import StrategyScript.Proofs.Scope.Lookup
import StrategyScript.Proofs.Indicator.Average
import StrategyScript.Proofs.Market.Access
import StrategyScript.Proofs.Config.Settings
import StrategyScript.Proofs.Parse.Branch
import StrategyScript.Proofs.Parse.Caret
import StrategyScript.Proofs.Parse.Word
import StrategyScript.Proofs.Parse.Names
import StrategyScript.Proofs.Run.Names
import StrategyScript.Proofs.Config.Symbol
import StrategyScript.Proofs.Value.Equality
import StrategyScript.Proofs.Market.Table
import StrategyScript.Proofs.Csv.Roundtrip
import StrategyScript.Proofs.Number.Interval
import StrategyScript.Proofs.Number.Distinct
import StrategyScript.Proofs.Trade.Csv
import StrategyScript.Proofs.Number.Extreme
import StrategyScript.Proofs.Number.Numeral
import StrategyScript.Proofs.Parse.Numeral
