import TypedSql.Catalog.Encoding
import TypedSql.Files.Tree
import TypedSql.Main
import TypedSql.Proofs.Report.Append
import TypedSql.Proofs.Report.CommonTable
import TypedSql.Proofs.Report.Joins
import TypedSql.Proofs.Report.Located
import TypedSql.Proofs.Report.ParamNames
import TypedSql.Proofs.Report.References
import TypedSql.Proofs.Schema.Change
import TypedSql.Proofs.Schema.ColumnNames
import TypedSql.Proofs.Reference.FromList
import TypedSql.Proofs.Schema.RelationNames
import TypedSql.Proofs.Expr.Nullability
import TypedSql.Proofs.Report.Overrides
import TypedSql.Proofs.Report.StarColumns
import TypedSql.Proofs.Report.Views
import TypedSql.Proofs.Schema.Append
import TypedSql.Proofs.Report.ParamTokens
import TypedSql.Proofs.Report.QualifiedColumn
import TypedSql.Proofs.Schema.Frame
import TypedSql.Proofs.Report.OtherTables
import TypedSql.Proofs.Schema.KeptTables
import TypedSql.Proofs.Token.Lossless
import TypedSql.Proofs.Scope.Subquery
import TypedSql.Proofs.Query.Written
import TypedSql.Proofs.Scope.Origin
import TypedSql.Proofs.Schema.KeyColumns
import TypedSql.Proofs.Schema.NewTable
import TypedSql.Proofs.Report.BareColumn
import TypedSql.Proofs.Scope.Partition
import TypedSql.Proofs.Report.InListParams
import TypedSql.Proofs.Report.InsertedValues
import TypedSql.Proofs.Report.ComparedParams
import TypedSql.Proofs.Report.ParamMarks
import TypedSql.Proofs.Query.Occurrences
import TypedSql.Proofs.Reference.WithClause
import TypedSql.Proofs.Reference.MainStatement
import TypedSql.Proofs.Token.RoundTrip
import TypedSql.Proofs.Token.Unreadable
import TypedSql.Proofs.Schema.Triggers
import TypedSql.Proofs.Schema.ColumnTurns
import TypedSql.Proofs.Types.TextForm
import TypedSql.Proofs.Report.AllDiagnostics
import TypedSql.Proofs.Token.Matching
import TypedSql.Proofs.Catalog.RoundTrip
import TypedSql.Proofs.Report.SchemaDiagnostics
import TypedSql.Proofs.Scope.Slots
