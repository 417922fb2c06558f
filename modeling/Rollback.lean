import Rollback.Checksum.Crc32
import Rollback.CommandLine.Invocation
import Rollback.CommandLine.Run
import Rollback.CommandLine.Texts
import Rollback.CommandLine.Words
import Rollback.Decimal.Shortest
import Rollback.Deployment.Batch
import Rollback.Deployment.Output
import Rollback.Deployment.Unit
import Rollback.Failure
import Rollback.Files.Path
import Rollback.Files.Tree
import Rollback.Json.Decoding
import Rollback.Json.Node
import Rollback.Json.Printer
import Rollback.Json.Value
import Rollback.Main
import Rollback.Pattern.Basic
import Rollback.Pattern.CharSet
import Rollback.Proofs.CommandLine.Options
import Rollback.Proofs.CommandLine.Rescans
import Rollback.Proofs.Deployment.Annotations
import Rollback.Proofs.Deployment.BatchOrder
import Rollback.Proofs.Deployment.CatalogReads
import Rollback.Proofs.Deployment.CatalogUse
import Rollback.Proofs.Deployment.ChainedActions
import Rollback.Proofs.Deployment.Collisions
import Rollback.Proofs.Deployment.FileTargets
import Rollback.Proofs.Deployment.Manifests
import Rollback.Proofs.Deployment.StatementBounds
import Rollback.Proofs.Deployment.TableKeys
import Rollback.Proofs.Files.Walks
import Rollback.Proofs.Files.Writes
import Rollback.Proofs.Json.Documents
import Rollback.Proofs.Json.Records
import Rollback.Proofs.Json.Scalars
import Rollback.Proofs.Json.Values
import Rollback.Proofs.Lists
import Rollback.Proofs.Outcomes
import Rollback.Proofs.Pattern.Extensions
import Rollback.Proofs.Pattern.LetterCase
import Rollback.Proofs.Pattern.Marks
import Rollback.Proofs.Pattern.Places
import Rollback.Proofs.Pattern.Readings
import Rollback.Proofs.Pattern.Searches
import Rollback.Proofs.Pattern.TakenTexts
import Rollback.Proofs.Pattern.WordSteps
import Rollback.Proofs.Repository.Snapshots
import Rollback.Proofs.Repository.Sources
import Rollback.Proofs.Repository.Sweeps
import Rollback.Proofs.Reversal.CatalogDrops
import Rollback.Proofs.Reversal.CommentReversal
import Rollback.Proofs.Reversal.CommentTargets
import Rollback.Proofs.Reversal.Endings
import Rollback.Proofs.Reversal.Inverses
import Rollback.Proofs.Reversal.Markers
import Rollback.Proofs.Reversal.Operands
import Rollback.Proofs.Reversal.RestoredTypes
import Rollback.Proofs.Reversal.RoundTrip
import Rollback.Proofs.Reversal.TableCreation
import Rollback.Proofs.Reversal.ViewRebuilding
import Rollback.Proofs.Schema.BodyLiterals
import Rollback.Proofs.Schema.CatalogDocuments
import Rollback.Proofs.Schema.ClauseTexts
import Rollback.Proofs.Schema.ColumnDefinitions
import Rollback.Proofs.Schema.ColumnLists
import Rollback.Proofs.Schema.ColumnPlaces
import Rollback.Proofs.Schema.ColumnReadings
import Rollback.Proofs.Schema.DeclarationMerge
import Rollback.Proofs.Schema.DeclarationOrder
import Rollback.Proofs.Schema.Distributions
import Rollback.Proofs.Schema.Entries
import Rollback.Proofs.Schema.InPlace
import Rollback.Proofs.Schema.LiteralArguments
import Rollback.Proofs.Schema.Representation
import Rollback.Proofs.Schema.ShadowTables
import Rollback.Proofs.Schema.StatementRuns
import Rollback.Proofs.Schema.StoredComments
import Rollback.Proofs.Schema.StoredViews
import Rollback.Proofs.Schema.TableClauses
import Rollback.Proofs.Sql.ActionExpansion
import Rollback.Proofs.Sql.ActionParts
import Rollback.Proofs.Sql.AlterLines
import Rollback.Proofs.Sql.AlterTable
import Rollback.Proofs.Sql.CanonicalScripts
import Rollback.Proofs.Sql.CommentOperands
import Rollback.Proofs.Sql.CommentStatements
import Rollback.Proofs.Sql.Comments
import Rollback.Proofs.Sql.Identifiers
import Rollback.Proofs.Sql.KeptCharacters
import Rollback.Proofs.Sql.LetterCase
import Rollback.Proofs.Sql.LexemeReadings
import Rollback.Proofs.Sql.Lexing
import Rollback.Proofs.Sql.Listings
import Rollback.Proofs.Sql.PlainNames
import Rollback.Proofs.Sql.QuotedNames
import Rollback.Proofs.Sql.Recognized
import Rollback.Proofs.Sql.Scripts
import Rollback.Proofs.Sql.StatementEnds
import Rollback.Proofs.Sql.StatementLines
import Rollback.Proofs.Sql.StatementNames
import Rollback.Proofs.Sql.ViewStatements
import Rollback.Proofs.Text.Digits
import Rollback.Proofs.Text.Dots
import Rollback.Proofs.Text.LetterCase
import Rollback.Proofs.Text.Pairs
import Rollback.Proofs.Text.UpperCase
import Rollback.Proofs.Text.Words
import Rollback.Proofs.Time.Calendar
import Rollback.Report.BoxTable
import Rollback.Report.Classification
import Rollback.Report.Inspection
import Rollback.Report.Rollback
import Rollback.Repository.CatalogFile
import Rollback.Repository.Discovery
import Rollback.Repository.Scan
import Rollback.Repository.Verification
import Rollback.Reversal.Basic
import Rollback.Reversal.Reconstruction
import Rollback.Reversal.Statement
import Rollback.Schema.Catalog
import Rollback.Schema.Declaration
import Rollback.Schema.Decoding
import Rollback.Schema.Distribution
import Rollback.Schema.Draft
import Rollback.Schema.Encoding
import Rollback.Schema.KeyMap
import Rollback.Schema.StorageOptions
import Rollback.Schema.Table
import Rollback.Settings.Basic
import Rollback.Settings.Document
import Rollback.Settings.Load
import Rollback.Sql.AlterActions
import Rollback.Sql.Encoding
import Rollback.Sql.Grammar
import Rollback.Sql.Lexeme
import Rollback.Sql.Name
import Rollback.Sql.Preview
import Rollback.Sql.Recognition
import Rollback.Sql.Script
import Rollback.Sql.Statement
import Rollback.Sql.TopLevel
import Rollback.Text.Ascii
import Rollback.Text.Blank
import Rollback.Text.Bytes
import Rollback.Text.CaseData
import Rollback.Text.Casing
import Rollback.Text.Pieces
import Rollback.Text.Width
import Rollback.Text.WidthData
import Rollback.Time.Instant
import Rollback.Toml.Document
import Rollback.Toml.Item
import Rollback.Toml.Scalar
import Rollback.Toml.Text
