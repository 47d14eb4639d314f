import StepGlue.CommandLine
import StepGlue.Config
import StepGlue.Decode
import StepGlue.Definition
import StepGlue.Diagnostic
import StepGlue.Document
import StepGlue.Expression
import StepGlue.Feature.Index
import StepGlue.FileId
import StepGlue.FileMap
import StepGlue.FileTree
import StepGlue.Glue.Extractor
import StepGlue.Json
import StepGlue.Keyword
import StepGlue.Main
import StepGlue.Marker.Kind
import StepGlue.Marker.Report
import StepGlue.Marker.Store
import StepGlue.Parameter
import StepGlue.Pattern
import StepGlue.Project.Root
import StepGlue.Project.Scan
import StepGlue.Repository
import StepGlue.Server.Message
import StepGlue.Session.Basic
import StepGlue.Session.Frame
import StepGlue.Step
import StepGlue.Url.Basic
import StepGlue.Workspace.Build
import StepGlue.Proofs.FileMap
import StepGlue.Proofs.Marker.Store
import StepGlue.Proofs.Marker.Batch
import StepGlue.Proofs.Marker.Report
import StepGlue.Proofs.Repository
import StepGlue.Proofs.Workspace.Build
import StepGlue.Proofs.Workspace.Run
import StepGlue.Proofs.Workspace.Incremental
import StepGlue.Proofs.Workspace.Freshness
import StepGlue.Proofs.Regex.Search
import StepGlue.Proofs.Except
import StepGlue.Proofs.Regex.Tree
import StepGlue.Proofs.Regex.Bounds
import StepGlue.Proofs.Regex.Enclosed.Class
import StepGlue.Proofs.Regex.Enclosed.Group
import StepGlue.Proofs.Regex.Enclosed.Pattern
import StepGlue.Proofs.Pattern.Anchoring
import StepGlue.Proofs.Regex.Language
import StepGlue.Proofs.Regex.Plain
import StepGlue.Proofs.Regex.Compose
import StepGlue.Proofs.Regex.Piece
import StepGlue.Proofs.Parameter
import StepGlue.Proofs.Expression.Meaning
import StepGlue.Proofs.Project.Root
import StepGlue.Proofs.Server.Owner
import StepGlue.Proofs.Workspace.Forgetting
import StepGlue.Proofs.Marker.Turn
import StepGlue.Proofs.Workspace.Turns
import StepGlue.Proofs.Workspace.Notices
import StepGlue.Proofs.Workspace.RemovalOrder
import StepGlue.Proofs.Workspace.Telling
import StepGlue.Proofs.Server.Dialogue
import StepGlue.Proofs.Server.Ranges
import StepGlue.Proofs.Workspace.Residue
import StepGlue.Proofs.Marker.Client
import StepGlue.Proofs.Workspace.Refusals
import StepGlue.Proofs.Workspace.Contribution
import StepGlue.Proofs.Workspace.Recalculation
import StepGlue.Proofs.Workspace.Settling
import StepGlue.Proofs.Expression.Lexing
import StepGlue.Proofs.Pattern.Dialects
import StepGlue.Proofs.Document
import StepGlue.Proofs.Marker.Verdict
import StepGlue.Proofs.Feature.Placeholder
import StepGlue.Proofs.Regex.Replacement
import StepGlue.Proofs.Feature.Substitution
import StepGlue.Proofs.Marker.Place
import StepGlue.Proofs.Text.Offsets
import StepGlue.Proofs.Document.Locate
import StepGlue.Proofs.Glue.Annotation
import StepGlue.Proofs.LineNumber
import StepGlue.Proofs.LineLength
import StepGlue.Proofs.FileId.Resolution
import StepGlue.Proofs.Repository.History
import StepGlue.Proofs.Server.Opening
import StepGlue.Proofs.Expression.Fault
import StepGlue.Proofs.Pattern.Literal
import StepGlue.Proofs.Glue.Attribute
import StepGlue.Proofs.Regex.Class
import StepGlue.Proofs.Glue.Annotation.Written
import StepGlue.Proofs.Json
import StepGlue.Proofs.Marker.Payload
import StepGlue.Proofs.Project.Scan
import StepGlue.Proofs.Feature.Index
import StepGlue.Proofs.Glue.Annotation.Comment
