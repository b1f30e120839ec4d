import ErrorDocs.CommandLine.Program
import ErrorDocs.FileSystem.Listing
import ErrorDocs.Json.Reader
import ErrorDocs.Main
import ErrorDocs.Proofs.Comment.Decoding
import ErrorDocs.Proofs.Comment.Documentable
import ErrorDocs.Proofs.FileSystem.Invariant
import ErrorDocs.Proofs.Scan.Accounting
import ErrorDocs.Proofs.Text.Spelling
import ErrorDocs.Proofs.Text.Encoding
import ErrorDocs.Proofs.Number.Natural
import ErrorDocs.Proofs.Comment.Spelling
import ErrorDocs.Proofs.Comment.Doc
import ErrorDocs.Proofs.Comment.Concatenation
import ErrorDocs.Proofs.Comment.LineEnding
import ErrorDocs.Proofs.Comment.Indentation
import ErrorDocs.Proofs.Comment.TagLine
import ErrorDocs.Proofs.Scheme.Selection
import ErrorDocs.Proofs.Json.Printer
import ErrorDocs.Proofs.Json.Tokens
import ErrorDocs.Proofs.Json.Lexing
import ErrorDocs.Proofs.Scheme.Unclosed
import ErrorDocs.Proofs.FileSystem.Growth
import ErrorDocs.Proofs.Scan.Growth
import ErrorDocs.Proofs.Scan.Excluded
import ErrorDocs.Proofs.CommandLine.Create
import ErrorDocs.Proofs.Json.RoundTrip
import ErrorDocs.Proofs.Scheme.RoundTrip
import ErrorDocs.Proofs.FileSystem.Replacement
import ErrorDocs.Proofs.CommandLine.Init
import ErrorDocs.Proofs.Json.Commented.Lexing
import ErrorDocs.Proofs.Json.Commented.Reading
import ErrorDocs.Proofs.Json.Commented.Regular
import ErrorDocs.Proofs.Config.Acceptance
import ErrorDocs.Proofs.CommandLine.Agreement
import ErrorDocs.Proofs.Config.RoundTrip
import ErrorDocs.Proofs.Comment.Cursor
import ErrorDocs.Proofs.Comment.Division
import ErrorDocs.Proofs.FileSystem.Obstacle
import ErrorDocs.Proofs.Scan.Root
import ErrorDocs.Proofs.FileSystem.Extension
import ErrorDocs.Proofs.CommandLine.Effect
import ErrorDocs.Proofs.Comment.Outline
import ErrorDocs.Proofs.Comment.Reader
import ErrorDocs.Proofs.Comment.Decoration
import ErrorDocs.Proofs.Comment.Position
import ErrorDocs.Proofs.Comment.Appending
import ErrorDocs.Proofs.Scheme.Entry
import ErrorDocs.Proofs.Scheme.Stem
import ErrorDocs.Proofs.Text.Cut
import ErrorDocs.Proofs.Text.Lowercase
import ErrorDocs.Proofs.Scan.Whitelist
import ErrorDocs.Proofs.Json.Commented.Annotation
import ErrorDocs.Proofs.Json.Commented.TrailingComma
import ErrorDocs.Proofs.Config.Annotation
import ErrorDocs.Proofs.CommandLine.Options
