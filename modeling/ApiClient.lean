import ApiClient.Main
import ApiClient.TypeScript.Sink
import ApiClient.Number.Reading
import ApiClient.Json.Printer
import ApiClient.Proofs.Client.Concatenation
import ApiClient.Proofs.Client.Address
import ApiClient.Proofs.Tree.Gaps
import ApiClient.Proofs.Tree.Induction
import ApiClient.Proofs.TypeScript.Policy
import ApiClient.Proofs.Client.Preview
import ApiClient.Proofs.Text.OneLine
import ApiClient.Proofs.Text.Shift
import ApiClient.Proofs.Layout.Depth
import ApiClient.Proofs.TypeScript.Copied
import ApiClient.Proofs.TypeScript.Depth
import ApiClient.Proofs.Json.Numeral
import ApiClient.Proofs.Json.Quoted
import ApiClient.Proofs.Json.RoundTrip
import ApiClient.Proofs.Json.Fields
import ApiClient.Proofs.Tree.Storage
import ApiClient.Proofs.Tree.RoundTrip
import ApiClient.Proofs.Layout.Nesting
import ApiClient.Proofs.Layout.Pieces
import ApiClient.Proofs.Tree.Words
import ApiClient.Proofs.TypeScript.Nesting
import ApiClient.Proofs.TypeScript.Nullable
import ApiClient.Proofs.Text.Search
import ApiClient.Proofs.Client.Comments
import ApiClient.Proofs.Manifest.Identifier
import ApiClient.Proofs.Client.Naming
import ApiClient.Proofs.Manifest.Requirements
import ApiClient.Proofs.TypeScript.Document
import ApiClient.Proofs.Command.FileSystem
import ApiClient.Proofs.Command.Run
import ApiClient.Proofs.Client.Class
import ApiClient.Proofs.Manifest.UriTemplate
import ApiClient.Proofs.TypeScript.Optional
import ApiClient.Proofs.Tree.Pruned
import ApiClient.Proofs.TypeScript.Omission
import ApiClient.Proofs.Client.ReturnClause
import ApiClient.Proofs.Tree.Alike
import ApiClient.Proofs.TypeScript.Alike
import ApiClient.Proofs.Tree.Places
import ApiClient.Proofs.TypeScript.Pieces
import ApiClient.Proofs.TypeScript.Siblings
import ApiClient.Proofs.Text.DoubleQuoted
import ApiClient.Proofs.TypeScript.Strings
import ApiClient.Proofs.TypeScript.Sink
import ApiClient.Proofs.Layout.Header
import ApiClient.Proofs.Text.Bytes
import ApiClient.Proofs.Manifest.Spans
import ApiClient.Proofs.Client.LineEnds
import ApiClient.Proofs.Client.NamingModes
import ApiClient.Proofs.Layout.Levels
import ApiClient.Proofs.TypeScript.Namespaces
import ApiClient.Proofs.Tree.Restatement
