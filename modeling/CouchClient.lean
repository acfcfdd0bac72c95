import CouchClient.Text.Basic
import CouchClient.Text.Printable
import CouchClient.Text.Quoted
import CouchClient.Text.Utf8
import CouchClient.Number.Binary64
import CouchClient.Number.Shortest
import CouchClient.Entries
import CouchClient.Json.Basic
import CouchClient.Json.Lexeme
import CouchClient.Json.Reading
import CouchClient.Value.Basic
import CouchClient.Value.Display
import CouchClient.Value.Encoding
import CouchClient.Url.Build
import CouchClient.Url.Host
import CouchClient.Url.Resolve
import CouchClient.Http.Headers
import CouchClient.Http.Status
import CouchClient.Error
import CouchClient.QueryOption
import CouchClient.UpdateSeq
import CouchClient.Http.Body
import CouchClient.Http.Response
import CouchClient.Rows.Buffer
import CouchClient.Rows.Phase
import CouchClient.Rows.Scanner
import CouchClient.Rows.Stream
import CouchClient.Action
import CouchClient.Http.Replay
import CouchClient.Http.Request
import CouchClient.Session.Basic
import CouchClient.Database.Basic
import CouchClient.Database.Document
import CouchClient.Database.Documents
import CouchClient.Database.Listings
import CouchClient.Database.Maintenance
import CouchClient.Session.Redirect
import CouchClient.Session.Stream
import CouchClient.Proofs.Rows.Chunking
import CouchClient.Proofs.Rows.Agreement
import CouchClient.Proofs.Rows.Truncation
import CouchClient.Proofs.Session.Pool
import CouchClient.Proofs.Session.Chain
import CouchClient.Proofs.Session.Redirects
import CouchClient.Proofs.Session.Custody
import CouchClient.Proofs.Http.Ledger
import CouchClient.Proofs.Rows.Feeding
import CouchClient.Proofs.Rows.Bodies
import CouchClient.Proofs.Database.Operations
import CouchClient.Proofs.Database.Requests
import CouchClient.Proofs.Database.Accounting
import CouchClient.Proofs.Database.Closing
import CouchClient.Proofs.Database.Paths
import CouchClient.Proofs.Value.RoundTrip
import CouchClient.Proofs.Database.Documented
import CouchClient.Proofs.Http.Failures
import CouchClient.Proofs.Database.Writes
import CouchClient.Proofs.Rows.Lifetime
import CouchClient.Proofs.Session.Sites
import CouchClient.Proofs.Url.Joining
import CouchClient.Proofs.Http.Fields
import CouchClient.Proofs.Http.Targets
import CouchClient.Proofs.Database.Sending
import CouchClient.Proofs.Http.Portions
import CouchClient.Proofs.Database.Children
import CouchClient.Proofs.Http.Precedence
import CouchClient.Proofs.Database.Constants
import CouchClient.Proofs.Rows.Pace
import CouchClient.Proofs.Database.Naming
import CouchClient.Proofs.Json.Beginnings
import CouchClient.Proofs.Json.Limits
