import FileWatch.Main
import FileWatch.Query.Fingerprint
import FileWatch.Proofs.Json.Readings
import FileWatch.Proofs.Json.Strings
import FileWatch.Proofs.Json.Documents
import FileWatch.Proofs.Json.Prefixes
import FileWatch.Proofs.Utf8
import FileWatch.Proofs.Messages
import FileWatch.Proofs.Lines
import FileWatch.Proofs.Reader
import FileWatch.Proofs.Json.Faults
import FileWatch.Proofs.Overruns
import FileWatch.Proofs.Json.Texts
import FileWatch.Proofs.Json.Serializable
import FileWatch.Proofs.Json.Written
import FileWatch.Proofs.RoundTrip
import FileWatch.Proofs.Json.Decoded
import FileWatch.Proofs.Replies
import FileWatch.Proofs.Session
import FileWatch.Proofs.Wire
import FileWatch.Proofs.Ownership
import FileWatch.Proofs.Deliveries
import FileWatch.Proofs.Answers
import FileWatch.Proofs.Requests
import FileWatch.Proofs.Json.Overlong
import FileWatch.Proofs.Receptions
import FileWatch.Proofs.Printed
import FileWatch.Proofs.Visits
import FileWatch.Proofs.Wrapping
import FileWatch.Proofs.Reports
import FileWatch.Proofs.Filters
import FileWatch.Proofs.Errands
import FileWatch.Proofs.Runs
import FileWatch.Proofs.Traversal
import FileWatch.Proofs.Words
import FileWatch.Proofs.Preconditions
import FileWatch.Proofs.Selection
import FileWatch.Proofs.SocketPath
import FileWatch.Proofs.Json.Longest
import FileWatch.Proofs.Framing
import FileWatch.Proofs.Stops
import FileWatch.Proofs.Precedence
import FileWatch.Proofs.Fitting
import FileWatch.Proofs.Literal
import FileWatch.Proofs.Verbatim
import FileWatch.Proofs.Tables
import FileWatch.Proofs.Shown
import FileWatch.Proofs.Lists
import FileWatch.Proofs.LowerCase
import FileWatch.Proofs.Sections
import FileWatch.Proofs.ClientSection
import FileWatch.Proofs.Json.Members
import FileWatch.Proofs.Discovery
import FileWatch.Proofs.Fragments
import FileWatch.Proofs.TimeLimits
import FileWatch.Proofs.Masks
import FileWatch.Proofs.Rounding
import FileWatch.Proofs.Timestamps
