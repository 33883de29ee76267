import AccountView.Account
import AccountView.Age
import AccountView.Calendar
import AccountView.Calendar.Lemmas
import AccountView.Clock.Basic
import AccountView.Clock.Handles
import AccountView.Clock.Reading
import AccountView.CommandLine.Basic
import AccountView.CommandLine.Reader
import AccountView.Countdown
import AccountView.Decimal
import AccountView.Decimal.Binary64
import AccountView.Decimal.Shortest
import AccountView.Directory
import AccountView.Document.Account
import AccountView.Document.Fault
import AccountView.Document.Literal
import AccountView.Document.Numeral
import AccountView.Document.Reader
import AccountView.Document.Record
import AccountView.Document.Skipper
import AccountView.Document.Value
import AccountView.FileTree
import AccountView.Instant
import AccountView.InstantText.Reader
import AccountView.InstantText.Writer
import AccountView.LocalTime
import AccountView.Log
import AccountView.Main
import AccountView.Profile
import AccountView.Program
import AccountView.Proofs.Age
import AccountView.Proofs.Calendar
import AccountView.Proofs.Clock.Adjusted
import AccountView.Proofs.Clock.Direction
import AccountView.Proofs.Clock.Exact
import AccountView.Proofs.Clock.Families
import AccountView.Proofs.Clock.Forward
import AccountView.Proofs.Clock.Handles
import AccountView.Proofs.Clock.Landing
import AccountView.Proofs.Clock.Pinning
import AccountView.Proofs.Clock.Shifts
import AccountView.Proofs.CommandLine
import AccountView.Proofs.CommandLine.Arrangements
import AccountView.Proofs.CommandLine.Groups
import AccountView.Proofs.CommandLine.Settings
import AccountView.Proofs.CommandLine.Sides
import AccountView.Proofs.Countdown
import AccountView.Proofs.Document.Acceptance
import AccountView.Proofs.Document.Changes
import AccountView.Proofs.Document.Framing
import AccountView.Proofs.Document.Grammar
import AccountView.Proofs.Document.Integers
import AccountView.Proofs.Document.MemberOrder
import AccountView.Proofs.Document.Numerals
import AccountView.Proofs.Document.Positions
import AccountView.Proofs.Document.Records
import AccountView.Proofs.Document.Skipping
import AccountView.Proofs.Document.Slots
import AccountView.Proofs.Document.Strings
import AccountView.Proofs.Document.Truncation
import AccountView.Proofs.Document.Writing
import AccountView.Proofs.InstantText
import AccountView.Proofs.LocalTime
import AccountView.Proofs.Outcome
import AccountView.Proofs.Profile
import AccountView.Proofs.Profile.Lines
import AccountView.Proofs.Program.Pinned
import AccountView.Proofs.Program.Printed
import AccountView.Proofs.Session
import AccountView.Proofs.Session.Forward
import AccountView.Proofs.Stamp.Elapsed
import AccountView.Proofs.Stamp.Expiry
import AccountView.Proofs.Stamp.Order
import AccountView.Proofs.Stamp.Passing
import AccountView.Proofs.Stamp.Spelling
import AccountView.Proofs.Storage
import AccountView.Proofs.WireTime
import AccountView.Proofs.WireTime.Readable
import AccountView.Role
import AccountView.Session
import AccountView.Stamp
import AccountView.Storage
import AccountView.Text.Hidden
import AccountView.Text.Quoted
import AccountView.Viewpoint
import AccountView.WireTime
import AccountView.Zone
