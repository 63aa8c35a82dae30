import KeyDispensary.Identity.Json
import KeyDispensary.Main
import KeyDispensary.Proofs.Keys.Records
import KeyDispensary.Proofs.Keys.Sharing
import KeyDispensary.Session
import KeyDispensary.Store.Rows.Lookup
import KeyDispensary.Proofs.Keys.Missing
import KeyDispensary.Proofs.Bytes
import KeyDispensary.Proofs.Keys.Uploads
import KeyDispensary.Proofs.Keys.Reupload
import KeyDispensary.Proofs.Keys.Exhaustion
import KeyDispensary.Proofs.Keys.Errands
import KeyDispensary.Proofs.Keys.Accounts
import KeyDispensary.Proofs.Store.Following
import KeyDispensary.Proofs.Keys.Shelf
import KeyDispensary.Proofs.Keys.Shelves
import KeyDispensary.Proofs.Keys.Filled
import KeyDispensary.Proofs.Session.Standing
import KeyDispensary.Proofs.Session.Refinement
import KeyDispensary.Proofs.Session.Interchange
import KeyDispensary.Proofs.Store.Transactions
import KeyDispensary.Proofs.Keys.Deletions
import KeyDispensary.Proofs.Keys.Enumeration
import KeyDispensary.Proofs.Keys.Membership
import KeyDispensary.Proofs.Keys.Isolation
import KeyDispensary.Proofs.Keys.Failures
import KeyDispensary.Proofs.Keys.Falling
import KeyDispensary.Proofs.Keys.Fallback
import KeyDispensary.Proofs.Store.Selection
import KeyDispensary.Proofs.Store.PageWalks
import KeyDispensary.Proofs.Keys.Draining
import KeyDispensary.Proofs.Keys.Departures
import KeyDispensary.Proofs.Keys.Reordering
import KeyDispensary.Proofs.Keys.Claiming
import KeyDispensary.Proofs.Keys.Pursuit
import KeyDispensary.Proofs.Admin.Commands
import KeyDispensary.Proofs.Keys.Streaming
import KeyDispensary.Proofs.Json.Repeats
import KeyDispensary.Proofs.Keys.Codec
import KeyDispensary.Proofs.Config.Fields
import KeyDispensary.Proofs.Config.Overrides
import KeyDispensary.Proofs.Config.RoundTrip
import KeyDispensary.Proofs.Admin.Effects
import KeyDispensary.Proofs.Identity.Forms
import KeyDispensary.Proofs.Session.Reopening
