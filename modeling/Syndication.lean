import Syndication.Main
import Syndication.Proofs.Feed.Payload
import Syndication.Proofs.Program.Clocks
import Syndication.Proofs.Program.Crawls
import Syndication.Proofs.Program.Failing
import Syndication.Proofs.Program.Finishing
import Syndication.Proofs.Program.History
import Syndication.Proofs.Program.Recrawl
import Syndication.Proofs.Program.Representation
import Syndication.Proofs.Record.ReadBack
import Syndication.Proofs.Resolution.Converging
import Syndication.Proofs.Session.Crawl
import Syndication.Proofs.Subscription.Addresses
import Syndication.Proofs.Subscription.Binding
import Syndication.Proofs.Subscription.Chunks
import Syndication.Proofs.Subscription.Following
import Syndication.Proofs.Subscription.Isolation
import Syndication.Proofs.Subscription.Offsets
import Syndication.Proofs.Sync.Convergence
import Syndication.Proofs.Sync.Exact
import Syndication.Proofs.Sync.Waking
import Syndication.Proofs.Time.Columns
import Syndication.Store.Request
