import SpiceHarvester.Ledger.Finality
import SpiceHarvester.Ledger.Conservation
import SpiceHarvester.Ledger.Outbox
import SpiceHarvester.Api.LifeTime
import SpiceHarvester.Indexer.OutMessages
import SpiceHarvester.Webhook
import SpiceHarvester.Json.Marshal
import SpiceHarvester.Db.ReadBack
import SpiceHarvester.Indexer.Refresh
import SpiceHarvester.Db.ConnectionPool
import SpiceHarvester.Api.KeyLife
import SpiceHarvester.Serial.Delays
import SpiceHarvester.Notifier.Progress
import SpiceHarvester.Notifier.SendOrder
import SpiceHarvester.Notifier.Snapshots
import SpiceHarvester.Notifier.Deliveries
import SpiceHarvester.StartUp.Restarts
import SpiceHarvester.StartUp.Tracking
import SpiceHarvester.Db.Migrations
import SpiceHarvester.Db.SavedCurrencies
import SpiceHarvester.StartUp.Printing
import SpiceHarvester.Indexer.Identification
import SpiceHarvester.Indexer.HashChain
import SpiceHarvester.Api.HistoryComplete
import SpiceHarvester.Indexer.GapSync
import SpiceHarvester.Indexer.Following
import SpiceHarvester.Api.Disclosure
import SpiceHarvester.Api.Requested
import SpiceHarvester.Indexer.Unparsed
import SpiceHarvester.Indexer.GapFree
import SpiceHarvester.Indexer.Once
import SpiceHarvester.Api.Authority
