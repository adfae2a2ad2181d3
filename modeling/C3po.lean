import C3po.Access.Accepted
import C3po.Access.Authenticators
import C3po.Access.Challenges
import C3po.Access.Codes
import C3po.Access.Releases
import C3po.Access.Sessions
import C3po.CashYield.Confluence
import C3po.CashYield.Feed
import C3po.CashYield.Runs
import C3po.CashYield.Settlement
import C3po.CashYield.Verdicts
import C3po.Decisor.Decide
import C3po.Decisor.Monotone
import C3po.Decisor.Permission
import C3po.Decisor.Sound
import C3po.Ensemble.Aggregation
import C3po.Ensemble.Consensus
import C3po.Ensemble.ConsensusReaders
import C3po.Ensemble.Models
import C3po.Ensemble.Peers
import C3po.Ensemble.Targets
import C3po.Fundamentals.Cache
import C3po.Fundamentals.Served
import C3po.Investors.Queue
import C3po.Investors.Revaluations
import C3po.Leah.Sync
import C3po.Library.Admitted
import C3po.Library.Calendar
import C3po.Library.Dict
import C3po.Library.Interleaving
import C3po.Library.Latest
import C3po.Library.Leaders
import C3po.Library.Loops
import C3po.Library.Lots
import C3po.Library.Number
import C3po.Library.OrderStatistics
import C3po.Library.Retained
import C3po.Library.Rounding
import C3po.Library.Script
import C3po.Library.Spans
import C3po.Library.StableSort
import C3po.Library.Traced
import C3po.Library.Transaction
import C3po.Live.Conservation
import C3po.Live.CrashSafety
import C3po.Live.Discipline
import C3po.Live.Document
import C3po.Live.Engine
import C3po.Live.Filing
import C3po.Live.Level
import C3po.Live.Leverage
import C3po.Live.Moves
import C3po.Live.Pushed
import C3po.Live.Recovery
import C3po.Live.Restart
import C3po.Live.Rule
import C3po.Live.Runs
import C3po.Live.Stream
import C3po.Live.Tape
import C3po.Live.Twins
import C3po.Official.Automatic
import C3po.Official.Chaining
import C3po.Official.Changes
import C3po.Official.Composition
import C3po.Official.Cycle
import C3po.Official.Final
import C3po.Official.Linear
import C3po.Official.OneTarget
import C3po.Official.Orders
import C3po.Official.Pass
import C3po.Official.Readers
import C3po.Official.Serving
import C3po.Official.Soundness
import C3po.Official.Targeted
import C3po.Official.Told
import C3po.Official.Writers
import C3po.Operations.Episodes
import C3po.Operations.Incidents
import C3po.Overlays.Converging
import C3po.Overlays.Extraction
import C3po.Overlays.FieldSources
import C3po.Overlays.Fieldwise
import C3po.Overlays.Filed
import C3po.Overlays.Guarded
import C3po.Overlays.Listed
import C3po.Overlays.Quarters
import C3po.Overlays.Readers
import C3po.Overlays.Saving
import C3po.Overlays.ServedSources
import C3po.Overlays.TrueSources
import C3po.Paper.Balance
import C3po.Paper.Closings
import C3po.Paper.Episodes
import C3po.Paper.Ledgers
import C3po.Paper.NavClose
import C3po.Paper.Races
import C3po.Paper.Stores
import C3po.Paper.Twins
import C3po.Portfolio.Accounting
import C3po.Portfolio.Additive
import C3po.Portfolio.Grounds
import C3po.Portfolio.Inverse
import C3po.Portfolio.Ledger
import C3po.Portfolio.Periods
import C3po.Portfolio.PhantomProfit
import C3po.Portfolio.Timeline
import C3po.Prices.Clocks
import C3po.Prices.Readers
import C3po.Prices.Served
import C3po.Prices.Service
import C3po.Prices.Store
import C3po.Prices.VintageExact
import C3po.Prices.Vintages
import C3po.Producers.B3
import C3po.Producers.B3Rows
import C3po.Producers.B3Units
import C3po.Producers.Consensus
import C3po.Producers.Consumer
import C3po.Producers.Independence
import C3po.Producers.Margin
import C3po.Producers.PowerZone
import C3po.Producers.Reconciled
import C3po.Producers.Requotes
import C3po.Producers.Scaling
import C3po.Producers.Units
import C3po.Producers.Us
import C3po.Producers.UsUnits
import C3po.ReadCache.Ages
import C3po.ReadCache.Cache
import C3po.ReadCache.Invalidations
import C3po.ReadCache.Steps
import C3po.Realtime.Candles
import C3po.Realtime.Lease
import C3po.Reboot.Controller
import C3po.Reboot.Requests
import C3po.Reboot.Upheld
import C3po.Remediation.Canonical
import C3po.Remediation.Reports
import C3po.Schedule.Once
import C3po.Schedule.Recovered
import C3po.Schedule.Recovery
import C3po.Schedule.Slots
import C3po.Screen.Responses
import C3po.Screen.Screener
import C3po.Staleness.Marks
import C3po.Staleness.Tracking
import C3po.Statements.Facts
import C3po.Statements.Publications
import C3po.Statements.Vintages
import C3po.Stored.Json
import C3po.Stored.Prediction
import C3po.Stored.Survives
import C3po.Universe.Carried
import C3po.Universe.Instants
import C3po.Universe.Published
import C3po.Universe.Service
import C3po.Universe.Steps
import C3po.Worker.Iteration
import C3po.Worker.Kept
