import CoinjoinEmulator.RoundEvents.Reconcile
import CoinjoinEmulator.JoinMarket.Client
import CoinjoinEmulator.RoundEvents.Export
import CoinjoinEmulator.RoundEvents.Confirmation
import CoinjoinEmulator.ProofKit.Runs
import CoinjoinEmulator.JoinMarket.Engine
import CoinjoinEmulator.RoundEvents.LiveRun
import CoinjoinEmulator.RoundEvents.Labels
import CoinjoinEmulator.RoundEvents.Scan
import CoinjoinEmulator.JoinMarket.Taker
import CoinjoinEmulator.JoinMarket.TakerRun
import CoinjoinEmulator.JoinMarket.Rpc
import CoinjoinEmulator.Invoices
import CoinjoinEmulator.JoinMarket.Funding
import CoinjoinEmulator.ProofKit.Emit
import CoinjoinEmulator.Postmix.World
import CoinjoinEmulator.Postmix.History
import CoinjoinEmulator.Postmix.JoinMarket
import CoinjoinEmulator.Postmix.JoinMarketLog
import CoinjoinEmulator.Postmix.JoinMarketSweep
import CoinjoinEmulator.Postmix.JoinMarketRuns
import CoinjoinEmulator.Postmix.Wasabi
import CoinjoinEmulator.Postmix.WasabiRuns
import CoinjoinEmulator.ProofKit.Document
import CoinjoinEmulator.Scenario.Configuration
import CoinjoinEmulator.Scenario.RoundTrip
import CoinjoinEmulator.InvoiceRuns
import CoinjoinEmulator.RoundEvents.Incremental
import CoinjoinEmulator.RoundEvents.Evidence
import CoinjoinEmulator.JoinMarket.Pause
import CoinjoinEmulator.JoinMarket.Unlock
import CoinjoinEmulator.Postmix.FrozenFlags
import CoinjoinEmulator.ProofKit.Interrupt
import CoinjoinEmulator.Shutdown
import CoinjoinEmulator.ShutdownRelease
import CoinjoinEmulator.ScenarioRunner.Batch
import CoinjoinEmulator.ScenarioRunner.Stop
import CoinjoinEmulator.ProofKit.Triple
import CoinjoinEmulator.ProofKit.Lockstep
import CoinjoinEmulator.ScenarioRunner.Skip
import CoinjoinEmulator.ScenarioRunner.StraySkips
import CoinjoinEmulator.Genscen
import CoinjoinEmulator.ProofKit.Streak
import CoinjoinEmulator.BitcoinReadiness
import CoinjoinEmulator.Postmix.Selection
import CoinjoinEmulator.ProofKit.Base64
import CoinjoinEmulator.Driver.Base64Spool
import CoinjoinEmulator.ProofKit.KeyedLog
import CoinjoinEmulator.ClientStartup
import CoinjoinEmulator.ClientStartupLog
import CoinjoinEmulator.ClientStartupRuns
import CoinjoinEmulator.RoundEvents.Execution
import CoinjoinEmulator.DatadirSnapshot
import CoinjoinEmulator.ProofKit.Dotted
import CoinjoinEmulator.WasabiVersions
import CoinjoinEmulator.ProofKit.Pattern
import CoinjoinEmulator.ProofKit.Pool
import CoinjoinEmulator.WasabiEngine.Rounds
import CoinjoinEmulator.WasabiEngine.Simulation
import CoinjoinEmulator.ProofKit.Phases
import CoinjoinEmulator.Postmix.Calls
import CoinjoinEmulator.InvoiceCalls
import CoinjoinEmulator.WasabiEngine.Turns
import CoinjoinEmulator.WasabiEngine.Payments
import CoinjoinEmulator.WasabiEngine.Run
import CoinjoinEmulator.WasabiEngine.Window
import CoinjoinEmulator.ProofKit.Session
import CoinjoinEmulator.ProofKit.Sha256
import CoinjoinEmulator.ProofKit.Registry
import CoinjoinEmulator.Driver.Cluster
import CoinjoinEmulator.Driver.Kubernetes
import CoinjoinEmulator.Driver.RunNames
import CoinjoinEmulator.Driver.OwnRequests
import CoinjoinEmulator.Driver.Isolation
import CoinjoinEmulator.ProofKit.Rely
import CoinjoinEmulator.Driver.Cleanup
import CoinjoinEmulator.Driver.Upload
import CoinjoinEmulator.JoinMarket.Fleet
import CoinjoinEmulator.JoinMarket.Simulation
import CoinjoinEmulator.JoinMarket.Progress
import CoinjoinEmulator.JoinMarket.Windows
import CoinjoinEmulator.JoinMarket.Run
import CoinjoinEmulator.ProofKit.Commute
import CoinjoinEmulator.JoinMarket.Parallel
import CoinjoinEmulator.Manifest
