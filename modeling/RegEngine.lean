import RegEngine.Ledger.Proof.Verify
import RegEngine.Ledger.Proof.Provenance
import RegEngine.Ledger.Proof.Record
import RegEngine.Ledger.Proof.Tamper
import RegEngine.Compiler.Proof.JsonLogic
import RegEngine.Compiler.Proof.Lexical
import RegEngine.Compiler.Proof.Module
import RegEngine.Compiler.Proof.Package
import RegEngine.Execution.Proof.Coherence
import RegEngine.Execution.Proof.Latest
import RegEngine.Execution.Proof.Missing
import RegEngine.Execution.Proof.TenantRegistry
import RegEngine.Backtest.Proof.Replay
import RegEngine.Backtest.Proof.TruthTable
import RegEngine.Hitl.Proof.Approved
import RegEngine.Hitl.Proof.Pipeline
import RegEngine.Hitl.Proof.Circular
import RegEngine.Hitl.Proof.Deployment
import RegEngine.Hitl.Proof.Ingestion
import RegEngine.Hitl.Proof.Placeholder
import RegEngine.Hitl.Proof.Reaper
import RegEngine.Hitl.Proof.Status
import RegEngine.Execution.Proof.Channels
import RegEngine.Execution.Proof.Suspended
import RegEngine.Governance.Proof.KillSwitch
import RegEngine.Native.Proof.Kernel
import RegEngine.Native.Proof.RoundTrip
import RegEngine.Native.Proof.Comparison
import RegEngine.Native.Proof.Flatten
import RegEngine.Native.Proof.Admission
import RegEngine.Negotiation.Proof.Arbitration
import RegEngine.Negotiation.Proof.Negotiate
import RegEngine.Negotiation.Proof.Transcript
import RegEngine.Native.Proof.FixReport
import RegEngine.FixGateway.Proof.Scanner
import RegEngine.FixGateway.Proof.HotReload
import RegEngine.Zkp.Proof.Circuits
import RegEngine.Zkp.Proof.Replay
import RegEngine.Canary.Proof.Promotion
import RegEngine.Resilience.Proof.Terminal
import RegEngine.Security.Proof.Sessions
import RegEngine.RegulatoryFiling.Proof.Runs
import RegEngine.GrievanceEscalation.Proof.Runs
import RegEngine.Incident.Proof.Schedule
import RegEngine.Cdc.Proof.Committed
import RegEngine.Agents.Proof.Guarded
import RegEngine.Parsing.Proof.Groups
import RegEngine.Backtest.Proof.Summary
import RegEngine.Backtest.Proof.Messages
import RegEngine.Compiler.Proof.Digest
import RegEngine.Compiler.Proof.Units
import RegEngine.Hitl.Proof.Satisfiable
import RegEngine.Parsing.Proof.LongText
import RegEngine.Negotiation.Proof.Tally
import RegEngine.Native.Proof.Packed
import RegEngine.Native.Proof.FixGrammar
import RegEngine.Native.Proof.FixTags
import RegEngine.FixGateway.Proof.FailsClosed
import RegEngine.FixGateway.Proof.ExecutionReport
import RegEngine.Zkp.Proof.Answered
import RegEngine.Flink.Proof.Window
import RegEngine.Flink.Proof.Cautious
import RegEngine.Security.Proof.DirectorySync
import RegEngine.Diffing.Proof.ReadBack
import RegEngine.Diffing.Proof.Impact
import RegEngine.TranslationParity.Proof.Conservation
import RegEngine.Healing.Proof.Healed
import RegEngine.Localization.Proof.Glossary
import RegEngine.Analytics.Proof.Anomaly
import RegEngine.Canary.Proof.OpaPublisher
import RegEngine.Dr.LedgerBackup
import RegEngine.Dr.Proof.LedgerBackup
import RegEngine.Hitl.Proof.Documents
import RegEngine.Lib.Der
import RegEngine.Lib.Wasm
import RegEngine.LlmOps.CachedExtraction
import RegEngine.LlmOps.Proof.CachedExtraction
import RegEngine.RegulatoryFiling.CollateralAggregator
import RegEngine.RegulatoryFiling.Proof.Collateral
import RegEngine.VerificationPortal.CustodyChain
import RegEngine.VerificationPortal.Proof.AuditBinder
import RegEngine.VerificationPortal.Proof.CustodyChain
import RegEngine.VerificationPortal.Proof.Sha256
