import RfcMcp.Framework.Program
import RfcMcp.Framework.Protocol
import RfcMcp.Framework.System
import RfcMcp.Framework.Crew
import RfcMcp.Python.Value
import RfcMcp.Python.Text
import RfcMcp.Python.Fnmatch
import RfcMcp.Python.Sequence
import RfcMcp.Python.Json
import RfcMcp.Sap.Exceptions
import RfcMcp.Config
import RfcMcp.Discovery.Models
import RfcMcp.Execution.ParamMapper
import RfcMcp.Execution.ResultTransform
import RfcMcp.Runtime.Effects
import RfcMcp.Runtime.State
import RfcMcp.Runtime.Does
import RfcMcp.Sap.Connection
import RfcMcp.Discovery.Cache
import RfcMcp.Discovery.StructureResolver
import RfcMcp.Discovery.Catalog
import RfcMcp.Execution.Policy
import RfcMcp.Execution.Transaction
import RfcMcp.Execution.Invoker
import RfcMcp.Execution.SourceReader
import RfcMcp.Mcp.Server
import RfcMcp.Custody.Protocol
import RfcMcp.Custody.Rules
import RfcMcp.Custody.Pool
import RfcMcp.Custody.Invoker
import RfcMcp.Custody.Conservation
import RfcMcp.Custody.Connections
import RfcMcp.Framework.Record
import RfcMcp.Custody.Locks
import RfcMcp.Custody.Stages
import RfcMcp.Custody.Lifecycle
import RfcMcp.Custody.Sealing
import RfcMcp.Custody.Ownership
import RfcMcp.Custody.History
import RfcMcp.Custody.Ending
import RfcMcp.Custody.Affinity
import RfcMcp.Custody.Commit
import RfcMcp.Mediation.Protocol
import RfcMcp.Mediation.Programs
import RfcMcp.Mediation.History
import RfcMcp.Mediation.Policy
import RfcMcp.Framework.Trace
import RfcMcp.Footprint.Areas
import RfcMcp.Footprint.Programs
import RfcMcp.Custody.PoolIntegrity
import RfcMcp.Framework.Finish
import RfcMcp.Custody.Deadlock
import RfcMcp.Execution.Mapping
import RfcMcp.Execution.Blanks
import RfcMcp.Execution.ResultLimits
import RfcMcp.Framework.Solo
import RfcMcp.Custody.Shutdown
import RfcMcp.Execution.Routine
import RfcMcp.Reuse.Protocol
import RfcMcp.Reuse.Programs
import RfcMcp.Reuse.Failure
import RfcMcp.Reuse.NeverReused
import RfcMcp.Framework.Retry
import RfcMcp.Adt.Client
import RfcMcp.Mcp.ToolsSource
import RfcMcp.Adt.Fallback
import RfcMcp.Response.Sizes
import RfcMcp.Response.Ledger
import RfcMcp.Response.Programs
import RfcMcp.Response.Source
import RfcMcp.Response.Limits
import RfcMcp.Framework.Alone
import RfcMcp.Writes.State
import RfcMcp.Writes.Programs
import RfcMcp.Writes.Returned
import RfcMcp.Writes.Failing
import RfcMcp.Framework.Runs
import RfcMcp.Framework.Twin
import RfcMcp.Audit.Trail
import RfcMcp.Audit.Programs
import RfcMcp.Audit.Noninterference
import RfcMcp.Expiry.Sweep
import RfcMcp.Expiry.Programs
import RfcMcp.Expiry.Ages
import RfcMcp.Expiry.Spares
import RfcMcp.Expiry.Waiting
import RfcMcp.Expiry.Reclaim
import RfcMcp.Expiry.EntryPoints
import RfcMcp.Writes.Further
import RfcMcp.Python.Dict
import RfcMcp.Caching.Uncached
import RfcMcp.Writes.Continuing
import RfcMcp.Caching.Catalog
import RfcMcp.Caching.Transparent
import RfcMcp.Framework.Oracle
import RfcMcp.Discovery.Expansion
import RfcMcp.Framework.Keyed
import RfcMcp.Discovery.Fetches
import RfcMcp.Framework.Environment
import RfcMcp.Borrowing.World
import RfcMcp.Borrowing.Checkout
import RfcMcp.Borrowing.Lending
import RfcMcp.Sap.Settings
import RfcMcp.Sap.Health
import RfcMcp.Demo
import RfcMcp.Mediation.Demo
import RfcMcp.Mediation.Spelling
import RfcMcp.Diagnostics.Report
import RfcMcp.Diagnostics.Addressing
import RfcMcp.Diagnostics.Connectivity
import RfcMcp.Encoding.Percent
import RfcMcp.Encoding.Segments
import RfcMcp.Adt.Uris
import RfcMcp.Framework.Ledger
import RfcMcp.Framework.Billing
import RfcMcp.Durability.Settling
import RfcMcp.Durability.Sap
import RfcMcp.Durability.Places
import RfcMcp.Durability.Units
import RfcMcp.Durability.Agreement
import RfcMcp.Durability.Atomic
import RfcMcp.Audit.Deeds
import RfcMcp.Audit.Complete
import RfcMcp.Framework.Last
import RfcMcp.Framework.Replay
import RfcMcp.Framework.Pattern
import RfcMcp.Replies.Attempts
import RfcMcp.Replies.Calls
import RfcMcp.Replies.Requests
import RfcMcp.Replies.Exact
import RfcMcp.Caching.Lookups
import RfcMcp.Caching.Register
import RfcMcp.Python.Glob
import RfcMcp.Mediation.Defaults
import RfcMcp.Contracts.Declared
import RfcMcp.Contracts.Kwargs
import RfcMcp.Contracts.Asking
import RfcMcp.Contracts.Informed
import RfcMcp.Expiry.Recovery
import RfcMcp.Framework.Accounts
import RfcMcp.Errors.Causes
import RfcMcp.Errors.Calls
import RfcMcp.Errors.Requests
import RfcMcp.Errors.Transactions
import RfcMcp.Errors.Classes
import RfcMcp.Errors.Truthful
import RfcMcp.Framework.Mirror
import RfcMcp.Stateless.Lookups
import RfcMcp.Stateless.Reads
