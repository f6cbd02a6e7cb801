import SecretsManager.Lib.FaultySession
import SecretsManager.Lib.IdealAead
import SecretsManager.Lib.Framing
import SecretsManager.Lib.KeyedTable
import SecretsManager.Lib.PairedRuns
import SecretsManager.Lib.Transitions
import SecretsManager.Lib.Collect
import SecretsManager.Lib.LastWrite
import SecretsManager.Lib.JsonText
import SecretsManager.Lib.FileTree
import SecretsManager.Lib.VersionedCell
import SecretsManager.Lib.Decimal
import SecretsManager.Lib.Rfc3339
import SecretsManager.Lib.AtomicReplace
import SecretsManager.Lib.ColumnTables
import SecretsManager.Lib.PlainText
import SecretsManager.Lib.Linearizable
import SecretsManager.Lib.Simulation
import SecretsManager.Crypto
import SecretsManager.Server.Passphrase
import SecretsManager.Server.Db
import SecretsManager.Server.Repo
import SecretsManager.Server.CryptoState
import SecretsManager.Server.Verifier
import SecretsManager.Server.Rekey
import SecretsManager.Server.Handlers
import SecretsManager.Server.App
import SecretsManager.Server.Outcomes
import SecretsManager.Server.View
import SecretsManager.Server.ReferenceStore
import SecretsManager.Server.Noninterference
import SecretsManager.Server.Confinement
import SecretsManager.Server.Revocation
import SecretsManager.Server.Commands
import SecretsManager.Server.TokenLifecycle
import SecretsManager.Server.Expiry
import SecretsManager.Server.Listing
import SecretsManager.Server.FailedRequests
import SecretsManager.Server.Audit
import SecretsManager.Server.AuditTrail
import SecretsManager.Server.AuditFile
import SecretsManager.Server.FaultyCalls
import SecretsManager.Server.Linearizability
import SecretsManager.Server.RenamedKeys
import SecretsManager.Server.LogSecrecy
import SecretsManager.Server.Startup
import SecretsManager.Server.Versions
import SecretsManager.Server.Lock
import SecretsManager.Server.Processes
import SecretsManager.Server.PassphraseStore
import SecretsManager.Server.Answers
import SecretsManager.Server.TokenDesk
import SecretsManager.Server.Migration
import SecretsManager.Server.Tampering
import SecretsManager.Client.Api
import SecretsManager.Client.Commands
import SecretsManager.Client.Dotenv
import SecretsManager.Client.ExitCodes
import SecretsManager.Client.Newlines
import SecretsManager.Client.Wire
import SecretsManager.Client.Routing
import SecretsManager.Client.Exactness
import SecretsManager.Client.Cache
import SecretsManager.Client.AssociatedData
import SecretsManager.Client.CacheRuns
import SecretsManager.Client.ReadYourWrites
import SecretsManager.Client.PrivateFile
import SecretsManager.Client.CacheKey
import SecretsManager.Client.CacheTampering
import SecretsManager.Client.ReadBack
import SecretsManager.Client.Configuration
import SecretsManager.Client.CommandLine
import SecretsManager.Client.Delivery
import SecretsManager.Client.SharedSecrets
import SecretsManager.Client.EndToEnd
import SecretsManager.Client.ShownValues
