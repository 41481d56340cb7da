import UniMail.Lib.Program
import UniMail.Lib.Pool
import UniMail.Lib.Monitor
import UniMail.Lib.Commute
import UniMail.Lib.Unwinding
import UniMail.Lib.Progress
import UniMail.Lib.Simulation
import UniMail.Lib.Layer
import UniMail.Lib.Table
import UniMail.Lib.Calendar
import UniMail.Lib.Rfc3339
import UniMail.Lib.TopK
import UniMail.Lib.Radix
import UniMail.Lib.Percent
import UniMail.Lib.FormUrl
import UniMail.Lib.Substitution
import UniMail.Lib.SocketAddr
import UniMail.Lib.Base64
import UniMail.Error
import UniMail.Chrono
import UniMail.Text
import UniMail.Config
import UniMail.Config.CallbackAddr
import UniMail.Storage.Models
import UniMail.Storage.Crypto
import UniMail.Config.EncryptionKey
import UniMail.Storage.Db
import UniMail.Storage.Accounts
import UniMail.Storage.Tokens
import UniMail.Storage.Timestamps
import UniMail.Storage.TokenMap
import UniMail.Storage.Tenants
import UniMail.Storage.Flows
import UniMail.Storage.FlowLifetime
import UniMail.Storage.FlowRace
import UniMail.Storage.Vault
import UniMail.Auth.Service
import UniMail.Auth.OAuth
import UniMail.Auth.Token
import UniMail.Auth.Callback
import UniMail.Auth.BeginFlow
import UniMail.Auth.Page
import UniMail.Auth.CallbackServer
import UniMail.Auth.Binding
import UniMail.Auth.Refresh
import UniMail.Auth.AccessToken
import UniMail.Auth.Batch
import UniMail.Auth.Stale
import UniMail.Auth.ClockRange
import UniMail.Config.FromEnv
import UniMail.Auth.Consent
import UniMail.Auth.Session
import UniMail.Auth.Mailbox
import UniMail.Auth.Rotation
import UniMail.Auth.Exclusion
import UniMail.Auth.Serial
import UniMail.Auth.Disconnect
import UniMail.Auth.Herd
import UniMail.Provider.Models
import UniMail.Provider.Graph
import UniMail.Provider.Inbox
import UniMail.Provider.Aggregate
import UniMail.Provider.Retry
import UniMail.Provider.MessageUrl
import UniMail.Provider.ListUrl
import UniMail.Provider.Listing
import UniMail.Api.Auth
import UniMail.Api.Routes
import UniMail.Api.Isolation
import UniMail.Api.Status
import UniMail.Mcp.Server
import UniMail.Cli.Commands
import UniMail.Process.Tasks
import UniMail.Process.Fleet
import UniMail.Process.Walk
import UniMail.Process.Progress
import UniMail.Process.Tenants
import UniMail.Process.Holder
import UniMail.Process.Lineage
import UniMail.Process.Registry
import UniMail.Process.Vouched
import UniMail.Process.AddAccount
import UniMail.Process.Vault
