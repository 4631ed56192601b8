import FinnAuth.Lib.Prog
import FinnAuth.Lib.Pool
import FinnAuth.Lib.Table
import FinnAuth.Lib.TtlMap
import FinnAuth.Models
import FinnAuth.Database
import FinnAuth.World
import FinnAuth.Repositories
import FinnAuth.Actions
import FinnAuth.Footprint.Issue
import FinnAuth.Footprint.Totp
import FinnAuth.Footprint.Session
import FinnAuth.Footprint.Login
import FinnAuth.Provenance
import FinnAuth.Mailbox
import FinnAuth.Identity
import FinnAuth.Service.Issue
import FinnAuth.Service.Totp
import FinnAuth.Service.Session
import FinnAuth.Service.Login
import FinnAuth.Service.Credential
import FinnAuth.Service.Account
import FinnAuth.Service.Federated
import FinnAuth.Concurrent
import FinnAuth.Families
import FinnAuth.Rotation
import FinnAuth.Api
import FinnAuth.Footprint.Account
import FinnAuth.Reachable
import FinnAuth.Theft
import FinnAuth.Alarm
import FinnAuth.Logout
import FinnAuth.SingleUse
import FinnAuth.PasswordChange
import FinnAuth.Footprint.Calls
import FinnAuth.Versions
import FinnAuth.Denials
import FinnAuth.FailedCalls
import FinnAuth.EmailChange
import FinnAuth.Erasure
import FinnAuth.Revocation
import FinnAuth.Audit.Event
import FinnAuth.Audit.Tables
import FinnAuth.Audit.Outbox
import FinnAuth.Audit.Archive
import FinnAuth.Audit.Tamper
import FinnAuth.Audit.Changes
import FinnAuth.Audit.Ledger
import FinnAuth.Audit.Log
import FinnAuth.Audit.Gapless
import FinnAuth.Audit.Delivery
import FinnAuth.Audit.Atomic
import FinnAuth.Audit.RoundTrip
import FinnAuth.AdminLock
import FinnAuth.Lockout
import FinnAuth.Factor.Actions
import FinnAuth.Factor.GuessCap
import FinnAuth.Factor.Replay
import FinnAuth.Factor.RecoveryCodes
import FinnAuth.Store.Redis
import FinnAuth.Store.Interchange
import FinnAuth.Jobs.Leader
import FinnAuth.Jwt.Claims
import FinnAuth.Jwt.Manager
import FinnAuth.Jwt.RoundTrip
import FinnAuth.Jwt.Exact
import FinnAuth.Jwt.KeyDrain
import FinnAuth.Lib.Tx
import FinnAuth.Transaction
import FinnAuth.Passkey.Counter
import FinnAuth.GoogleLink
import FinnAuth.SelfLockout
import FinnAuth.Registration
import FinnAuth.Handlers
import FinnAuth.Lib.Twin
import FinnAuth.NeutralAnswer
import FinnAuth.Audit.Deliverable
import FinnAuth.Audit.Attempts
import FinnAuth.Audit.KeyHistory
import FinnAuth.Store.Sweep
import FinnAuth.ChangeToken
import FinnAuth.Logging.Redaction
import FinnAuth.Factor.Rollback
import FinnAuth.Tenancy.Repositories
import FinnAuth.Tenancy.Isolation
import FinnAuth.Tenancy.UserWriters
import FinnAuth.Audit.AsyncWriter
import FinnAuth.Http.Middleware
import FinnAuth.Http.RateLimit
import FinnAuth.Jobs.Purge
import FinnAuth.Mail.Smtp
