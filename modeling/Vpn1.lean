import Vpn1.Lib.Traced
import Vpn1.Compat.Credentials
import Vpn1.Compat.Server
import Vpn1.Compat.Store
import Vpn1.Admin.Answers
import Vpn1.Admin.Host
import Vpn1.Admin.Material
import Vpn1.Admin.Apply
import Vpn1.Admin.Render
import Vpn1.Admin.Users
import Vpn1.Admin.Transaction
import Vpn1.Admin.FileTransaction
import Vpn1.Admin.Rollback
import Vpn1.Admin.Rotate
import Vpn1.Admin.Reconcile
import Vpn1.Admin.RotateAtomicity
import Vpn1.Admin.Restore
import Vpn1.Lib.Bytes
import Vpn1.Trust.Hierarchy
import Vpn1.Trust.Issuance
import Vpn1.Trust.Bundle
import Vpn1.Trust.Client
import Vpn1.Trust.Ceremony
import Vpn1.Compat.Migration
import Vpn1.Compat.Deployment
import Vpn1.Admin.Store
import Vpn1.Admin.Schema
import Vpn1.Compat.Client
import Vpn1.Admin.Agreement
import Vpn1.Admin.Backup
import Vpn1.Admin.Leftovers
import Vpn1.Engine.Connect
import Vpn1.Engine.LocalFailures
import Vpn1.Deploy.Migration
import Vpn1.Deploy.StateLock
import Vpn1.Admin.Swap
import Vpn1.Engine.Scores
import Vpn1.Engine.Endpoints
import Vpn1.Engine.Cooldown
import Vpn1.Admin.Extraction
import Vpn1.Admin.Redaction
import Vpn1.Admin.Exposure
import Vpn1.Lib.Uri
import Vpn1.Compat.ReadBack
import Vpn1.Deploy.FixedPaths
import Vpn1.Deploy.Firewall
import Vpn1.Deploy.Interruption
import Vpn1.Admin.Histories
import Vpn1.Admin.Coherence
import Vpn1.Lib.TokenBucket
import Vpn1.Services.RateLimiter
import Vpn1.Services.Eviction
import Vpn1.Lib.Chunked
import Vpn1.Relay.Framing
import Vpn1.Relay.Socks
import Vpn1.Relay.IdleTimeout
import Vpn1.Relay.Identity
import Vpn1.Trust.Revocation
import Vpn1.Deploy.Ownership
import Vpn1.Deploy.Renewal
import Vpn1.Deploy.Staging
import Vpn1.Deploy.Refinement
import Vpn1.Admin.NewerStore
import Vpn1.Engine.Outage
import Vpn1.Lib.Interleave
import Vpn1.Engine.Concurrent
import Vpn1.Engine.ConcurrentOutage
import Vpn1.Relay.Slots
import Vpn1.Relay.Chain
import Vpn1.Admin.Accounts
import Vpn1.Admin.Tokens
import Vpn1.Admin.Doctor
import Vpn1.Lib.Serial
import Vpn1.Admin.Concurrent
import Vpn1.Deploy.PerfTuning
import Vpn1.Engine.Daemon
import Vpn1.Services.Rendezvous
import Vpn1.Admin.Barrier
import Vpn1.Admin.Lockout
