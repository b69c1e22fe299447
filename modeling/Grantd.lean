import Grantd.Agent.Handover
import Grantd.Agent.Pinning
import Grantd.Bridge.Serve
import Grantd.Daemon.Backoff
import Grantd.Daemon.Inflight
import Grantd.Daemon.PublishPass
import Grantd.Daemon.Publishing
import Grantd.Daemon.Rendezvous
import Grantd.Daemon.Silence
import Grantd.Install.Agreement
import Grantd.Install.Base32
import Grantd.Install.Bridge
import Grantd.Install.Capability
import Grantd.Install.KeyLine
import Grantd.Install.NodeBridge
import Grantd.Install.NodeVisit
import Grantd.Install.ProofOfWork
import Grantd.Install.Registration
import Grantd.Install.ShellVisit
import Grantd.Service.DnsAuthority
import Grantd.Service.DnsSync
import Grantd.Service.Forward
import Grantd.Service.Grants
import Grantd.Service.Nonces
import Grantd.Service.Publication
import Grantd.Service.Record
import Grantd.Service.Registry
import Grantd.Service.Relay
import Grantd.Service.Throttle
import Grantd.Service.Worker
import Grantd.Signer.Authorization
import Grantd.Signer.Cap
import Grantd.Signer.Daemon
import Grantd.Signer.Decision
import Grantd.Signer.Lifetime
import Grantd.Signer.Migration
import Grantd.Signer.Replay
import Grantd.Signer.Signed
import Grantd.Signer.SingleUse
import Grantd.Warden.Admission
import Grantd.Warden.Authorized
import Grantd.Warden.Deadline
import Grantd.Warden.Proc
import Grantd.Warden.Restart
import Grantd.Warden.Revocation
import Grantd.Warden.Termination
import Grantd.Warden.Timing
