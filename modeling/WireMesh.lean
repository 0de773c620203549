import WireMesh.Lib.ArrayMap
import WireMesh.Lib.Binary64
import WireMesh.Lib.Checked
import WireMesh.Lib.Chunks
import WireMesh.Lib.Fields
import WireMesh.Lib.FirstMatch
import WireMesh.Lib.HashMap
import WireMesh.Lib.Holdings
import WireMesh.Lib.Json
import WireMesh.Lib.Keyed
import WireMesh.Lib.Locks
import WireMesh.Lib.Lpm
import WireMesh.Lib.Prefix
import WireMesh.Lib.Prog
import WireMesh.Lib.Run
import WireMesh.Lib.Script
import WireMesh.Lib.Search
import WireMesh.Lib.Serial
import WireMesh.Lib.Session
import WireMesh.Lib.SocketAddr
import WireMesh.Lib.Tasks
import WireMesh.Lib.Text
import WireMesh.Lib.Timed
import WireMesh.Lib.Timestamp
import WireMesh.Lib.Window
import WireMesh.Lib.Wire
import WireMesh.Policy.Compile
import WireMesh.Policy.Dsl
import WireMesh.Policy.Ir
import WireMesh.Policy.Net
import WireMesh.Policy.Semantics
import WireMesh.Policy.Validate
import WireMesh.Policy.Theorems.Compile
import WireMesh.Policy.Theorems.Ports
import WireMesh.Policy.Theorems.RuleId
import WireMesh.Policy.Theorems.Table
import WireMesh.Policy.Theorems.Validate
import WireMesh.Enforcer.Common
import WireMesh.Enforcer.Config
import WireMesh.Enforcer.Ebpf
import WireMesh.Enforcer.Faults
import WireMesh.Enforcer.Flatten
import WireMesh.Enforcer.Kernel
import WireMesh.Enforcer.Nft
import WireMesh.Enforcer.Program
import WireMesh.Enforcer.Race
import WireMesh.Enforcer.Semantics
import WireMesh.Enforcer.System
import WireMesh.Enforcer.Theorems.Apply
import WireMesh.Enforcer.Theorems.Backends
import WireMesh.Enforcer.Theorems.Compiled
import WireMesh.Enforcer.Theorems.Counters
import WireMesh.Enforcer.Theorems.Decision
import WireMesh.Enforcer.Theorems.Ebpf
import WireMesh.Enforcer.Theorems.Errors
import WireMesh.Enforcer.Theorems.Faults
import WireMesh.Enforcer.Theorems.Flatten
import WireMesh.Enforcer.Theorems.Flows
import WireMesh.Enforcer.Theorems.Ingress
import WireMesh.Enforcer.Theorems.Limits
import WireMesh.Enforcer.Theorems.Nft
import WireMesh.Enforcer.Theorems.Program
import WireMesh.Enforcer.Theorems.Race
import WireMesh.Enforcer.Theorems.Source
import WireMesh.Enforcer.Theorems.System
import WireMesh.Controller.Audit
import WireMesh.Controller.Broker
import WireMesh.Controller.Db
import WireMesh.Controller.Drivers
import WireMesh.Controller.Enroll
import WireMesh.Controller.Enrollment
import WireMesh.Controller.Fabric
import WireMesh.Controller.KeyRing
import WireMesh.Controller.Ops
import WireMesh.Controller.Projection
import WireMesh.Controller.Rotation
import WireMesh.Controller.Service
import WireMesh.Controller.StandIn
import WireMesh.Controller.Sweep
import WireMesh.Controller.Sync
import WireMesh.Controller.System
import WireMesh.Controller.Tx
import WireMesh.Controller.Theorems.Aborts
import WireMesh.Controller.Theorems.Acks
import WireMesh.Controller.Theorems.Alone
import WireMesh.Controller.Theorems.Announce
import WireMesh.Controller.Theorems.Broker
import WireMesh.Controller.Theorems.Commit
import WireMesh.Controller.Theorems.Enroll
import WireMesh.Controller.Theorems.Epochs
import WireMesh.Controller.Theorems.Eras
import WireMesh.Controller.Theorems.Expiry
import WireMesh.Controller.Theorems.Fabric
import WireMesh.Controller.Theorems.Handlers
import WireMesh.Controller.Theorems.History
import WireMesh.Controller.Theorems.Jobs
import WireMesh.Controller.Theorems.Keys
import WireMesh.Controller.Theorems.Orders
import WireMesh.Controller.Theorems.Overheard
import WireMesh.Controller.Theorems.Reapply
import WireMesh.Controller.Theorems.RelayStream
import WireMesh.Controller.Theorems.Reports
import WireMesh.Controller.Theorems.Revocations
import WireMesh.Controller.Theorems.Segments
import WireMesh.Controller.Theorems.Served
import WireMesh.Controller.Theorems.Subject
import WireMesh.Controller.Theorems.Sweep
import WireMesh.Controller.Theorems.Table
import WireMesh.Controller.Theorems.Tokens
import WireMesh.Controller.Theorems.Trackers
import WireMesh.Controller.Theorems.Uses
import WireMesh.Controller.Theorems.Votes
import WireMesh.Controller.Theorems.Withdrawn
import WireMesh.Gateway.Backoff
import WireMesh.Gateway.Base64
import WireMesh.Gateway.Driver
import WireMesh.Gateway.Enforce
import WireMesh.Gateway.EpochKeys
import WireMesh.Gateway.FailStatic
import WireMesh.Gateway.Joint
import WireMesh.Gateway.KeyStore
import WireMesh.Gateway.Main
import WireMesh.Gateway.Ops
import WireMesh.Gateway.Path
import WireMesh.Gateway.Persist
import WireMesh.Gateway.PolicyApply
import WireMesh.Gateway.Punch
import WireMesh.Gateway.Reconcile
import WireMesh.Gateway.Rotation
import WireMesh.Gateway.StandIn
import WireMesh.Gateway.State
import WireMesh.Gateway.Steady
import WireMesh.Gateway.System
import WireMesh.Gateway.Transport
import WireMesh.Gateway.TunnelSet
import WireMesh.Gateway.Tunnels
import WireMesh.Gateway.Uapi
import WireMesh.Gateway.UapiText
import WireMesh.Gateway.Watch
import WireMesh.Gateway.Theorems.Backoff
import WireMesh.Gateway.Theorems.Base64
import WireMesh.Gateway.Theorems.Commits
import WireMesh.Gateway.Theorems.Driver
import WireMesh.Gateway.Theorems.Encodes
import WireMesh.Gateway.Theorems.Evidence
import WireMesh.Gateway.Theorems.FailStatic
import WireMesh.Gateway.Theorems.Fenced
import WireMesh.Gateway.Theorems.Frame
import WireMesh.Gateway.Theorems.Guard
import WireMesh.Gateway.Theorems.Handover
import WireMesh.Gateway.Theorems.Headers
import WireMesh.Gateway.Theorems.Joint
import WireMesh.Gateway.Theorems.KeyStore
import WireMesh.Gateway.Theorems.Lanes
import WireMesh.Gateway.Theorems.Path
import WireMesh.Gateway.Theorems.PeerDelta
import WireMesh.Gateway.Theorems.Persist
import WireMesh.Gateway.Theorems.PolicyApply
import WireMesh.Gateway.Theorems.Programs
import WireMesh.Gateway.Theorems.Punch
import WireMesh.Gateway.Theorems.ReadThrough
import WireMesh.Gateway.Theorems.Rotating
import WireMesh.Gateway.Theorems.Sends
import WireMesh.Gateway.Theorems.Settles
import WireMesh.Gateway.Theorems.Steady
import WireMesh.Gateway.Theorems.Transport
import WireMesh.Gateway.Theorems.Tunnels
import WireMesh.Gateway.Theorems.UapiText
import WireMesh.Gateway.Theorems.Unwind
import WireMesh.Gateway.Theorems.Watch
import WireMesh.Relay.Denylist
import WireMesh.Relay.Registration
import WireMesh.Relay.Serve
import WireMesh.Relay.Theorems.Denylist
import WireMesh.Relay.Theorems.Forward
import WireMesh.Relay.Theorems.Serve
