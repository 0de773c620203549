import WireMesh.Lib.Tasks
import WireMesh.Controller.Sync

-- The controller at work: any number of calls and background jobs side by side, each going from one
-- of its operations to the next.
namespace Controller

open Policy

inductive Request
  | createSegment (name : String) (cidrs : List String)
  | deleteSegment (segmentId : Nat)
  | mintToken (req : Admin.MintTokenRequest)
  | registerRelay (name endpoint : String)
  | rotateKey (gatewayId : Nat)
  | drain (gatewayId : Nat) (now : String)
  | revokeCert (serial now : String)
  | apply (segments : List (String × List String)) (policyYaml : Option String)
  | enroll (req : EnrollRequest)
  | report (gatewayName : String) (req : ReportRequest)
  | submitEpochKey (gatewayName : String) (epoch : Nat) (pubkey : String) (sessionGeneration : Nat)
  | watch (identityCn selfCertPem : String) (sessionGeneration : Nat)
  | probe (datagram : List (BitVec 8)) (observed : String)
  | sweepRotations
  | initiateDueRotations

-- What comes of a call is its caller's business.
def ended (x : ExceptT ε Handler α) : Handler Unit := do
  let _ ← x.run

def Request.handle [Ipnet] [Sha256] [Base64] : Request → Handler Unit
  | createSegment name cidrs        => ended (Admin.createSegment name cidrs)
  | deleteSegment s                 => ended (Admin.deleteSegment s)
  | mintToken req                   => ended (Admin.mintToken req)
  | registerRelay name endpoint     => ended (Admin.registerRelay name endpoint)
  | rotateKey g                     => ended (Admin.rotateKey g)
  | drain g now                     => ended (Admin.drain g now)
  | revokeCert serial now           => ended (Admin.revokeCert serial now)
  | apply segments policyYaml       => ended (Admin.apply segments policyYaml)
  | enroll req                      => ended (Enrollment.enroll req)
  | report name req                 => ended (Sync.report name req)
  | submitEpochKey name epoch key s => ended (Sync.submitEpochKey name epoch key s)
  | watch cn pem s                  => ended (Sync.watch cn pem s)
  | probe datagram observed         => ended (Observe.handleProbe datagram observed)
  | sweepRotations                  => Controller.sweepRotations
  | initiateDueRotations            => Controller.initiateDueRotations

inductive Outside
  | tick (now : Instant)
  | disconnect (gatewayId : Nat)

-- The clock never goes back.
inductive Ctl.Outside (c : Ctl) : Controller.Outside → Ctl → Prop
  | tick : c.clock ≤ now → Outside c (.tick now) { c with clock := now }
  | disconnect : Outside c (.disconnect g) { c with connected := c.connected.filter (· ≠ g) }

-- The process starts over with nothing but its database.
def Ctl.restart (c : Ctl) : Ctl :=
  { Ctl.start with db := c.db, clock := c.clock }

variable [Ipnet] [Sha256] [IpnetV6] [PolicyText] [Base64]

abbrev System := Pool CtlOp.Resp Ctl

abbrev SystemEvent := Pool.Event Request CtlOp.Resp Outside

abbrev History := Pool.History Request CtlOp.Resp Outside Ctl

def rules : Pool.Rules Request CtlOp.Resp Outside Ctl where
  prog    := Request.handle
  answers := Ctl.Answers
  env     := Ctl.Outside
  halt    := Ctl.restart

def System.start : System :=
  ⟨.start, []⟩

-- A run of the controller from an empty database on, with what it has gone through.
abbrev Runs (h : History) (s : System) : Prop :=
  Run (Pool.Step rules) System.start h s

instance (c : Ctl) (o : CtlOp) : Decidable (c.enabled o) :=
  inferInstanceAs (Decidable (o.isVote → c.healthLocked = false))

-- The controller as it runs where the database makes no errors.
def player : Pool.Player rules where
  exec c o := if c.enabled o then some (Ctl.exec o c) else none
  outside
    | c, .tick now     => if c.clock ≤ now then some { c with clock := now } else none
    | c, .disconnect g => some { c with connected := c.connected.filter (· ≠ g) }
  answers {c o x t} h := by
    split at h
    case isTrue he =>
      have hx : Ctl.exec o c = (x, t) := Option.some.inj h
      have ha := Ctl.Answers.done (c := c) he
      rwa [hx] at ha
    case isFalse => cases h
  env h := by
    split at h
    case h_1 =>
      split at h
      case isTrue hc =>
        cases h
        exact .tick hc
      case isFalse => cases h
    case h_2 =>
      cases h
      exact .disconnect

end Controller
