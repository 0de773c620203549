import WireMesh.Controller.Sync

-- Services that run with nobody else at work.
namespace Controller

open Policy Handler

variable [Ipnet] [Sha256] [IpnetV6] [PolicyText]

def alone (p : Handler α) (c : Ctl) : α × Ctl :=
  p.run Ctl.exec c

@[simp]
theorem alone_pure (a : α) (c : Ctl) : alone (pure a) c = (a, c) :=
  rfl

@[simp]
theorem alone_bind (p : Handler α) (f : α → Handler β) (c : Ctl) :
    alone (p >>= f) c = alone (f (alone p c).1) (alone p c).2 :=
  Prog.run_bind ..

@[simp]
theorem alone_map (f : α → β) (p : Handler α) (c : Ctl) :
    alone (f <$> p) c = (f (alone p c).1, (alone p c).2) :=
  alone_bind ..

-- The type of a response computes, so it is no part of what these lemmas are found by.
@[simp]
theorem alone_perform (o : CtlOp) (c : Ctl) :
    @alone _ _ _ _ (no_index o.Resp) (Prog.perform o) c = Ctl.exec o c :=
  rfl

@[simp]
theorem alone_ask (q : Query) (c : Ctl) :
    @alone _ _ _ _ (no_index (Except String q.Resp)) (ask q) c = (.ok (c.db.ask q), c) :=
  rfl

@[simp]
theorem alone_commit (t : Tx) (c : Ctl) :
    @alone _ _ _ _ (no_index t.Resp) (commit t) c =
      ((c.db.commit t).1, { c with db := (c.db.commit t).2 }) :=
  rfl

@[simp]
theorem alone_publish (ev : ChangeEvent) (c : Ctl) :
    alone (publish ev) c = ((), { c with channel := c.channel ++ [ev] }) :=
  rfl

-- A call goes on with what its step has yielded, or ends with the error.
@[simp]
theorem alone_run_bind (x : ExceptT ε Handler α) (f : α → ExceptT ε Handler β) (c : Ctl) :
    alone (x >>= f).run c =
      match alone x.run c with
      | (.ok a, c')    => alone (f a).run c'
      | (.error e, c') => (.error e, c') := by
  rw [ExceptT.run_bind, alone_bind]
  rcases alone x.run c with ⟨_ | _, _⟩ <;> rfl

@[simp]
theorem alone_run_pure (a : α) (c : Ctl) :
    alone (pure a : ExceptT ε Handler α).run c = (.ok a, c) :=
  rfl

@[simp]
theorem alone_run_throw (e : ε) (c : Ctl) :
    alone (throw e : ExceptT ε Handler α).run c = (.error e, c) :=
  rfl

@[simp]
theorem alone_run_lift (p : Handler α) (c : Ctl) :
    alone (ExceptT.lift p : ExceptT ε Handler α).run c = (.ok (alone p c).1, (alone p c).2) :=
  alone_bind ..

@[simp]
theorem alone_orStatus (status : ε → Status) (x : Except ε α) (c : Ctl) :
    alone (orStatus status x).run c =
      match x with
      | .ok a    => (.ok a, c)
      | .error e => (.error (status e), c) := by
  cases x <;> rfl

@[simp]
theorem alone_askOr (context : String) (q : Query) (c : Ctl) :
    @alone _ _ _ _ (Except Status (no_index q.Resp))
      (@ExceptT.run _ _ (no_index q.Resp) (askOr context q)) c = (.ok (c.db.ask q), c) := by
  simp [askOr]

namespace Sync

@[simp]
theorem alone_read (q : Query) (c : Ctl) :
    @alone _ _ _ _ (Except String (no_index q.Resp))
      (@ExceptT.run _ _ (no_index q.Resp) (read q)) c = (.ok (c.db.ask q), c) :=
  rfl

end Sync
end Controller

namespace Controller.Db

variable (db : Db)

-- What is on file about a gateway.
def facts (gw : GatewayIdentity) : GatewayFacts where
  gatewayId          := gw.id
  segmentName        := gw.segmentName
  allowedIps         := db.cidrsForSegment gw.segmentId
  keys               := db.allKeysForGateway gw.id
  candidateEndpoints := db.candidatesFor gw.id

def policy : Nat × List (BitVec 8) :=
  match db.latestPolicy with
  | some (version, compiledIr) => (version, Text.bytesOf compiledIr)
  | none                       => (0, [])

-- The snapshot that a gateway gets of one state of the database.
def snapshot (gatewayId : Nat) (selfCertPem : String) : StateSnapshot where
  revision       := db.revision
  selfCertPem    := selfCertPem
  peers          := (db.listOtherGateways gatewayId).map fun gw => (db.facts gw).peer
  relayInfos     := relayInfosOf db.activeRelays
  policyIr       := db.policy.2
  policyVersion  := db.policy.1
  revokedSerials := db.revokedSerials

end Controller.Db

namespace Controller.Sync

open Policy

variable [Ipnet] [Sha256] [IpnetV6] [PolicyText]

theorem alone_peersOf (gws : List GatewayIdentity) (c : Ctl) :
    alone (peersOf gws).run c = (.ok (gws.map fun gw => (c.db.facts gw).peer), c) := by
  induction gws
  case nil => rfl
  case cons gw gws ih =>
    simp [peersOf, ih]
    rfl

theorem alone_buildSnapshot (gatewayId : Nat) (selfCertPem : String) (c : Ctl) :
    alone (buildSnapshot gatewayId selfCertPem).run c =
      (.ok (c.db.snapshot gatewayId selfCertPem), c) := by
  have peers := alone_peersOf (c.db.ask (.listOtherGateways gatewayId)) c
  simp [buildSnapshot, peers]
  rfl

end Controller.Sync
