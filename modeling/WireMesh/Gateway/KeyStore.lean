import WireMesh.Gateway.EpochKeys

-- The calls on a gateway's key store, statement by statement. A call that fails leaves behind what it
-- has done to the store up to then.
namespace Gateway

open Controller (KeyState)

def keyStateText : KeyState → String
  | .pending  => "pending"
  | .active   => "active"
  | .retiring => "retiring"

-- What a key is generated from: the random bytes, and the public key if it can be derived from them.
structure KeyDraw where
  privateKeyB64 : String
  pubkeyB64 : Option String
deriving DecidableEq

abbrev KeyStore := ExceptT String (StateM EpochKeys)

namespace KeyStore

-- What a call answers, and the store that it leaves.
def exec (x : KeyStore α) (ks : EpochKeys) : Except String α × EpochKeys :=
  StateT.run (ExceptT.run x) ks

def fromLegacy (draw : KeyDraw) : Except String EpochKeys :=
  match draw.pubkeyB64 with
  | some pubkeyB64 => .ok [⟨0, draw.privateKeyB64, pubkeyB64, .active⟩]
  | none           => .error "deriving pubkey for legacy epoch-0 key"

def derive (draw : KeyDraw) : KeyStore String :=
  match draw.pubkeyB64 with
  | some pubkeyB64 => return pubkeyB64
  | none           => throw "deriving pubkey for newly generated epoch key"

def refuseOccupied (epoch : Nat) : KeyStore Unit := do
  match (← get).byEpoch epoch with
  | some occupant =>
    if occupant.state ≠ .pending then
      let state := keyStateText occupant.state
      throw s!"cannot mint epoch {epoch}: already occupied by a \"{state}\" key"
  | none => return

def generateNextAt (epoch : Nat) (draw : KeyDraw) : KeyStore Unit := do
  refuseOccupied epoch
  let pubkeyB64 ← derive draw
  modify fun ks : EpochKeys => ks.filter (·.epoch ≠ epoch)
  modify fun ks : EpochKeys => ks ++ [⟨epoch, draw.privateKeyB64, pubkeyB64, .pending⟩]

-- The epoch has a key in the state that the call is for.
def require (epoch : Nat) (state : KeyState) (error : String) : KeyStore Unit := do
  if !(← get).any fun k => k.epoch = epoch ∧ k.state = state then throw error

def promote (epoch : Nat) : KeyStore Unit := do
  require epoch .pending s!"cannot promote epoch {epoch}: not found or not in \"pending\" state"
  modify fun ks : EpochKeys => ks.map fun k =>
    if k.state = .active then { k with state := .retiring } else k
  match (← get).findIdx? (·.epoch = epoch) with
  | some i => modify fun ks : EpochKeys => ks.modify i fun k => { k with state := .active }
  | none   => throw "checked above"

def retire (epoch : Nat) : KeyStore Unit := do
  require epoch .retiring s!"cannot retire epoch {epoch}: not found or not in \"retiring\" state"
  modify fun ks : EpochKeys => ks.filter (·.epoch ≠ epoch)

def discardPending (epoch : Nat) : KeyStore Unit := do
  require epoch .pending s!"cannot discard epoch {epoch}: not found or not in \"pending\" state"
  modify fun ks : EpochKeys => ks.filter (·.epoch ≠ epoch)

def selectBootKey (store : Option EpochKeys) (legacy : KeyDraw) : Except String EpochKey :=
  match store.bind EpochKeys.active with
  | some active => .ok active
  | none        =>
    match legacy.pubkeyB64 with
    | some pubkeyB64 => .ok ⟨0, legacy.privateKeyB64, pubkeyB64, .active⟩
    | none           => .error "deriving pubkey for legacy boot-key fallback"

inductive Call
  | generateNextAt (epoch : Nat) (draw : KeyDraw)
  | promote (epoch : Nat)
  | retire (epoch : Nat)
  | discardPending (epoch : Nat)
deriving DecidableEq

def Call.prog : Call → KeyStore Unit
  | generateNextAt epoch draw => KeyStore.generateNextAt epoch draw
  | promote epoch             => KeyStore.promote epoch
  | retire epoch              => KeyStore.retire epoch
  | discardPending epoch      => KeyStore.discardPending epoch

def Call.run (c : Call) (ks : EpochKeys) : Except String Unit × EpochKeys :=
  exec c.prog ks

end KeyStore
end Gateway
