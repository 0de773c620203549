import WireMesh.Controller.Db

-- The private keys of a gateway, one for each epoch.
namespace Gateway

open Controller (KeyState)

structure EpochKey where
  epoch : Nat
  privateKeyB64 : String
  pubkeyB64 : String
  state : KeyState
deriving DecidableEq

abbrev EpochKeys := List EpochKey

namespace EpochKeys

def active (ks : EpochKeys) : Option EpochKey :=
  ks.find? (·.state = .active)

def byEpoch (ks : EpochKeys) (epoch : Nat) : Option EpochKey :=
  ks.find? (·.epoch = epoch)

-- An epoch that is taken by a pending key is minted anew, one that is taken otherwise is refused.
def generateNextAt (ks : EpochKeys) (epoch : Nat) (privateKeyB64 pubkeyB64 : String) :
    Option (EpochKey × EpochKeys) :=
  if (ks.byEpoch epoch).any (·.state ≠ .pending) then none
  else
    let key := { epoch, privateKeyB64, pubkeyB64, state := .pending }
    some (key, ks.filter (·.epoch ≠ epoch) ++ [key])

def promote (ks : EpochKeys) (epoch : Nat) : Option EpochKeys :=
  if ks.any fun k => k.epoch = epoch ∧ k.state = .pending then
    let retiring : EpochKeys := ks.map fun k =>
      if k.state = .active then { k with state := .retiring } else k
    match retiring.findIdx? (·.epoch = epoch) with
    | some i => some (retiring.modify i fun k => { k with state := .active })
    | none   => none
  else none

def retire (ks : EpochKeys) (epoch : Nat) : Option EpochKeys :=
  if ks.any fun k => k.epoch = epoch ∧ k.state = .retiring then some (ks.filter (·.epoch ≠ epoch))
  else none

def discardPending (ks : EpochKeys) (epoch : Nat) : Option EpochKeys :=
  if ks.any fun k => k.epoch = epoch ∧ k.state = .pending then some (ks.filter (·.epoch ≠ epoch))
  else none

-- The key that a gateway starts on: the active one of its store, or the one it has enrolled with.
def selectBootKey (store : Option EpochKeys) (legacyPrivB64 legacyPubB64 : String) : EpochKey :=
  (store.bind active).getD ⟨0, legacyPrivB64, legacyPubB64, .active⟩

end EpochKeys
end Gateway
