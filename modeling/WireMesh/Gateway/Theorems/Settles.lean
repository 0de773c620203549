import WireMesh.Gateway.StandIn
import WireMesh.Gateway.Theorems.Steady

-- A state that has been applied is on the active device, as long as no peer that could not be put back
-- is asked for just as it was recorded.
namespace Gateway
namespace Steady

open Uapi

variable {h : History} {s : System}

-- One thing at a time. The keys of the peers can be told apart, and what is recorded of a peer that is
-- off the device is not what is asked for.
def InTurn (_ : History) (s : System) : SystemEvent → Prop
  | .op _ (.lock _) _                    => s.shared.held = []
  | .op _ (.transition _ _) _            => s.shared.held = []
  | .env _                               => s.shared.held = []
  | .op _ (.deviceConfig ds key port) _ =>
    let peers := (s.shared.pinnedConfig ds key port).peers
    Distinct peers ∧ ∀ d ∈ s.shared.devices.lookup s.shared.active.ifname,
      Untorn s.shared.active d peers
  | _                                    => True

instance : Decidable (InTurn h s e) := by
  unfold InTurn
  cases e
  case op i o x => cases o <;> dsimp only <;> infer_instance
  all_goals
    dsimp only
    infer_instance

-- A state goes out once it has been applied. The peers of the active device are those that it asks for.
def Settles (_ : History) (s : System) : SystemEvent → Prop
  | .op _ (.publish ds) _ =>
    (s.shared.devices.lookup s.shared.active.ifname).any fun d => d.Holds
      (s.shared.pinnedConfig ds s.shared.active.privKey s.shared.active.wgPort).peers
  | _                     => True

instance : Decidable (Settles h s e) := by
  unfold Settles
  split <;> infer_instance

theorem valid_inTurn : (session id Untorn).Valid rules fun p e => InTurn [] p e := by
  refine valid (fun _ _ _ _ hk => hk) (fun p i o x t hk ha => ?_)
    (fun _ _ _ _ _ _ hk _ hb => absurd hk hb) fun _ _ _ hk _ hb => absurd hk hb
  cases o
  case deviceConfig =>
    have ⟨hx, _⟩ := answers_deviceConfig ha
    subst hx
    exact hk
  all_goals trivial

-- With the pins as they were, the configuration is the one that they make now.
theorem Built.eq {g : Gw} (hb : Built id ds dev g) :
    dev = g.pinnedConfig ds g.active.privKey g.active.wgPort := by
  have ⟨u, hp, he⟩ := hb
  have ⟨hw, hl⟩ := Prod.mk.inj hp
  rw [he, Gw.pinnedConfig, Gw.pinnedConfig, hw, hl]

theorem applied_states_settle (run : Runs config stateJson storedKeys h s)
    (hk : Run.Along InTurn h) : Run.Along Settles h := by
  suffices hs : (∃ who, (session id Untorn).Sound rules who s) ∧ Run.Along Settles h from hs.2
  induction run
  case start => exact ⟨⟨none, .start (rest_up _)⟩, trivial⟩
  case step h s e t run hs ih =>
    have ⟨⟨who, sound⟩, before⟩ := ih hk.2
    refine ⟨sound.step valid_inTurn hs hk.1, ?_, before⟩
    unfold Settles
    split
    case h_2 => trivial
    case h_1 i ds x =>
      have ⟨dev, hb, d, hd, _, hh⟩ := sound.pre valid_inTurn hs id id id
      rw [← hb.eq, hd]
      exact decide_eq_true (hh fun _ _ _ => id)

-- A peer whose endpoint could not be written.
namespace Unreturned

open StandIn

def onePeer : DesiredState :=
  state [⟨2, "", some peerKey, [⟨0, peerKey, .active⟩], ["192.0.2.2:51820"], ["10.2.0.0/16"]⟩]

-- A peer cannot be put back.
def choose : Op → Choice
  | .send _ body => { succeeds := ¬ AddOnly body }
  | _            => {}

-- The path of the peer comes to the state at the end, before the desired state is applied anew.
def played (after : PathState) : History × System :=
  Pool.play (player choose) ⟨up (.start config none none), []⟩
    [.spawn (.applyState onePeer), .run 0 20, .spawn (.setPeerEndpoint 2 "192.0.2.9:51820" true),
      .run 1 20, .spawn (.transition 2 after), .run 2 1, .spawn (.applyState onePeer), .run 3 20]

theorem runs_played (after : PathState) : Runs config none none (played after).1 (played after).2 :=
  Pool.play_run _ _ _

-- With the endpoint unpinned the peer looks as it did when it was recorded, and stays off the device.
set_option maxRecDepth 10000 in
theorem applied_states_settle_unpinned :
    Runs config none none (played .disconnected).1 (played .disconnected).2 ∧
      ¬ Run.Along Settles (played .disconnected).1 ∧
      (played .disconnected).2.shared.published = some onePeer ∧
      ((played .disconnected).2.shared.devices.lookup "wg0").map (·.peers) = some [] :=
  ⟨runs_played _, by decide +kernel, by decide +kernel, by decide +kernel⟩

set_option maxRecDepth 10000 in
theorem applied_states_settle_pinned :
    (∃ e ∈ (played .relayed).1, e.2 matches .op 3 (.publish _) _) ∧
      Run.Along Settles (played .relayed).1 :=
  ⟨by decide +kernel, applied_states_settle (runs_played _) (by decide +kernel)⟩

end Unreturned
end Steady
end Gateway
