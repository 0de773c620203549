import WireMesh.Gateway.UapiText
import WireMesh.Gateway.Theorems.Guard
import WireMesh.Gateway.Theorems.Encodes
import WireMesh.Gateway.Theorems.Tunnels

-- A device reads a request as it was meant, whatever the texts in it.
namespace Gateway.Uapi

open Text Reconcile

variable {l : Line} {p : PeerConfig} {body : Body}

-- Lines that can be told from the text that is around them.
def Line.Sound : Line → Prop
  | privateKey key | publicKey key => key.length = 32
  | endpoint text | allowedIp text => '\n' ∉ text.toList
  | _                              => True

theorem Line.Sound.plain (h : l.Sound) : Plain l.field := by
  have digits (n : Nat) : '\n' ∉ Nat.toDigits 10 n := not_mem_toDigits rfl
  have hex (key : Key) : '\n' ∉ writeHex key := not_mem_writeHex (by decide) key
  cases l
  case privateKey | publicKey                         => exact ⟨by simp [field, name], hex _⟩
  case listenPort | persistentKeepaliveInterval       => exact ⟨by simp [field, name], digits _⟩
  case endpoint | allowedIp                           => exact ⟨by simp [field, name], h⟩
  case replacePeers | remove | replaceAllowedIps      => exact ⟨by simp [field, name], by decide⟩

theorem readKey_writeHex {key : Key} (h : key.length = 32) : readKey (writeHex key) = some key := by
  simp [readKey, readHex_writeHex, Option.filter, h]

theorem Line.Sound.readLine (h : l.Sound) : readLine l.field = some l := by
  cases l
  case privateKey key | publicKey key =>
    simp [Uapi.readLine, field, name, value, readKey_writeHex (show key.length = 32 from h)]
  case listenPort n | persistentKeepaliveInterval n =>
    simp [Uapi.readLine, field, name, value, parseDigits_toDigits]
  case endpoint | allowedIp                      => simp [Uapi.readLine, field, name, value]
  case replacePeers | remove | replaceAllowedIps => simp [Uapi.readLine, field, name, value, readTrue]

theorem readRequest_text (h : ∀ l ∈ body, l.Sound) :
    readRequest body.text = some (.ofBody body) := by
  have plain : ∀ f ∈ body.map Line.field, Plain f := by
    simpa using fun l hl => (h l hl).plain
  have lines : (body.map Line.field).mapM readLine = some body := by
    induction body
    case nil => rfl
    case cons l body ih =>
      have ⟨hl, hb⟩ := List.forall_mem_cons.mp h
      have ih := ih hb (List.forall_mem_cons.mp plain).2
      rw [List.map_cons, List.mapM_cons, hl.readLine, ih]
      rfl
  rw [readRequest, Body.text, String.toList_ofList, readFields_writeFields plain]
  simp [lines]

section Peers

theorem not_mem_of_isDialableEndpoint (h : isDialableEndpoint ep) : '\n' ∉ ep.toList := by
  have ⟨_, hp⟩ := Option.isSome_iff_exists.mp h
  intro hm
  have := letters_of_parseSocketAddrV4 hp _ hm
  revert this
  decide

theorem not_mem_of_isValidIpv4Cidr (h : isValidIpv4Cidr cidr) : '\n' ∉ cidr.toList := by
  rw [isValidIpv4Cidr] at h
  split at h
  case h_1 => cases h
  case h_2 ip len hs =>
    have ⟨hi, hl⟩ := Bool.and_eq_true_iff.mp h
    have ⟨_, hi⟩ := Option.isSome_iff_exists.mp hi
    have ⟨_, hl, _⟩ := (Option.any_eq_true ..).mp hl
    rw [splitOnce_eq_some hs]
    simp only [List.mem_append, List.mem_cons, not_or]
    refine ⟨fun hm => ?_, by decide, fun hm => ?_⟩
    case refine_1 => exact absurd (letters_of_parseIpv4Addr hi _ hm) (by decide)
    case refine_2 => exact absurd (letters_of_parseUnsigned hl _ hm) (by decide)

theorem length_of_keyOfB64 (h : keyOfB64 b64 = .ok key) : key.length = 32 := by
  rw [keyOfB64] at h
  split at h
  case h_1 => cases h
  case h_2 =>
    split at h
    case isTrue hl => exact Except.ok.inj h ▸ hl
    case isFalse   => cases h

theorem pubkeyDecodes_of_keyOfB64 (h : keyOfB64 b64 = .ok key) : pubkeyDecodes b64 := by
  have hl := length_of_keyOfB64 h
  rw [keyOfB64] at h
  split at h
  case h_1 => cases h
  case h_2 raw hd =>
    split at h
    case isTrue hr => simp [pubkeyDecodes, hd, hr]
    case isFalse   => cases h

theorem forM_eq_ok {ε α : Type} {f : α → Except ε Unit} {as : List α} (h : as.forM f = .ok u) :
    ∀ a ∈ as, f a = .ok () := by
  induction as
  case nil => nofun
  case cons a as ih =>
    have ⟨_, ha, has⟩ := Checked.bind_ok.mp (show (f a >>= fun _ => as.forM f) = _ from h)
    exact List.forall_mem_cons.mpr ⟨ha, ih has⟩

-- Only what is fit for the device is taken.
theorem writable_of_peerBlock (h : peerBlock p = .ok body) : Writable p := by
  simp only [peerBlock, Checked.bind_ok] at h
  obtain ⟨_, he, _, hc, key, hk, _⟩ := h
  refine ⟨pubkeyDecodes_of_keyOfB64 hk, fun ep hp => ?_, fun cidr hm => ?_⟩
  case refine_1 =>
    rw [Option.mem_def.mp hp] at he
    by_contra hn
    cases (if_neg hn).symm.trans he
  case refine_2 =>
    by_contra hn
    cases (if_neg hn).symm.trans (forM_eq_ok hc cidr hm)

-- The lines of a peer after the one with its key.
def PeerConfig.lines (p : PeerConfig) : List Line :=
  p.endpoint.toList.map .endpoint ++ .replaceAllowedIps :: p.allowedIps.map .allowedIp ++
    [.persistentKeepaliveInterval p.keepaliveSecs]

-- What is read of peers is their keys, and of each one its own lines.
abbrev Entries : List PeerConfig → List (Key × List Line) → Prop :=
  List.Forall₂ fun p e => keyOfB64 p.publicKeyB64 = .ok e.1 ∧ e.2 = p.lines

theorem ofBody_append {pre : Body} (h : ∀ l ∈ pre, !l.isPublicKey) : Request.ofBody (pre ++ body) =
    { Request.ofBody body with device := pre ++ (Request.ofBody body).device } := by
  induction pre
  case nil => rfl
  case cons l pre ih =>
    have ⟨hl, hp⟩ := List.forall_mem_cons.mp h
    cases l
    case publicKey => cases hl
    all_goals simp [Request.ofBody, ih hp]

theorem not_isPublicKey_lines : ∀ l ∈ p.lines, !l.isPublicKey := by
  simp only [PeerConfig.lines, List.mem_append, List.mem_map, List.mem_cons]
  grind [Line.isPublicKey]

theorem Blocks.entries (hb : Blocks peers blocks) :
    ∃ entries, Entries peers entries ∧ Request.ofBody blocks.flatten = { peers := entries } := by
  induction hb
  case nil => exact ⟨[], .nil, rfl⟩
  case cons p block peers blocks hp _ ih =>
    have ⟨entries, he, ho⟩ := ih
    have ⟨key, hk, hl⟩ := peerBlock_ok hp
    refine ⟨(key, p.lines) :: entries, .cons ⟨hk, rfl⟩ he, ?_⟩
    have hl : block = .publicKey key :: p.lines := hl
    rw [List.flatten_cons, hl, List.cons_append, Request.ofBody, ofBody_append not_isPublicKey_lines,
      ho]
    simp

theorem Blocks.sound (hb : Blocks peers blocks) : ∀ l ∈ blocks.flatten, l.Sound := by
  induction hb
  case nil => nofun
  case cons p block peers blocks hp _ ih =>
    have ⟨key, hk, hl⟩ := peerBlock_ok hp
    have hw := writable_of_peerBlock hp
    have own : ∀ l ∈ block, l.Sound := by
      intro l hm
      simp only [hl, List.mem_append, List.mem_cons, List.mem_map, List.not_mem_nil, or_false,
        Option.mem_toList] at hm
      rcases hm with ((rfl | ⟨ep, he, rfl⟩) | rfl | ⟨cidr, hc, rfl⟩) | rfl
      case inl.inl.inl => exact length_of_keyOfB64 hk
      case inl.inl.inr => exact not_mem_of_isDialableEndpoint (hw.endpoint ep he)
      case inl.inr.inr => exact not_mem_of_isValidIpv4Cidr (hw.allowedIps cidr hc)
      all_goals trivial
    exact List.forall_mem_append.mpr ⟨own, ih⟩

theorem isDialableEndpoint_of_ownTunEndpoint (h : ownTunEndpoint candidate = some ep) :
    isDialableEndpoint ep := by
  simp only [ownTunEndpoint, Option.bind_eq_bind, Option.bind_eq_some_iff, Prod.exists] at h
  obtain ⟨ip, port, _, own, ho, he⟩ := h
  obtain ⟨hp, _⟩ := checkedAddPort_eq_some.mp ho
  have ho : own < 2 ^ 16 := by omega
  cases he
  simp [isDialableEndpoint, parseSocketAddrV4_chars ip ho]

end Peers

theorem reads_encodeAddPeers (h : encodeAddPeersText peers = .ok text) :
    ∃ entries, Entries peers entries ∧ readRequest text = some ⟨[], entries⟩ := by
  simp only [encodeAddPeersText, Checked.bind_ok, Checked.pure_ok, encodeAddPeers_ok] at h
  have ⟨_, ⟨blocks, hb, he⟩, ht⟩ := h
  have ⟨entries, hs, ho⟩ := hb.entries
  subst he ht
  exact ⟨entries, hs, by rw [readRequest_text hb.sound, ho]⟩

theorem reads_encodeSet (h : encodeSetText cfg = .ok text) :
    ∃ key entries, keyOfB64 cfg.privateKeyB64 = .ok key ∧ Entries cfg.peers entries ∧
      readRequest text =
        some ⟨[.privateKey key, .listenPort cfg.listenPort, .replacePeers], entries⟩ := by
  simp only [encodeSetText, Checked.bind_ok, Checked.pure_ok, encodeSet_ok] at h
  have ⟨_, ⟨key, blocks, hk, hb, he⟩, ht⟩ := h
  have ⟨entries, hs, ho⟩ := hb.entries
  subst he ht
  have sound : ∀ l ∈ [.privateKey key, .listenPort cfg.listenPort, .replacePeers] ++ blocks.flatten,
      l.Sound := by
    refine List.forall_mem_append.mpr ⟨?_, hb.sound⟩
    simpa [Line.Sound] using length_of_keyOfB64 hk
  refine ⟨key, entries, hk, hs, ?_⟩
  rw [readRequest_text sound, ofBody_append (by simp [Line.isPublicKey]), ho]
  rfl

theorem encodeAddPeersText_one :
    (∃ text, encodeAddPeersText [p] = .ok text) ↔ Writable p := by
  constructor
  case mp =>
    intro ⟨_, h⟩
    simp only [encodeAddPeersText, Checked.bind_ok, encodeAddPeers_ok] at h
    have ⟨_, ⟨_, hb, _⟩, _⟩ := h
    have ⟨_, _, hp, _, _⟩ := List.forall₂_cons_left_iff.mp hb
    exact writable_of_peerBlock hp
  case mpr =>
    intro h
    have ⟨block, hb⟩ := h.peerBlock
    exact ⟨_, Checked.bind_ok.mpr ⟨_, encodeAddPeers_ok.mpr ⟨[block], .cons hb .nil, rfl⟩, rfl⟩⟩

-- A request is read as one, with the device's own part in front and then the peers in their order, and
-- the endpoint of a new epoch can be told to every device that could be told of the peer.
theorem requests_read_back :
    (∀ cfg text, encodeSetText cfg = .ok text →
      ∃ key entries, keyOfB64 cfg.privateKeyB64 = .ok key ∧ Entries cfg.peers entries ∧
        readRequest text =
          some ⟨[.privateKey key, .listenPort cfg.listenPort, .replacePeers], entries⟩) ∧
    (∀ peers text, encodeAddPeersText peers = .ok text →
      ∃ entries, Entries peers entries ∧ readRequest text = some ⟨[], entries⟩) ∧
    ∀ candidate ep, ownTunEndpoint candidate = some ep →
      ∀ p : PeerConfig, (∃ text, encodeAddPeersText [{ p with endpoint := none }] = .ok text) →
        ∃ text entries, encodeAddPeersText [{ p with endpoint := some ep }] = .ok text ∧
          Entries [{ p with endpoint := some ep }] entries ∧
          readRequest text = some ⟨[], entries⟩ := by
  refine ⟨fun _ _ => reads_encodeSet, fun _ _ => reads_encodeAddPeers, fun candidate ep he p hp => ?_⟩
  have hw := encodeAddPeersText_one.mp hp
  have hw : Writable { p with endpoint := some ep } := by
    refine ⟨hw.key, fun _ hm => ?_, hw.allowedIps⟩
    cases hm
    exact isDialableEndpoint_of_ownTunEndpoint he
  have ⟨text, ht⟩ := encodeAddPeersText_one.mpr hw
  have ⟨entries, hs, hr⟩ := reads_encodeAddPeers ht
  exact ⟨text, entries, ht, hs, hr⟩

-- A peer at an address that another port follows.
theorem requests_read_back_derived : ∃ text entries,
    ownTunEndpoint "203.0.113.7:0051820" = some "203.0.113.7:51821" ∧
      encodeAddPeersText [⟨"AAAAAAAAAAAAAAAAAAAAAAAAAAAAAAAAAAAAAAAAAAA=",
        some "203.0.113.7:51821", ["10.0.0.0/+8"], 3⟩] = .ok text ∧
      readRequest text = some ⟨[], entries⟩ := by
  have he : ownTunEndpoint "203.0.113.7:0051820" = some "203.0.113.7:51821" := by decide +kernel
  have hw : Writable ⟨"AAAAAAAAAAAAAAAAAAAAAAAAAAAAAAAAAAAAAAAAAAA=", none, ["10.0.0.0/+8"], 3⟩ :=
    ⟨by decide +kernel, nofun, by decide +kernel⟩
  have ⟨text, entries, ht, _, hr⟩ := requests_read_back.2.2 _ _ he
    ⟨"AAAAAAAAAAAAAAAAAAAAAAAAAAAAAAAAAAAAAAAAAAA=", none, ["10.0.0.0/+8"], 3⟩
    (encodeAddPeersText_one.mpr hw)
  exact ⟨text, entries, he, ht, hr⟩

end Gateway.Uapi
