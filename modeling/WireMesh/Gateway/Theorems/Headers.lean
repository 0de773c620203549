import WireMesh.Gateway.Theorems.UapiText

-- The header of a request: what can be told from it, and how its port is changed.
namespace Gateway.Uapi

open Text

variable {cfg : DeviceConfig} {key : Key} {port : Nat}

-- The lines of a device itself.
def headerLines (key : Key) (port : Nat) : Body :=
  [.privateKey key, .listenPort port, .replacePeers]

def Body.lines (body : Body) : List Char :=
  body.flatMap fun l => writeField l.field

theorem text_eq (body : Body) : body.text = String.ofList (body.lines ++ ['\n']) := by
  rw [Body.text, writeFields, List.flatMap_map]
  rfl

theorem lines_header : (headerLines key port).lines =
    writeField (Line.privateKey key).field ++ (writeField (Line.listenPort port).field ++
      writeField Line.replacePeers.field) := by
  simp [headerLines, Body.lines]

-- No line of the header has the name of a peer's key in it.
theorem cutBefore_header (key : Key) (port : Nat) (r : List Char) :
    cutBefore "public_key=".toList ((headerLines key port).lines ++ r) =
      ((headerLines key port).lines ++ (cutBefore "public_key=".toList r).1,
        (cutBefore "public_key=".toList r).2) := by
  have hp : "public_key=".toList = "public_key".toList ++ ['='] := by decide
  have line (l : Line) (hv : '=' ∉ l.value)
      (hn : '=' ∉ l.name.toList ∧ ¬ "public_key".toList <:+ l.name.toList) (r : List Char) :
      cutBefore "public_key=".toList (writeField l.field ++ r) =
        (writeField l.field ++ (cutBefore "public_key=".toList r).1,
          (cutBefore "public_key=".toList r).2) :=
    hp ▸ cutBefore_field (by decide) ⟨hn.1, hv⟩ hn.2
  rw [lines_header, List.append_assoc, List.append_assoc,
    line (.privateKey key) (not_mem_writeHex (by decide) key) (by rw [Line.name]; decide),
    line (.listenPort port) (not_mem_toDigits rfl) (by rw [Line.name]; decide),
    line .replacePeers (by decide) (by decide)]
  simp

-- The end of a request belongs to its header if there are no peers.
def headerEnd (peers : List PeerConfig) : List Char :=
  if peers = [] then ['\n'] else []

def peersText (peers : List PeerConfig) (blocks : List Body) : List Char :=
  if peers = [] then [] else Body.lines blocks.flatten ++ ['\n']

theorem headerEnd_append (hb : Blocks peers blocks) :
    headerEnd peers ++ peersText peers blocks = Body.lines blocks.flatten ++ ['\n'] := by
  cases hb <;> rfl

theorem cutBefore_peers (hb : Blocks peers blocks) :
    cutBefore "public_key=".toList (Body.lines blocks.flatten ++ ['\n']) =
      (headerEnd peers, peersText peers blocks) := by
  cases hb
  case nil => decide
  case cons p block peers blocks hp _ =>
    have ⟨key, _, hl⟩ := peerBlock_ok hp
    have hl : Body.lines (block :: blocks).flatten ++ ['\n'] =
        "public_key=".toList ++ (writeHex key ++ ['\n'] ++
          (Body.lines (p.lines ++ blocks.flatten) ++ ['\n'])) := by
      rw [List.flatten_cons, hl]
      simp [Body.lines, PeerConfig.lines, writeField, Line.field, Line.name, Line.value]
    rw [headerEnd, peersText, if_neg (List.cons_ne_nil _ _), if_neg (List.cons_ne_nil _ _), hl]
    exact cutBefore_of_isPrefix (List.prefix_append ..)

theorem encodeSetText_ok : encodeSetText cfg = .ok text ↔ ∃ key blocks,
    keyOfB64 cfg.privateKeyB64 = .ok key ∧ Blocks cfg.peers blocks ∧ text = String.ofList
      ((headerLines key cfg.listenPort).lines ++ headerEnd cfg.peers ++
        peersText cfg.peers blocks) := by
  simp only [encodeSetText, Checked.bind_ok, Checked.pure_ok, encodeSet_ok]
  constructor
  case mp =>
    rintro ⟨_, ⟨key, blocks, hk, hb, he⟩, ht⟩
    refine ⟨key, blocks, hk, hb, ?_⟩
    rw [List.append_assoc, headerEnd_append hb, ← ht, ← he, text_eq]
    simp [Body.lines, headerLines]
  case mpr =>
    rintro ⟨key, blocks, hk, hb, ht⟩
    refine ⟨_, ⟨key, blocks, hk, hb, rfl⟩, ?_⟩
    rw [ht, List.append_assoc, headerEnd_append hb, text_eq]
    simp [Body.lines, headerLines]

theorem cutBefore_text (key : Key) (port : Nat) (hb : Blocks peers blocks) :
    cutBefore "public_key=".toList (String.ofList
        ((headerLines key port).lines ++ headerEnd peers ++ peersText peers blocks)).toList =
      ((headerLines key port).lines ++ headerEnd peers, peersText peers blocks) := by
  refine (congrArg _ String.toList_ofList).trans ?_
  rw [List.append_assoc, headerEnd_append hb, cutBefore_header, cutBefore_peers hb]

-- The lines of a header, with the end of the request as one more.
theorem splitInclusive_header (key : Key) (port : Nat) (peers : List PeerConfig) :
    splitInclusive '\n' ((headerLines key port).lines ++ headerEnd peers) =
      [writeField (Line.privateKey key).field, writeField (Line.listenPort port).field,
        writeField Line.replacePeers.field] ++ if peers = [] then [['\n']] else [] := by
  have plain (l : Line) (hv : '\n' ∉ l.value) (hn : '=' ∉ l.name.toList ∧ '\n' ∉ l.name.toList) :
      Plain l.field :=
    ⟨hn, hv⟩
  have rest : splitInclusive '\n' (headerEnd peers) = if peers = [] then [['\n']] else [] := by
    rw [headerEnd]
    split <;> rfl
  rw [lines_header, List.append_assoc, List.append_assoc,
    (plain (.privateKey key) (not_mem_writeHex (by decide) key)
      (by rw [Line.name]; decide)).splitInclusive,
    (plain (.listenPort port) (not_mem_toDigits rfl) (by rw [Line.name]; decide)).splitInclusive,
    (plain .replacePeers (by decide) (by decide)).splitInclusive, rest]
  rfl

theorem isListenPort_field (port : Nat) :
    isListenPort (writeField (Line.listenPort port).field) = true := by
  simp [isListenPort, writeField, Line.field, Line.name]

theorem not_isListenPort_header (key : Key) :
    isListenPort (writeField (Line.privateKey key).field) = false ∧
      isListenPort (writeField Line.replacePeers.field) = false := by
  simp [isListenPort, writeField, Line.field, Line.name, List.isPrefixOf]

theorem rewriteLine_of_not (h : isListenPort line = false) : rewriteLine port line = line := by
  rw [rewriteLine, h]
  rfl

theorem rewriteLine_field (port port' : Nat) :
    rewriteLine port' (writeField (Line.listenPort port).field) =
      writeField (Line.listenPort port').field := by
  rw [rewriteLine, if_pos (isListenPort_field port)]
  simp [writeField, Line.field, Line.name, Line.value]

-- The port of a header is changed, and nothing else.
theorem rewriteListenPortText_eq (hb : Blocks peers blocks) (port' : Nat) :
    rewriteListenPortText (String.ofList
        ((headerLines key port).lines ++ headerEnd peers ++ peersText peers blocks)) port' =
      some (String.ofList
        ((headerLines key port').lines ++ headerEnd peers ++ peersText peers blocks)) := by
  have hc := cutBefore_text key port hb
  simp only [rewriteListenPortText, hc, splitInclusive_header]
  rw [if_pos (by simp [isListenPort_field])]
  have rest : List.flatMap (rewriteLine port') (if peers = [] then [['\n']] else []) =
      headerEnd peers := by
    rw [headerEnd]
    split <;> rfl
  rw [List.flatMap_append, rest, lines_header]
  simp only [List.flatMap_cons, List.flatMap_nil, rewriteLine_field]
  have ⟨hk, hr⟩ := not_isListenPort_header key
  rw [rewriteLine_of_not hk, rewriteLine_of_not hr]
  simp

theorem deviceHeaderText_eq (hb : Blocks peers blocks) :
    deviceHeaderText (String.ofList
        ((headerLines key port).lines ++ headerEnd peers ++ peersText peers blocks)) =
      String.ofList ((headerLines key port).lines ++ headerEnd peers) := by
  rw [deviceHeaderText, cutBefore_text key port hb]

theorem writeField_inj (h : writeField (name, value₁) = writeField (name, value₂)) :
    value₁ = value₂ := by
  simpa [writeField] using h

-- A header tells the key, the port and whether there are peers.
theorem header_inj : (headerLines key₁ port₁).lines ++ headerEnd peers₁ =
      (headerLines key₂ port₂).lines ++ headerEnd peers₂ ↔
    key₁ = key₂ ∧ port₁ = port₂ ∧ (peers₁ = [] ↔ peers₂ = []) := by
  constructor
  case mp =>
    intro h
    have hs := congrArg (splitInclusive '\n') h
    simp only [splitInclusive_header, List.cons_append, List.nil_append, List.cons.injEq] at hs
    obtain ⟨hk, hp, _, he⟩ := hs
    have hk := congrArg readHex (writeField_inj hk)
    have hp := congrArg parseDigits (writeField_inj hp)
    simp only [Line.value, readHex_writeHex, parseDigits_toDigits, Option.some.injEq] at hk hp
    refine ⟨hk, hp, ?_⟩
    by_cases h₁ : peers₁ = [] <;> by_cases h₂ : peers₂ = [] <;> simp_all
  case mpr =>
    rintro ⟨hk, hp, he⟩
    rw [hk, hp, headerEnd, headerEnd, if_congr he rfl rfl]

section Texts

variable {c₁ c₂ : DeviceConfig}

theorem encodeSetText_eq_ok : encodeSetText cfg = .ok text ↔
    ∃ body, encodeSet cfg = .ok body ∧ body.text = text := by
  simp only [encodeSetText, Checked.bind_ok, Checked.pure_ok]

theorem rewriteListenPortText_encodeSet (h : encodeSetText cfg = .ok text) (port : Nat) : ∃ text',
    encodeSetText { cfg with listenPort := port } = .ok text' ∧
      rewriteListenPortText text port = some text' := by
  have ⟨key, blocks, hk, hb, ht⟩ := encodeSetText_ok.mp h
  refine ⟨_, encodeSetText_ok.mpr ⟨key, blocks, hk, hb, rfl⟩, ?_⟩
  rw [ht, rewriteListenPortText_eq hb]

-- Headers are the same if the devices are, and if both have peers or both have none.
theorem deviceHeaderText_eq_iff (h₁ : encodeSetText c₁ = .ok t₁) (h₂ : encodeSetText c₂ = .ok t₂) :
    deviceHeaderText t₁ = deviceHeaderText t₂ ↔
      keyOfB64 c₁.privateKeyB64 = keyOfB64 c₂.privateKeyB64 ∧ c₁.listenPort = c₂.listenPort ∧
        (c₁.peers = [] ↔ c₂.peers = []) := by
  have ⟨key₁, _, hk₁, hb₁, ht₁⟩ := encodeSetText_ok.mp h₁
  have ⟨key₂, _, hk₂, hb₂, ht₂⟩ := encodeSetText_ok.mp h₂
  rw [ht₁, ht₂, deviceHeaderText_eq hb₁, deviceHeaderText_eq hb₂, String.ofList_inj,
    header_inj, hk₁, hk₂, Except.ok.injEq]

end Texts

section Bodies

-- The functions on lines do what those on text do.
theorem deviceHeader_encodeSet (h : encodeSet cfg = .ok body) : ∃ key,
    keyOfB64 cfg.privateKeyB64 = .ok key ∧
      deviceHeader body = (headerLines key cfg.listenPort, cfg.peers.isEmpty) := by
  have ⟨key, blocks, hk, hb, he⟩ := encodeSet_ok.mp h
  refine ⟨key, hk, ?_⟩
  rw [← he]
  cases hp : cfg.peers
  case nil =>
    rw [hp] at hb
    cases hb
    rfl
  case cons p peers =>
    rw [hp] at hb
    cases hb
    case cons hp _ =>
      have ⟨_, _, hl⟩ := peerBlock_ok hp
      rw [hl]
      rfl

theorem rewriteListenPort_encodeSet (h : encodeSet cfg = .ok body) (port : Nat) : ∃ body',
    encodeSet { cfg with listenPort := port } = .ok body' ∧
      rewriteListenPort body port = some body' := by
  have ⟨key, blocks, hk, hb, he⟩ := encodeSet_ok.mp h
  have ⟨key', hk', hh⟩ := deviceHeader_encodeSet h
  cases hk.symm.trans hk'
  refine ⟨_, encodeSet_ok.mpr ⟨key, blocks, hk, hb, rfl⟩, ?_⟩
  rw [rewriteListenPort, hh, ← he]
  rfl

theorem deviceHeader_eq_iff (h₁ : encodeSet c₁ = .ok b₁) (h₂ : encodeSet c₂ = .ok b₂) :
    deviceHeader b₁ = deviceHeader b₂ ↔
      deviceHeaderText b₁.text = deviceHeaderText b₂.text := by
  rw [deviceHeaderText_eq_iff (encodeSetText_eq_ok.mpr ⟨_, h₁, rfl⟩)
    (encodeSetText_eq_ok.mpr ⟨_, h₂, rfl⟩)]
  have ⟨key₁, hk₁, hd₁⟩ := deviceHeader_encodeSet h₁
  have ⟨key₂, hk₂, hd₂⟩ := deviceHeader_encodeSet h₂
  rw [hd₁, hd₂, hk₁, hk₂]
  simp only [headerLines, Prod.mk.injEq, List.cons.injEq, Line.privateKey.injEq,
    Line.listenPort.injEq, Except.ok.injEq, and_true, and_assoc]
  rw [Bool.eq_iff_iff, List.isEmpty_iff, List.isEmpty_iff]

theorem rewriteListenPort_text (h : encodeSet cfg = .ok body) (port : Nat) :
    rewriteListenPortText body.text port = (rewriteListenPort body port).map Body.text := by
  have ⟨body', he, hr⟩ := rewriteListenPort_encodeSet h port
  have ⟨text', he', hr'⟩ := rewriteListenPortText_encodeSet
    (encodeSetText_eq_ok.mpr ⟨_, h, rfl⟩) port
  have ⟨_, hs, ht⟩ := encodeSetText_eq_ok.mp he'
  cases hs.symm.trans he
  rw [hr, hr', ← ht]
  rfl

end Bodies

-- The port is changed as if the request had been made with it. Headers tell the key and the port, and
-- also, by the line that ends a request without peers, whether there are peers.
theorem headers_tell_device_iff (h₁ : encodeSetText c₁ = .ok t₁) (h₂ : encodeSetText c₂ = .ok t₂)
    (port : Nat) :
    ((∃ t, encodeSetText { c₁ with listenPort := port } = .ok t ∧
        rewriteListenPortText t₁ port = some t) ∧
      (deviceHeaderText t₁ = deviceHeaderText t₂ ↔
        keyOfB64 c₁.privateKeyB64 = keyOfB64 c₂.privateKeyB64 ∧ c₁.listenPort = c₂.listenPort)) ↔
    ((c₁.peers = [] ↔ c₂.peers = []) ∨ keyOfB64 c₁.privateKeyB64 ≠ keyOfB64 c₂.privateKeyB64 ∨
      c₁.listenPort ≠ c₂.listenPort) := by
  rw [and_iff_right (rewriteListenPortText_encodeSet h₁ port), deviceHeaderText_eq_iff h₁ h₂]
  by_cases hk : keyOfB64 c₁.privateKeyB64 = keyOfB64 c₂.privateKeyB64 <;>
    by_cases hp : c₁.listenPort = c₂.listenPort <;> simp [hk, hp]

def zeroKey : String :=
  "AAAAAAAAAAAAAAAAAAAAAAAAAAAAAAAAAAAAAAAAAAA="

def onePeer : DeviceConfig :=
  ⟨zeroKey, 51820, [⟨zeroKey, none, [], 25⟩]⟩

-- The same device with and without a peer has two headers.
theorem headers_differ_by_peer : ∃ t₁ t₂, encodeSetText ⟨zeroKey, 51820, []⟩ = .ok t₁ ∧
    encodeSetText onePeer = .ok t₂ ∧ deviceHeaderText t₁ ≠ deviceHeaderText t₂ := by
  have encodes (cfg : DeviceConfig) (body : Body) (h : encodeSet cfg = .ok body) :
      encodeSetText cfg = .ok body.text :=
    encodeSetText_eq_ok.mpr ⟨_, h, rfl⟩
  have ⟨_, h₁⟩ : ∃ body, encodeSet ⟨zeroKey, 51820, []⟩ = .ok body := ⟨_, rfl⟩
  have ⟨_, h₂⟩ : ∃ body, encodeSet onePeer = .ok body := ⟨_, rfl⟩
  refine ⟨_, _, encodes _ _ h₁, encodes _ _ h₂, fun h => ?_⟩
  have ⟨_, _, hp⟩ := (deviceHeaderText_eq_iff (encodes _ _ h₁) (encodes _ _ h₂)).mp h
  exact absurd (hp.mp rfl) (List.cons_ne_nil _ _)

-- A device whose port is changed, and one with another port.
theorem headers_tell_device_moved : ∃ t₁ t₂, encodeSetText onePeer = .ok t₁ ∧
    encodeSetText { onePeer with listenPort := 51821 } = .ok t₂ ∧
    rewriteListenPortText t₁ 51821 = some t₂ ∧ deviceHeaderText t₁ ≠ deviceHeaderText t₂ := by
  have ⟨t₁, h₁⟩ : ∃ t, encodeSetText onePeer = .ok t := ⟨_, rfl⟩
  have ⟨t₂, h₂⟩ : ∃ t, encodeSetText { onePeer with listenPort := 51821 } = .ok t := ⟨_, rfl⟩
  have ⟨⟨t, ht, hr⟩, hh⟩ := (headers_tell_device_iff h₁ h₂ 51821).mpr (.inl Iff.rfl)
  cases h₂.symm.trans ht
  exact ⟨t₁, t₂, h₁, h₂, hr, fun h => absurd (hh.mp h).2 (by decide)⟩

end Gateway.Uapi
