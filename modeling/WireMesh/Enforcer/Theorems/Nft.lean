import WireMesh.Enforcer.Nft
import WireMesh.Enforcer.Theorems.Flatten

-- The text of a ruleset, read back by the grammar of the script.
namespace Enforcer

open Policy Script

def cidrItems (cidrs : List Ipv4Net) : List Item :=
  commaItems (cidrs.map (·.display.toList))

def portRange (lo hi : Port) : String :=
  if lo = hi then portText lo else portText lo ++ "-" ++ portText hi

def ProtoMatch.items : ProtoMatch → List Item
  | l4proto proto     => words ["meta", "l4proto", proto.text]
  | dport proto lo hi => words [proto.text, "dport"] ++ [.block [words [portRange lo hi]]]

def NftRule.stmt (r : NftRule) : Stmt :=
  words ["ip", "saddr"] ++ [.block [cidrItems r.saddr]] ++
  words ["ip", "daddr"] ++ [.block [cidrItems r.daddr]] ++ r.pm.items ++
  words ["counter", "name"] ++ [.str ("r_" ++ r.ruleId).toList] ++ words [verdictText r.action]

def counterStmt (name : String) : Stmt :=
  words ["counter", name] ++ [.block []]

def hookStmt (iface hook : String) : Stmt :=
  words ["chain", hook] ++ [.block [
    words ["type", "filter", "hook", hook, "priority", "0"],
    words ["policy", "accept"],
    words ["iifname"] ++ [.str iface.toList] ++ words ["jump", "from_fabric"]
  ]]

def fromFabricStmts (flat : List FlatRule) : List Stmt :=
  [words ["ct", "state", "established"] ++ [.sym ','] ++ words ["related", "counter", "accept"]] ++
  (fromFabric flat).map (·.stmt) ++
  [words ["counter", "name"] ++ [.str "default_deny".toList] ++ words ["drop"]]

def tableStmts (flat : List FlatRule) (iface : String) : List Stmt :=
  (ruleIds flat).map (fun id => counterStmt ("r_" ++ id)) ++
  [counterStmt "default_deny",
   words ["chain", "from_fabric"] ++ [.block (fromFabricStmts flat)],
   hookStmt iface "input",
   hookStmt iface "forward"]

-- The statements that a ruleset is meant to be.
def rulesetScript (flat : List FlatRule) (iface : String) : List Stmt :=
  [words ["table", "ip", tableName iface],
   words ["flush", "table", "ip", tableName iface],
   words ["table", "ip", tableName iface] ++ [.block (tableStmts flat iface)]]

theorem all_isWordChar_toDigits (n : Nat) : (Nat.toDigits 10 n).all isWordChar := by
  simp only [List.all_eq_true]
  intro c hc
  simp [isWordChar, Char.isAlphanum, Nat.isDigit_of_mem_toDigits (by omega) (by omega) hc]

theorem display_word (n : Ipv4Net) : n.display.toList.all isWordChar ∧ n.display.toList ≠ [] := by
  have dot : isWordChar '.' := by decide
  have slash : isWordChar '/' := by decide
  simp [Ipv4Net.toList_display, Text.ipv4Chars, List.all_append, all_isWordChar_toDigits, dot, slash]

theorem toList_portText (p : Port) : (portText p).toList = Nat.toDigits 10 p.toNat := by
  simp [portText, toString]

theorem portRange_word (lo hi : Port) :
    (portRange lo hi).toList.all isWordChar ∧ (portRange lo hi).toList ≠ [] := by
  unfold portRange
  split
  case isTrue  => simp [toList_portText, all_isWordChar_toDigits, Nat.toDigits_ne_nil]
  case isFalse =>
    simp [toList_portText, List.all_append, all_isWordChar_toDigits, Nat.toDigits_ne_nil, isWordChar]

section Feed

variable {top : Frame} {below : List Frame}

theorem feed_cidrSet (h : cidrs ≠ []) :
    feed ⟨.plain, top, below⟩ (cidrSet cidrs).toList =
      some ⟨.plain, top.push (.block [cidrItems cidrs]), below⟩ := by
  have hne : cidrItems cidrs ≠ [] := commaItems_ne_nil (by simpa using h)
  have hw : ∀ w ∈ cidrs.map (·.display.toList), w.all isWordChar ∧ w ≠ [] := by
    intro w hw
    have ⟨n, _, hn⟩ := List.mem_map.mp hw
    exact hn ▸ display_word n
  have close : feed ⟨.plain, ⟨[], [] ++ cidrItems cidrs⟩, top :: below⟩ ['\x7d'] =
      some ⟨.plain, top.push (.block [cidrItems cidrs]), below⟩ := by
    simp [feed_cons, step, readPlain, isWordChar, Frame.endStmt, hne]
  have h := feed_trans (feed_commaItems hw) close
  have hopen : feed ⟨.plain, top, below⟩ ['\x7b', ' '] = some ⟨.plain, .empty, top :: below⟩ := rfl
  simpa [cidrSet, Function.comp_def] using feed_trans hopen h

theorem toList_dport (proto : L4Proto) (lo hi : Port) :
    (ProtoMatch.dport proto lo hi).text.toList =
      proto.text.toList ++ " dport \x7b ".toList ++ ((portRange lo hi).toList ++ " \x7d".toList) := by
  simp only [ProtoMatch.text, portRange]
  split <;> simp only [String.toList_append, List.append_assoc]

theorem feed_protoMatch (pm : ProtoMatch) :
    feed ⟨.plain, top, below⟩ (pm.text.toList ++ " counter name \"r_".toList) =
      some ⟨.str "r_".toList, (pm.items ++ words ["counter", "name"]).foldl .push top, below⟩ := by
  cases pm
  case l4proto proto => cases proto <;> rfl
  case dport proto lo hi =>
    have head : feed ⟨.plain, top, below⟩ (proto.text.toList ++ " dport \x7b ".toList) =
        some ⟨.plain, .empty, (words [proto.text, "dport"]).foldl .push top :: below⟩ := by
      cases proto <;> rfl
    have ⟨hw, hne⟩ := portRange_word lo hi
    rw [toList_dport, List.append_assoc, feed_append, head, Option.bind_some, List.append_assoc]
    have blank : " \x7d".toList ++ " counter name \"r_".toList =
      ' ' :: "\x7d counter name \"r_".toList := rfl
    rw [blank, feed_word_then hw hne (by decide)]
    rfl

theorem feed_verdict (cs : List Char) (action : IrAction) :
    feed ⟨.str cs, top, below⟩ ("\" ".toList ++ (verdictText action).toList) =
      some ⟨.word (verdictText action).toList, top.push (.str cs), below⟩ := by
  cases action <;> rfl

end Feed

theorem reads_rule {r : NftRule} (hs : r.saddr ≠ []) (hd : r.daddr ≠ [])
    (hq : '"' ∉ r.ruleId.toList) : Reads (r.line ++ "\n").toList [r.stmt] := by
  intro read below
  have saddr : feed ⟨.plain, ⟨read, []⟩, below⟩ "    ip saddr ".toList =
      some ⟨.plain, (words ["ip", "saddr"]).foldl .push ⟨read, []⟩, below⟩ := rfl
  have daddr (top : Frame) : feed ⟨.plain, top, below⟩ " ip daddr ".toList =
      some ⟨.plain, (words ["ip", "daddr"]).foldl .push top, below⟩ := rfl
  have blank (top : Frame) : feed ⟨.plain, top, below⟩ " ".toList = some ⟨.plain, top, below⟩ := rfl
  delta NftRule.line
  simp only [String.toList_append, List.append_assoc]
  refine feed_trans saddr <| feed_trans (feed_cidrSet hs) <| feed_trans (daddr _) <|
    feed_trans (feed_cidrSet hd) <| feed_trans (blank _) ?_
  rw [← List.append_assoc]
  refine feed_trans (feed_protoMatch r.pm) <| feed_trans (feed_str_more hq) ?_
  rw [← List.append_assoc]
  refine feed_trans (feed_verdict _ _) (feed_word_newline.trans ?_)
  simp [Frame.foldl_push, Frame.push, Frame.endStmt, NftRule.stmt, words]

theorem reads_counter {id : String} (h : id.toList.all isWordChar) :
    Reads ("  counter r_" ++ id ++ " \x7b\x7d" ++ "\n").toList [counterStmt ("r_" ++ id)] := by
  intro read below
  have head : feed ⟨.plain, ⟨read, []⟩, below⟩ "  counter ".toList =
      some ⟨.plain, (words ["counter"]).foldl .push ⟨read, []⟩, below⟩ := rfl
  have lit : "  counter r_".toList = "  counter ".toList ++ "r_".toList := rfl
  have rest : " \x7b\x7d".toList ++ "\n".toList = ' ' :: "\x7b\x7d\n".toList := rfl
  have hw : ("r_".toList ++ id.toList).all isWordChar := by simp [isWordChar, h]
  simp only [String.toList_append, List.append_assoc, lit]
  refine feed_trans head ?_
  rw [← List.append_assoc, rest, feed_word_then hw (by simp) (by decide)]
  simp only [counterStmt, words, List.map_cons, List.map_nil, String.toList_append]
  rfl

theorem isWordChar_of_isIfaceChar (h : isIfaceChar c) : isWordChar c := by
  simp only [isIfaceChar, Bool.or_eq_true, beq_iff_eq] at h
  simp [isWordChar, h]

theorem validateIface_word (h : validateIface iface = .ok ()) : iface.toList.all isWordChar := by
  simp only [validateIface] at h
  split at h
  case isTrue  => cases h
  case isFalse hn =>
    simp only [not_or, Bool.not_eq_true, Bool.not_eq_false', List.all_eq_true] at hn
    exact List.all_eq_true.mpr fun c hc => isWordChar_of_isIfaceChar <| hn.2.2.1 c hc

-- What stands before the name of the table and what follows it are fixed.
theorem feed_tableName (h : iface.toList.all isWordChar) {top : Frame} {below : List Frame}
    (hc : isWordChar c = false) :
    feed ⟨.plain, top, below⟩ ((tableName iface).toList ++ c :: cs) =
      feed ⟨.plain, top.push (.word (tableName iface).toList), below⟩ (c :: cs) := by
  have hw : (tableName iface).toList.all isWordChar := by simp [tableName, isWordChar, h]
  exact feed_word_then hw (by simp [tableName]) hc

theorem reads_table (h : iface.toList.all isWordChar) :
    Reads ("table ip " ++ tableName iface ++ "\n").toList [words ["table", "ip", tableName iface]] := by
  intro read below
  have head : feed ⟨.plain, ⟨read, []⟩, below⟩ "table ip ".toList =
      some ⟨.plain, (words ["table", "ip"]).foldl .push ⟨read, []⟩, below⟩ := rfl
  simp only [String.toList_append, List.append_assoc]
  exact feed_trans head <| (feed_tableName h (by decide)).trans rfl

theorem reads_flush (h : iface.toList.all isWordChar) :
    Reads ("flush table ip " ++ tableName iface ++ "\n").toList
      [words ["flush", "table", "ip", tableName iface]] := by
  intro read below
  have head : feed ⟨.plain, ⟨read, []⟩, below⟩ "flush table ip ".toList =
      some ⟨.plain, (words ["flush", "table", "ip"]).foldl .push ⟨read, []⟩, below⟩ := rfl
  simp only [String.toList_append, List.append_assoc]
  exact feed_trans head <| (feed_tableName h (by decide)).trans rfl

theorem feed_tableOpen (h : iface.toList.all isWordChar) (read : List Stmt) (below : List Frame) :
    feed ⟨.plain, ⟨read, []⟩, below⟩ ("table ip " ++ tableName iface ++ " \x7b" ++ "\n").toList =
      some ⟨.plain, .empty, ⟨read, words ["table", "ip", tableName iface]⟩ :: below⟩ := by
  have head : feed ⟨.plain, ⟨read, []⟩, below⟩ "table ip ".toList =
      some ⟨.plain, (words ["table", "ip"]).foldl .push ⟨read, []⟩, below⟩ := rfl
  simp only [String.toList_append, List.append_assoc]
  exact feed_trans head <| (feed_tableName h (by decide)).trans rfl

theorem reads_hook (h : iface.toList.all isWordChar) (hh : hook = "input" ∨ hook = "forward") :
    Reads (hookLine iface hook ++ "\n").toList [hookStmt iface hook] := by
  intro read below
  have chain : feed ⟨.plain, ⟨read, []⟩, below⟩ ("  chain " ++ hook ++ " \x7b type filter ").toList =
      some ⟨.plain, ⟨[], words ["type", "filter"]⟩, ⟨read, words ["chain", hook]⟩ :: below⟩ := by
    rcases hh with rfl | rfl <;> rfl
  have prio (f : Frame) : feed ⟨.plain, ⟨[], words ["type", "filter"]⟩, f :: below⟩
      ("hook " ++ hook ++ " priority 0; policy accept; ").toList =
        some ⟨.plain, ⟨[words ["type", "filter", "hook", hook, "priority", "0"],
          words ["policy", "accept"]], []⟩, f :: below⟩ := by
    rcases hh with rfl | rfl <;> rfl
  have lit : (hookLine iface hook ++ "\n").toList = ("  chain " ++ hook ++ " \x7b type filter ").toList ++
      (("hook " ++ hook ++ " priority 0; policy accept; ").toList ++ ("iifname \"".toList ++
        (iface.toList ++ "\" jump from_fabric; \x7d\n".toList))) := by
    delta hookLine
    simp
  rw [lit]
  exact feed_trans chain <| feed_trans (prio _) <| feed_trans rfl <|
    feed_trans (feed_str_more (quote_not_mem h)) rfl

theorem mem_fromFabric (h : r ∈ fromFabric flat) :
    ∃ f ∈ flat, r.saddr = f.srcCidrs ∧ r.daddr = f.dstCidrs ∧ r.ruleId = f.ruleId := by
  have ⟨f, hf, hr⟩ := List.mem_flatMap.mp h
  have ⟨_, _, hr⟩ := List.mem_map.mp hr
  exact ⟨f, hf, by simp [← hr]⟩

theorem reads_fromFabric (hs : ∀ f ∈ flat, f.srcCidrs ≠ [] ∧ f.dstCidrs ≠ [])
    (hq : ∀ f ∈ flat, '"' ∉ f.ruleId.toList) :
    Reads ((fromFabric flat).flatMap fun r => (r.line ++ "\n").toList)
      ((fromFabric flat).map (·.stmt)) := by
  refine .flatMap fun r hr => ?_
  have ⟨f, hf, hsrc, hdst, hid⟩ := mem_fromFabric hr
  exact reads_rule (hsrc ▸ (hs f hf).1) (hdst ▸ (hs f hf).2) (hid ▸ hq f hf)

theorem reads_chain (hs : ∀ f ∈ flat, f.srcCidrs ≠ [] ∧ f.dstCidrs ≠ [])
    (hq : ∀ f ∈ flat, '"' ∉ f.ruleId.toList) :
    Reads ("  chain from_fabric \x7b\n".toList ++
        (("    ct state established,related counter accept\n".toList ++
          (((fromFabric flat).flatMap fun r => (r.line ++ "\n").toList) ++
            "    counter name \"default_deny\" drop\n".toList)) ++ ("  ".toList ++ ['\x7d', '\n'])))
      [words ["chain", "from_fabric"] ++ [.block (fromFabricStmts flat)]] := by
  have first : Reads "    ct state established,related counter accept\n".toList
      [words ["ct", "state", "established"] ++ [.sym ','] ++ words ["related", "counter", "accept"]] :=
    fun _ _ => by
      have lit : "    ct state established,related counter accept\n".toList =
        "    ct state established,".toList ++ "related counter accept\n".toList := rfl
      rw [lit]
      exact feed_trans rfl rfl
  have last : Reads "    counter name \"default_deny\" drop\n".toList
      [words ["counter", "name"] ++ [.str "default_deny".toList] ++ words ["drop"]] :=
    fun _ _ => rfl
  have body := first.append <| (reads_fromFabric hs hq).append last
  exact body.block "  ".toList (fun _ _ => rfl) (fun _ _ => rfl)

def counterLines (flat : List FlatRule) : List Char :=
  (ruleIds flat).flatMap fun id => ("  counter r_" ++ id ++ " \x7b\x7d" ++ "\n").toList

-- Whatever the lines with the counters are read as, the rest of the script is as it is meant to be,
-- as long as no identifier closes the quotes around it.
theorem reads_ruleset (hi : iface.toList.all isWordChar)
    (hs : ∀ f ∈ flat, f.srcCidrs ≠ [] ∧ f.dstCidrs ≠ []) (hq : ∀ f ∈ flat, '"' ∉ f.ruleId.toList)
    (hc : Reads (counterLines flat) decls) :
    Reads (String.join ((rulesetLines flat iface).map (· ++ "\n"))).toList
      [words ["table", "ip", tableName iface],
       words ["flush", "table", "ip", tableName iface],
       words ["table", "ip", tableName iface] ++ [.block (decls ++
        [counterStmt "default_deny",
         words ["chain", "from_fabric"] ++ [.block (fromFabricStmts flat)],
         hookStmt iface "input",
         hookStmt iface "forward"])]] := by
  have deny : Reads "  counter default_deny \x7b\x7d\n".toList [counterStmt "default_deny"] :=
    fun _ _ => rfl
  have body := hc.append <| deny.append <| (reads_chain hs hq).append <|
    (reads_hook hi (.inl rfl)).append (reads_hook hi (.inr rfl))
  have table := body.block [] (feed_tableOpen hi) (fun _ _ => rfl)
  have h := (reads_table hi).append <| (reads_flush hi).append table
  have rules : flat.flatMap writeRuleLines = (fromFabric flat).map (·.line) := by
    simp only [fromFabric, List.map_flatMap]
    rfl
  delta rulesetLines counterLines at *
  simp only [String.toList_join, List.flatMap_map, List.flatMap_append, List.flatMap_cons, rules,
    List.flatMap_nil, List.append_assoc, List.append_nil, List.nil_append] at h ⊢
  exact h

theorem mem_ruleIds {id : String} : id ∈ ruleIds flat ↔ ∃ f ∈ flat, f.ruleId = id := by
  have h (ids : List String) :
      id ∈ flat.foldl (fun ids f => if f.ruleId ∈ ids then ids else ids ++ [f.ruleId]) ids ↔
        id ∈ ids ∨ ∃ f ∈ flat, f.ruleId = id := by
    induction flat generalizing ids
    case nil => simp
    case cons f flat ih =>
      rw [List.foldl_cons, ih]
      split <;> grind
  simpa [ruleIds] using h []

theorem nodup_ruleIds (flat : List FlatRule) : (ruleIds flat).Nodup := by
  have h (ids : List String) (hn : ids.Nodup) :
      (flat.foldl (fun ids f => if f.ruleId ∈ ids then ids else ids ++ [f.ruleId]) ids).Nodup := by
    induction flat generalizing ids
    case nil => exact hn
    case cons f flat ih =>
      rw [List.foldl_cons]
      split
      case isTrue    => exact ih ids hn
      case isFalse h => exact ih _ <| List.nodup_append.mpr ⟨hn, by simp, by grind⟩
  exact h [] .nil

theorem reads_counters (h : ∀ f ∈ flat, f.ruleId.toList.all isWordChar) :
    Reads (counterLines flat) ((ruleIds flat).map fun id => counterStmt ("r_" ++ id)) := by
  refine .flatMap fun id hid => ?_
  have ⟨f, hf, he⟩ := mem_ruleIds.mp hid
  exact reads_counter (he ▸ h f hf)

theorem reads_of_words (hi : validateIface iface = .ok ())
    (hs : ∀ f ∈ flat, f.srcCidrs ≠ [] ∧ f.dstCidrs ≠ [])
    (hw : ∀ f ∈ flat, f.ruleId.toList.all isWordChar) :
    Reads (String.join ((rulesetLines flat iface).map (· ++ "\n"))).toList (rulesetScript flat iface) :=
  reads_ruleset (validateIface_word hi) hs (fun f hf => quote_not_mem (hw f hf)) (reads_counters hw)

-- A script is never read as a declaration of a counter whose name is not a word.
theorem ruleId_word_of_parse (h : parse cs = some (rulesetScript flat iface)) (hf : f ∈ flat) :
    f.ruleId.toList.all isWordChar := by
  have table := parse_lexical h (words ["table", "ip", tableName iface] ++ [.block (tableStmts flat iface)])
    (by simp [rulesetScript]) (.block (tableStmts flat iface)) (by simp)
  cases table
  case block table =>
    have decl : counterStmt ("r_" ++ f.ruleId) ∈ tableStmts flat iface :=
      List.mem_append_left _ <| List.mem_map.mpr ⟨_, mem_ruleIds.mpr ⟨f, hf, rfl⟩, rfl⟩
    have name := table _ decl (.word ("r_" ++ f.ruleId).toList) (by simp [counterStmt, words])
    cases name
    case word name =>
      simp only [String.toList_append, List.all_append, Bool.and_eq_true] at name
      exact name.2

theorem ruleset_ok [Ipnet] :
    ruleset ir iface = .ok text ↔
      validateIface iface = .ok () ∧ ∃ flat, flatten ir = .ok flat ∧
        text = String.join ((rulesetLines flat iface).map (· ++ "\n")) := by
  simp only [ruleset, Checked.bind_ok, Checked.pure_ok]
  constructor
  case mp  => exact fun ⟨_, hv, flat, hf, ht⟩ => ⟨hv, flat, hf, ht.symm⟩
  case mpr => exact fun ⟨hv, flat, hf, ht⟩ => ⟨(), hv, flat, hf, ht.symm⟩

-- The text of a ruleset is read as the statements it is meant to be exactly if all identifiers of
-- rules are words. Nothing else that a policy brings along matters.
theorem parse_ruleset_iff [Ipnet] {ir : PolicyIR} (h : flatten ir = .ok flat)
    (hi : validateIface iface = .ok ()) :
    ∃ text, ruleset ir iface = .ok text ∧
      (parse text.toList = some (rulesetScript flat iface) ↔
        ∀ f ∈ flat, f.ruleId.toList.all isWordChar) := by
  refine ⟨_, ruleset_ok.mpr ⟨hi, flat, h, rfl⟩, ?_⟩
  constructor
  case mp  => exact fun hp f hf => ruleId_word_of_parse hp hf
  case mpr => exact fun hw => (reads_of_words hi (fun _ => flatten_sides h) hw).parse

-- A rule to drop packets whose identifier ends its declaration and goes on with a chain of its own.
def injectedPolicy : PolicyIR where
  schema  := 1
  version := 1
  blocks  := [{
    fromName := "a", toName := "b", srcCidrs := ["10.0.0.0/8"], dstCidrs := ["192.168.0.0/16"]
    rules    := [{
      ruleId := "x \x7b\x7d; chain from_fabric \x7b accept; \x7d #"
      action := .deny, proto := .tcp, src := [], dst := [], ports := []
    }]
  }]

def injectedFlat : List FlatRule := [{
  idx := 0, ruleId := "x \x7b\x7d; chain from_fabric \x7b accept; \x7d #", action := .deny, proto := .tcp
  srcCidrs := [.slash8 10], dstCidrs := [.slash16 192 168]
  portLo := 0, portHi := 0
}]

theorem flatten_injectedPolicy : flatten injectedPolicy = .ok injectedFlat := by
  rfl

theorem parse_ruleset_injected :
    ∃ text, flatten injectedPolicy = .ok injectedFlat ∧ ruleset injectedPolicy "wg0" = .ok text ∧
      parse text.toList ≠ some (rulesetScript injectedFlat "wg0") ∧
      parse text.toList = some
        [words ["table", "ip", "wiremesh_wg0"],
         words ["flush", "table", "ip", "wiremesh_wg0"],
         words ["table", "ip", "wiremesh_wg0"] ++ [.block
          [counterStmt "r_x",
           words ["chain", "from_fabric"] ++ [.block [words ["accept"]]],
           counterStmt "default_deny",
           words ["chain", "from_fabric"] ++ [.block (fromFabricStmts injectedFlat)],
           hookStmt "wg0" "input",
           hookStmt "wg0" "forward"]]] := by
  refine ⟨_, flatten_injectedPolicy, ruleset_ok.mpr ⟨by decide, _, flatten_injectedPolicy, rfl⟩, ?_, ?_⟩
  case refine_1 =>
    intro h
    have hw := ruleId_word_of_parse h (List.mem_singleton.mpr rfl)
    exact absurd hw (by decide)
  case refine_2 =>
    have decls : Reads (counterLines injectedFlat)
        ([counterStmt "r_x"] ++ [words ["chain", "from_fabric"] ++ [.block [words ["accept"]]]]) := by
      have lit : counterLines injectedFlat =
        "  counter r_x \x7b\x7d;".toList ++ " chain from_fabric \x7b accept; \x7d # \x7b\x7d\n".toList := rfl
      exact lit ▸ .append (fun _ _ => rfl) (fun _ _ => rfl)
    exact reads_ruleset (by decide) (by decide) (by decide) decls |>.parse

theorem parse_ruleset_injected_iff :
    ∃ text, ruleset injectedPolicy "wg0" = .ok text ∧
      (parse text.toList = some (rulesetScript injectedFlat "wg0") ↔
        ∀ f ∈ injectedFlat, f.ruleId.toList.all isWordChar) :=
  parse_ruleset_iff flatten_injectedPolicy (by decide)

end Enforcer
