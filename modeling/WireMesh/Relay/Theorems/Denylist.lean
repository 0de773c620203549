import WireMesh.Lib.Checked
import WireMesh.Relay.Denylist

-- A certificate is turned away exactly when the controller has told the relay that it is revoked.
namespace Relay

open Policy (hexEncode)

section Serials

theorem extractSerialHex_short (h : raw.length ≤ 16) :
    extractSerialHex raw = .ok (hexEncode (List.replicate (16 - raw.length) 0 ++ raw)) := by
  rw [extractSerialHex, if_neg (show ¬(raw.length = 17 ∧ _) by omega), if_neg (by omega)]

theorem extractSerialHex_padded (h : raw.length = 16) :
    extractSerialHex (0 :: raw) = .ok (hexEncode raw) := by
  simp [extractSerialHex, h]

-- What the encoding has taken off a serial is as many zeros as it has fewer bytes.
theorem replicate_append_dropWhile (serial : Bytes) :
    List.replicate (serial.length - (serial.dropWhile (· = 0)).length) 0 ++
      serial.dropWhile (· = 0) = serial := by
  induction serial
  case nil => rfl
  case cons b serial ih =>
    rw [List.dropWhile_cons]
    split
    case isTrue hb =>
      have hle := (List.dropWhile_suffix (l := serial) (· = 0)).length_le
      rw [List.length_cons, Nat.succ_sub hle, List.replicate_succ, List.cons_append, ih]
      rw [of_decide_eq_true hb]
    case isFalse => simp

-- The relay reads the serial that the controller has recorded, whatever zeros the serial begins with.
theorem extractSerialHex_derContent (serial : Serial) :
    extractSerialHex (derContent serial) = .ok (recorded serial) := by
  have ⟨bytes, hl⟩ := serial
  have hs := replicate_append_dropWhile bytes
  have hle := (List.dropWhile_suffix (l := bytes) (· = 0)).length_le
  rw [hl] at hs hle
  simp only [derContent, recorded]
  cases hd : bytes.dropWhile (· = 0)
  case nil =>
    rw [hd] at hs
    rw [← hs]
    rfl
  case cons b rest =>
    rw [hd] at hs hle
    dsimp only
    split
    case isFalse => rw [extractSerialHex_short hle, hs]
    case isTrue =>
      obtain hlt | heq := hle.lt_or_eq
      case inr =>
        rw [heq, Nat.sub_self, List.replicate_zero, List.nil_append] at hs
        rw [extractSerialHex_padded heq, hs]
      case inl =>
        -- The zero in front of the high bit is one of the zeros of the serial.
        have hz : List.replicate (16 - (0 :: b :: rest).length) 0 ++ 0 :: b :: rest = bytes := by
          have hn : 16 - (b :: rest).length = 16 - (0 :: b :: rest).length + 1 := by
            simp only [List.length_cons] at hlt ⊢
            omega
          rw [← hs, hn, List.replicate_succ', List.append_assoc]
          rfl
        rw [extractSerialHex_short (show (0 :: b :: rest).length ≤ 16 from hlt), hz]

end Serials

namespace Denylist

theorem mem_replaceAll : s ∈ replaceAll serials ↔ s ∈ serials :=
  List.mem_toFinset

theorem mem_union {denylist : Denylist} : s ∈ denylist.union serials ↔ s ∈ denylist ∨ s ∈ serials := by
  rw [union]
  induction serials generalizing denylist
  case nil => simp
  case cons a serials ih =>
    rw [List.foldl_cons, ih, Finset.mem_insert, List.mem_cons]
    tauto

end Denylist

def Body.isSnapshot : Body → Bool
  | snapshot _ => true
  | _          => false

def NoSnapshot (bodies : List Body) : Prop :=
  ∀ b ∈ bodies, ¬b.isSnapshot

-- A delta among the messages has the serial.
def Added (bodies : List Body) (s : String) : Prop :=
  ∃ serials, .delta serials ∈ bodies ∧ s ∈ serials

-- The serial is in the last snapshot or in a delta after it. Where no snapshot has come yet, the
-- denylist that was loaded stands for it.
def Listed (loaded : Denylist) (bodies : List Body) (s : String) : Prop :=
  (∃ before serials after, bodies = before ++ .snapshot serials :: after ∧
    NoSnapshot after ∧ (s ∈ serials ∨ Added after s)) ∨
  NoSnapshot bodies ∧ (s ∈ loaded ∨ Added bodies s)

section Listed

variable {bodies : List Body}

theorem added_append : Added (bodies ++ [b]) s ↔ Added bodies s ∨ Added [b] s := by
  simp only [Added, List.mem_append, or_and_right, exists_or]

theorem noSnapshot_append (hb : ¬b.isSnapshot) : NoSnapshot (bodies ++ [b]) ↔ NoSnapshot bodies := by
  rw [NoSnapshot, List.forall_mem_append, List.forall_mem_singleton, and_iff_left hb, NoSnapshot]

theorem append_snapshot_eq (h : bodies ++ [b] = before ++ .snapshot serials :: after) :
    bodies = before ∧ b = .snapshot serials ∧ after = [] ∨
      ∃ after', bodies = before ++ .snapshot serials :: after' ∧ after = after' ++ [b] := by
  obtain rfl | ⟨after', b', rfl⟩ := List.eq_nil_or_concat after
  case inl =>
    have ⟨hb, hs⟩ := List.append_inj' h rfl
    exact .inl ⟨hb, (List.cons.inj hs).1, rfl⟩
  case inr =>
    rw [List.concat_eq_append] at h ⊢
    rw [← List.cons_append, ← List.append_assoc] at h
    have ⟨hb, hs⟩ := List.append_inj' h rfl
    exact .inr ⟨after', hb, by rw [(List.cons.inj hs).1]⟩

theorem last_snapshot (bodies : List Body) :
    NoSnapshot bodies ∨ ∃ before serials after,
      bodies = before ++ .snapshot serials :: after ∧ NoSnapshot after := by
  induction bodies using List.reverseRecOn
  case nil => exact .inl nofun
  case append_singleton bodies b ih =>
    by_cases hb : b.isSnapshot
    case pos =>
      cases b
      case snapshot serials => exact .inr ⟨bodies, serials, [], rfl, nofun⟩
      all_goals cases hb
    case neg =>
      obtain hn | ⟨before, serials, after, rfl, hn⟩ := ih
      case inl => exact .inl <| (noSnapshot_append hb).mpr hn
      case inr =>
        exact .inr ⟨before, serials, after ++ [b], by simp, (noSnapshot_append hb).mpr hn⟩

theorem listed_snapshot : Listed loaded (bodies ++ [.snapshot serials]) s ↔ s ∈ serials := by
  refine ⟨fun h => ?_, fun h => .inl ⟨bodies, serials, [], rfl, nofun, .inl h⟩⟩
  obtain ⟨before, serials', after, he, hn, h⟩ | ⟨hn, _⟩ := h
  case inr => exact absurd rfl <| hn (.snapshot serials) (by simp)
  case inl =>
    obtain ⟨_, hs, rfl⟩ | ⟨after', _, rfl⟩ := append_snapshot_eq he
    case inl =>
      cases hs
      simpa [Added] using h
    case inr => exact absurd rfl <| hn (.snapshot serials) (by simp)

theorem listed_append (hb : ¬b.isSnapshot) :
    Listed loaded (bodies ++ [b]) s ↔ Listed loaded bodies s ∨ Added [b] s := by
  have extend {l : List Body} : NoSnapshot (l ++ [b]) ↔ NoSnapshot l := noSnapshot_append hb
  refine ⟨fun h => ?_, fun h => ?_⟩
  case refine_1 =>
    obtain ⟨before, serials, after, he, hn, h⟩ | ⟨hn, h⟩ := h
    case inl =>
      obtain ⟨_, rfl, _⟩ | ⟨after', hb', rfl⟩ := append_snapshot_eq he
      case inl => exact absurd rfl hb
      case inr =>
        rw [added_append, ← or_assoc] at h
        exact h.imp_left fun h => .inl ⟨before, serials, after', hb', extend.mp hn, h⟩
    case inr =>
      rw [added_append, ← or_assoc] at h
      exact h.imp_left fun h => .inr ⟨extend.mp hn, h⟩
  case refine_2 =>
    obtain (⟨before, serials, after, rfl, hn, h⟩ | ⟨hn, h⟩) | h := h
    case inl.inl =>
      refine .inl ⟨before, serials, after ++ [b], by simp, extend.mpr hn, ?_⟩
      exact h.imp_right fun h => added_append.mpr (.inl h)
    case inl.inr =>
      exact .inr ⟨extend.mpr hn, h.imp_right fun h => added_append.mpr (.inl h)⟩
    case inr =>
      have h (l : List Body) : Added (l ++ [b]) s := added_append.mpr (.inr h)
      obtain hn | ⟨before, serials, after, rfl, hn⟩ := last_snapshot bodies
      case inl => exact .inr ⟨extend.mpr hn, .inr (h _)⟩
      case inr =>
        exact .inl ⟨before, serials, after ++ [b], by simp, extend.mpr hn, .inr (h _)⟩

-- The messages of one connection are a snapshot and then deltas.
theorem listed_cons {deltas : List Body} (hd : NoSnapshot deltas) :
    Listed loaded (.snapshot serials :: deltas) s ↔ s ∈ serials ∨ Added deltas s := by
  induction deltas using List.reverseRecOn
  case nil =>
    have h : Listed loaded ([] ++ [.snapshot serials]) s ↔ s ∈ serials := listed_snapshot
    simpa [Added] using h
  case append_singleton deltas b ih =>
    have hb : ¬b.isSnapshot := hd b (by simp)
    rw [← List.cons_append, listed_append hb, ih ((noSnapshot_append hb).mp hd), added_append, or_assoc]

end Listed

theorem Revocations.mem_runSync (r : Revocations) (messages : List (Body × Bool)) :
    s ∈ (r.runSync messages).denylist ↔ Listed r.denylist (messages.map (·.1)) s := by
  induction messages using List.reverseRecOn
  case nil => simp [runSync, Listed, Added, NoSnapshot]
  case append_singleton messages m ih =>
    rw [runSync, List.foldl_append, List.foldl_cons, List.foldl_nil, ← runSync, List.map_append]
    obtain ⟨body, persists⟩ := m
    cases body
    case snapshot serials =>
      rw [List.map_singleton, listed_snapshot]
      exact Denylist.mem_replaceAll
    case delta serials =>
      rw [List.map_singleton, listed_append (b := .delta serials) nofun, ← ih]
      have hu : s ∈ (r.runSync messages).denylist.union serials ↔ _ := Denylist.mem_union
      rw [receive]
      split
      case isTrue he  => simp [Added, List.isEmpty_iff.mp he]
      case isFalse => simpa [Added, update] using hu
    case other =>
      rw [List.map_singleton, listed_append (b := .other) nofun, ← ih]
      simp [receive, Added]

theorem verifyClientCert_of_serial (hc : cert.chain = .ok ()) (hr : cert.rawSerial = .ok raw)
    (he : extractSerialHex raw = .ok serialHex) (denylist : Denylist) :
    verifyClientCert denylist cert =
      if serialHex ∈ denylist then .error .revoked else .ok () := by
  simp only [verifyClientCert, hc, hr, Except.mapError, Checked.ok_bind, he, Denylist.contains,
    decide_eq_true_eq]
  rfl

-- A certificate whose chain holds is turned away exactly when the last snapshot or a delta after it
-- has the serial that the controller recorded for it.
theorem revoked_iff_listed (serial : Serial) (r : Revocations) (messages : List (Body × Bool)) :
    extractSerialHex (derContent serial) = .ok (recorded serial) ∧
    (verifyClientCert (r.runSync messages).denylist (issued serial) = .error .revoked ↔
      Listed r.denylist (messages.map (·.1)) (recorded serial)) ∧
    (verifyClientCert (r.runSync messages).denylist (issued serial) = .ok () ↔
      ¬Listed r.denylist (messages.map (·.1)) (recorded serial)) := by
  have he := extractSerialHex_derContent serial
  rw [verifyClientCert_of_serial (show (issued serial).chain = .ok () from rfl) rfl he,
    ← Revocations.mem_runSync]
  refine ⟨he, ?_⟩
  split
  case isTrue h  => simp [h]
  case isFalse h => simp [h]

end Relay
