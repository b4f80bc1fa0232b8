import VlfProto.Limits.Manager
import VlfProto.Platform.Pacing
import VlfProto.Transition.Path

/-! # How much the limiter lets through -/

namespace VlfProto.Limits
open Platform Transition Option Finmap

/-- What is counted: the bytes of a relay client or of a session, or the packets of a session. -/
inductive Key where
  | relayBytes (clientID : Bytes)
  | sessionBytes (sessionID : UInt64)
  | udpPackets (sessionID : UInt64)
  deriving DecidableEq

namespace Key

def limit (cfg : Config) : Key → ℤ
  | .relayBytes _ => cfg.maxBytesPerMinutePerClient
  | .sessionBytes _ => cfg.maxBytesPerMinutePerSession
  | .udpPackets _ => cfg.maxUDPPPS

def span : Key → ℤ
  | .udpPackets _ => second
  | _ => minute

/-- What a call with argument `n` is charged; a packet counts one. -/
def amount (n : ℤ) : Key → ℤ
  | .udpPackets _ => 1
  | _ => n

def cleanedWith (sessionID : UInt64) : Key → Bool
  | .relayBytes _ => false
  | .sessionBytes id => id = sessionID
  | .udpPackets id => id = sessionID

def current (window : Option ByteWindow) (now : ℤ) : Key → ByteWindow
  | .udpPackets _ =>
    let w := PPSWindow.current (window.map fun w => ⟨w.windowStart, w.bytes⟩) (now - now % second)
    ⟨w.secondStart, w.packets⟩
  | _ => ByteWindow.current window now

end Key

inductive LimiterCall where
  | allow (key : Key) (n now : ℤ)
  | cleanupSession (sessionID : UInt64)

namespace Manager

def window (m : Manager) : Key → Option ByteWindow
  | .relayBytes clientID => m.relayBytesByClient.lookup clientID
  | .sessionBytes sessionID => m.sessionBytes.lookup sessionID
  | .udpPackets sessionID =>
    (m.sessionPackets.lookup sessionID).map fun w => ⟨w.secondStart, w.packets⟩

/-- The method that checks the limit of the key; the flag tells whether the call may pass. -/
def allow (m : Manager) (key : Key) (n now : ℤ) : Manager × Bool :=
  match key with
  | .relayBytes clientID =>
    ((m.allowRelayBytes clientID n now).1, (m.allowRelayBytes clientID n now).2.isNone)
  | .sessionBytes sessionID =>
    ((m.allowSessionBytes sessionID n now).1, (m.allowSessionBytes sessionID n now).2.isNone)
  | .udpPackets sessionID => m.allowUDPPacket sessionID now

end Manager

/-- A limiter with its last clock reading and the charges that it has accepted: key, instant and
amount. -/
structure Metered where
  manager : Manager
  clock : ℤ
  log : List (Key × ℤ × ℤ)

namespace Metered

def new (cfg : Config) (clock : ℤ) : Metered := ⟨.new cfg, clock, []⟩

def step (s : Metered) : LimiterCall → Option Metered
  | .allow key n now =>
    if s.clock ≤ now then some {
      manager := (s.manager.allow key n now).1
      clock := now
      log := if (s.manager.allow key n now).2 ∧ 0 < key.amount n
        then s.log ++ [(key, now, key.amount n)] else s.log }
    else none
  | .cleanupSession sessionID => some { s with manager := s.manager.cleanupSession sessionID }

def charges (s : Metered) (key : Key) : List (ℤ × ℤ) :=
  (s.log.filter fun e => e.1 = key).map Prod.snd

end Metered

/-- The sums for the key stay in range, and its window is not dropped. -/
def Key.Regular (key : Key) (cfg : Config) (_ : Metered) : LimiterCall → Prop
  | .allow k n _ => k = key → key.amount n + key.limit cfg ≤ maxDuration
  | .cleanupSession sessionID => key.cleanedWith sessionID = false

variable {m : Manager} {key key' : Key} {n now now' : ℤ} {w : ByteWindow} {cfg : Config}
  {s s' : Metered} {call : LimiterCall} {K : Type*} {windows : Table K ByteWindow}

theorem chargeBytes_self [DecidableEq K] {k : K}
    {limit : ℤ} (hn : 0 < n)
    (hfits : wrapInt64 ((ByteWindow.current (windows.lookup k) now).bytes + n) =
      (ByteWindow.current (windows.lookup k) now).bytes + n) :
    let w := ByteWindow.current (windows.lookup k) now
    let accepted := ¬(0 < limit ∧ limit < w.bytes + n)
    ((chargeBytes limit windows k n now).2.isNone ↔ accepted) ∧
      (chargeBytes limit windows k n now).1.lookup k =
        some { w with bytes := if accepted then w.bytes + n else w.bytes } := by
  simp only [chargeBytes, if_neg (not_le.mpr hn), hfits]
  split_ifs with hover <;> simp [hover]

theorem chargeBytes_other [DecidableEq K] {k k' : K}
    {limit : ℤ} (hk : k' ≠ k) :
    (chargeBytes limit windows k n now).1.lookup k' = windows.lookup k' := by
  simp only [chargeBytes]
  split_ifs
  · rfl
  · exact lookup_insert_of_ne _ hk
  · exact lookup_insert_of_ne _ hk

theorem allow_cfg : (m.allow key n now).1.cfg = m.cfg := by
  cases key with
  | relayBytes clientID | sessionBytes sessionID => rfl
  | udpPackets sessionID =>
    simp only [Manager.allow, Manager.allowUDPPacket]
    split_ifs <;> rfl

/-- A call charges its own window if there is room in it. -/
theorem allow_self (hn : 0 < key.amount n)
    (hfits : wrapInt64 ((key.current (m.window key) now).bytes + key.amount n) =
      (key.current (m.window key) now).bytes + key.amount n) :
    let w := key.current (m.window key) now
    let accepted := ¬(0 < key.limit m.cfg ∧ key.limit m.cfg < w.bytes + key.amount n)
    ((m.allow key n now).2 ↔ accepted) ∧ (m.allow key n now).1.window key =
      some { w with bytes := if accepted then w.bytes + key.amount n else w.bytes } := by
  cases key with
  | relayBytes clientID | sessionBytes sessionID => exact chargeBytes_self hn hfits
  | udpPackets sessionID =>
    have hwindow : ((m.sessionPackets.lookup sessionID).map fun w =>
        (⟨w.secondStart, w.packets⟩ : ByteWindow)).map (fun w =>
          (⟨w.windowStart, w.bytes⟩ : PPSWindow)) = m.sessionPackets.lookup sessionID := by
      cases m.sessionPackets.lookup sessionID <;> rfl
    simp only [Manager.allow, Manager.allowUDPPacket, Manager.window, Key.current, Key.amount,
      Key.limit, hwindow, Int.lt_add_one_iff]
    split_ifs with hover <;> simp [hover]

/-- A call that asks for nothing passes and leaves its window. -/
theorem allow_nothing (m : Manager) (now : ℤ) (hn : key.amount n ≤ 0) :
    (m.allow key n now).2 ∧ (m.allow key n now).1.window key = m.window key := by
  cases key with
  | udpPackets sessionID => cases hn
  | relayBytes clientID =>
    have hn : n ≤ 0 := hn
    simp [Manager.allow, Manager.allowRelayBytes, Manager.window, chargeBytes, hn]
  | sessionBytes sessionID =>
    have hn : n ≤ 0 := hn
    simp [Manager.allow, Manager.allowSessionBytes, Manager.window, chargeBytes, hn]

theorem allow_other (hkey : key' ≠ key) :
    (m.allow key n now).1.window key' = m.window key' := by
  cases key with
  | relayBytes clientID =>
    cases key' with
    | relayBytes id => exact chargeBytes_other (by simpa using hkey)
    | sessionBytes id | udpPackets id => rfl
  | sessionBytes sessionID =>
    cases key' with
    | relayBytes id | udpPackets id => rfl
    | sessionBytes id => exact chargeBytes_other (by simpa using hkey)
  | udpPackets sessionID =>
    simp only [Manager.allow, Manager.allowUDPPacket]
    cases key' with
    | relayBytes id | sessionBytes id => split_ifs <;> rfl
    | udpPackets id =>
      have hid : id ≠ sessionID := by simpa using hkey
      split_ifs <;> simp [Manager.window, lookup_insert_of_ne _ hid]

theorem cleanupSession_window {sessionID : UInt64} (h : key.cleanedWith sessionID = false) :
    (m.cleanupSession sessionID).window key = m.window key := by
  cases key with
  | relayBytes clientID => rfl
  | sessionBytes id => exact lookup_erase_ne (by simpa [Key.cleanedWith] using h)
  | udpPackets id =>
    have hid : id ≠ sessionID := by simpa [Key.cleanedWith] using h
    simp [Manager.window, Manager.cleanupSession, lookup_erase_ne hid]

/-- Packet windows begin with a second of the clock. -/
def Key.Aligned (start : ℤ) : Key → Prop
  | .udpPackets _ => start % second = 0
  | _ => True

theorem ByteWindow.current_cases (window : Option ByteWindow) (now : ℤ) :
    (∃ w, window = some w ∧ ByteWindow.current window now = w ∧ now < w.windowStart + minute) ∨
      ByteWindow.current window now = ⟨now, 0⟩ ∧
        ∀ v, window = some v → v.windowStart + minute ≤ now := by
  cases window with
  | none => exact .inr ⟨rfl, fun v hv => by cases hv⟩
  | some w =>
    by_cases hover : minute ≤ instantSub now w.windowStart
    · refine .inr ⟨if_pos hover, fun v hv => ?_⟩
      cases hv
      have hgap := le_sub_of_le_instantSub (by decide) hover
      omega
    · refine .inl ⟨w, rfl, if_neg hover, ?_⟩
      unfold instantSub minDuration maxDuration minute at *
      omega

theorem PPSWindow.current_cases (window : Option PPSWindow) (now : ℤ)
    (hstart : ∀ v, window = some v → v.secondStart ≤ now ∧ v.secondStart % second = 0) :
    (∃ w, window = some w ∧ PPSWindow.current window (now - now % second) = w ∧
      now < w.secondStart + second) ∨
    PPSWindow.current window (now - now % second) = ⟨now - now % second, 0⟩ ∧
      ∀ v, window = some v → v.secondStart + second ≤ now - now % second := by
  cases window with
  | none => exact .inr ⟨rfl, fun v hv => by cases hv⟩
  | some w =>
    obtain ⟨hle, haligned⟩ := hstart w rfl
    unfold second at *
    by_cases hroll : w.secondStart ≠ now - now % 1000000000
    · refine .inr ⟨if_pos hroll, fun v hv => ?_⟩
      cases hv
      omega
    · exact .inl ⟨w, rfl, if_neg hroll, by omega⟩

/-- A call goes to the window that there is, or to a new one after it. -/
theorem Key.current_cases {window : Option ByteWindow} (key : Key)
    (hstart : ∀ v, window = some v → v.windowStart ≤ now ∧ key.Aligned v.windowStart)
    (hw : key.current window now = w) :
    (window = some w ∧ now < w.windowStart + key.span) ∨
    (w.bytes = 0 ∧ w.windowStart ≤ now ∧ now < w.windowStart + key.span ∧
      key.Aligned w.windowStart ∧
      ∀ v, window = some v → v.windowStart + key.span ≤ w.windowStart) := by
  have hminute : now < now + minute := by simp [minute]
  cases key with
  | relayBytes clientID | sessionBytes sessionID =>
    rcases ByteWindow.current_cases window now with ⟨v, hv, hsame, hearly⟩ | ⟨hnew, hlate⟩
    · obtain rfl : v = w := hsame.symm.trans hw
      exact .inl ⟨hv, hearly⟩
    · obtain rfl : ⟨now, 0⟩ = w := hnew.symm.trans hw
      exact .inr ⟨rfl, le_rfl, hminute, trivial, hlate⟩
  | udpPackets sessionID =>
    have htrunc : now - now % second ≤ now ∧ now < now - now % second + second ∧
        (now - now % second) % second = 0 := by
      unfold second
      omega
    have hpackets := PPSWindow.current_cases
      (window.map fun w => ⟨w.windowStart, w.bytes⟩) now fun v hv => by
        obtain ⟨v', hv', rfl⟩ := map_eq_some_iff.mp hv
        exact hstart v' hv'
    rcases hpackets with ⟨v, hv, hsame, hearly⟩ | ⟨hnew, hlate⟩
    · obtain ⟨v', hv', rfl⟩ := map_eq_some_iff.mp hv
      simp only [Key.current, hsame] at hw
      exact .inl ⟨hw ▸ hv', hw ▸ hearly⟩
    · simp only [Key.current, hnew] at hw
      subst hw
      refine .inr ⟨rfl, htrunc.1, htrunc.2.1, htrunc.2.2, fun v hv => ?_⟩
      exact hlate _ (map_eq_some_iff.mpr ⟨v, hv, rfl⟩)

/-- The window of a key and the charges to it. -/
structure Kept (key : Key) (cfg : Config) (s : Metered) : Prop where
  cfg_eq : s.manager.cfg = cfg
  fresh : s.manager.window key = none → s.charges key = []
  paced : ∀ w, s.manager.window key = some w →
    Paced key.span (key.limit cfg) w.windowStart w.bytes (s.charges key) ∧
      w.windowStart ≤ s.clock ∧ key.Aligned w.windowStart

theorem Kept.starts (hs : Kept key cfg s) (hnow : s.clock ≤ now) (v : ByteWindow)
    (hv : s.manager.window key = some v) : v.windowStart ≤ now ∧ key.Aligned v.windowStart :=
  ⟨(hs.paced v hv).2.1.trans hnow, (hs.paced v hv).2.2⟩

theorem span_pos (key : Key) : 0 < key.span := by
  cases key <;> simp [Key.span, minute, second]

/-- The window that a call goes to takes the call's instant. -/
theorem Kept.current (hs : Kept key cfg s) (hlimit : 0 < key.limit cfg) (hnow : s.clock ≤ now)
    (hw : key.current (s.manager.window key) now = w) :
    Paced key.span (key.limit cfg) w.windowStart w.bytes (s.charges key) ∧
      w.windowStart ≤ now ∧ now < w.windowStart + key.span ∧ key.Aligned w.windowStart := by
  rcases key.current_cases (hs.starts hnow) hw with
    ⟨hsame, hearly⟩ | ⟨hzero, hle, hearly, haligned, hlate⟩
  · obtain ⟨hpaced, -, haligned⟩ := hs.paced _ hsame
    exact ⟨hpaced, (hs.starts hnow _ hsame).1, hearly, haligned⟩
  · refine ⟨?_, hle, hearly, haligned⟩
    rw [hzero]
    cases hwindow : s.manager.window key with
    | none =>
      rw [hs.fresh hwindow]
      exact paced_nil hlimit.le
    | some v =>
      rw [hwindow] at hlate
      exact (hs.paced v hwindow).1.roll (span_pos key).le (hlate v rfl)

/-- The sum of a call stays in range. -/
theorem Kept.fits (hs : Kept key cfg s) (hlimit : 0 < key.limit cfg) (hnow : s.clock ≤ now)
    (hn : 0 < key.amount n) (hrange : key.amount n + key.limit cfg ≤ maxDuration) :
    wrapInt64 ((key.current (s.manager.window key) now).bytes + key.amount n) =
      (key.current (s.manager.window key) now).bytes + key.amount n := by
  obtain ⟨hlo, hhi⟩ := (hs.current hlimit hnow rfl).1.bounds
  exact wrapInt64_of_mem (by unfold minDuration; omega) (by omega)

theorem charges_concat (s : Metered) (m : Manager) (clock : ℤ) (k : Key) (e : ℤ × ℤ) :
    Metered.charges ⟨m, clock, s.log ++ [(k, e)]⟩ key =
      if k = key then s.charges key ++ [e] else s.charges key := by
  by_cases hk : k = key <;> simp [Metered.charges, hk]

theorem Kept.of_same {m : Manager} {clock : ℤ} {log : List (Key × ℤ × ℤ)} (hs : Kept key cfg s)
    (hcfg : m.cfg = cfg) (hwindow : m.window key = s.manager.window key) (hclock : s.clock ≤ clock)
    (hlog : Metered.charges ⟨m, clock, log⟩ key = s.charges key) :
      Kept key cfg ⟨m, clock, log⟩ where
  cfg_eq := hcfg
  fresh hnone := hlog.trans (hs.fresh (hwindow ▸ hnone))
  paced w hw := by
    obtain ⟨hpaced, hstart, haligned⟩ := hs.paced w (hwindow ▸ hw)
    rw [hlog]
    exact ⟨hpaced, hstart.trans hclock, haligned⟩

/-- A call for the key itself. -/
theorem Kept.allow (hlimit : 0 < key.limit cfg) (hs : Kept key cfg s) (hnow : s.clock ≤ now)
    (hrange : key.amount n + key.limit cfg ≤ maxDuration)
    (h : s.step (.allow key n now) = some s') : Kept key cfg s' := by
  obtain ⟨-, rfl⟩ := of_guard h
  have hcfg : (s.manager.allow key n now).1.cfg = cfg := allow_cfg.trans hs.cfg_eq
  by_cases hn : 0 < key.amount n
  · obtain ⟨hpaced, hstart, hearly, haligned⟩ := hs.current hlimit hnow rfl
    obtain ⟨hflag, hwindow⟩ := allow_self hn (hs.fits hlimit hnow hn hrange)
    rw [hs.cfg_eq] at hflag hwindow
    by_cases hroom : key.limit cfg < (key.current (s.manager.window key) now).bytes + key.amount n
    · rw [if_neg (not_not.mpr ⟨hlimit, hroom⟩)] at hwindow
      have hrefused : ¬(s.manager.allow key n now).2 := fun hok => hflag.mp hok ⟨hlimit, hroom⟩
      rw [if_neg fun hok => hrefused hok.1]
      refine ⟨hcfg, fun hnone => (by simp [hwindow] at hnone), fun w hw => ?_⟩
      cases hwindow.symm.trans hw
      exact ⟨hpaced, hstart, haligned⟩
    · have hfits : ¬(0 < key.limit cfg ∧
          key.limit cfg < (key.current (s.manager.window key) now).bytes + key.amount n) :=
        fun hover => hroom hover.2
      rw [if_pos hfits] at hwindow
      rw [if_pos ⟨hflag.mpr hfits, hn⟩]
      refine ⟨hcfg, fun hnone => (by simp [hwindow] at hnone), fun w hw => ?_⟩
      cases hwindow.symm.trans hw
      rw [charges_concat, if_pos rfl]
      exact ⟨hpaced.charge hn.le hstart hearly (not_lt.mp hroom), hstart, haligned⟩
  · have hwindow := (allow_nothing s.manager now (not_lt.mp hn)).2
    rw [if_neg fun hok => hn hok.2]
    exact hs.of_same hcfg hwindow hnow rfl

/-- What is done for other keys. -/
theorem step_other (hregular : key.Regular cfg s call)
    (hother : ∀ n now, call ≠ .allow key n now) (h : s.step call = some s') :
    s'.manager.cfg = s.manager.cfg ∧ s'.manager.window key = s.manager.window key ∧
      s'.charges key = s.charges key ∧ s.clock ≤ s'.clock := by
  cases call with
  | cleanupSession sessionID =>
    cases h
    exact ⟨rfl, cleanupSession_window hregular, rfl, le_rfl⟩
  | allow k n now =>
    obtain ⟨hnow, rfl⟩ := of_guard h
    have hk : key ≠ k := fun heq => hother n now (heq ▸ rfl)
    refine ⟨allow_cfg, allow_other hk, ?_, hnow⟩
    split_ifs
    · rw [charges_concat, if_neg (Ne.symm hk)]
    · rfl

theorem step_kept (hlimit : 0 < key.limit cfg) (hs : Kept key cfg s)
    (hregular : key.Regular cfg s call) (h : s.step call = some s') : Kept key cfg s' := by
  by_cases hown : ∃ n now, call = .allow key n now
  · obtain ⟨n, now, rfl⟩ := hown
    exact hs.allow hlimit (of_guard h).1 (hregular rfl) h
  · obtain ⟨hcfg, hwindow, hcharges, hclock⟩ := step_other hregular
      (fun n now heq => hown ⟨n, now, heq⟩) h
    exact hs.of_same (hcfg.trans hs.cfg_eq) hwindow hclock hcharges

/-- A refused call would have gone over the limit, and adds nothing to the window it goes to. -/
theorem Kept.refused (hlimit : 0 < key.limit cfg) (hs : Kept key cfg s) (hnow : s.clock ≤ now)
    (hrange : key.amount n + key.limit cfg ≤ maxDuration)
    (h : (s.manager.allow key n now).2 = false) :
    key.limit cfg < (key.current (s.manager.window key) now).bytes + key.amount n ∧
      (s.manager.allow key n now).1.window key = some (key.current (s.manager.window key) now) := by
  have hn : 0 < key.amount n := by
    by_contra hn
    simp [(allow_nothing s.manager now (not_lt.mp hn)).1] at h
  obtain ⟨hflag, hwindow⟩ := allow_self hn (hs.fits hlimit hnow hn hrange)
  rw [hs.cfg_eq] at hflag hwindow
  have hover : 0 < key.limit cfg ∧
      key.limit cfg < (key.current (s.manager.window key) now).bytes + key.amount n := by
    by_contra hroom
    simp [hflag.mpr hroom] at h
  rw [if_neg (not_not.mpr hover)] at hwindow
  exact ⟨hover.2, hwindow⟩

theorem chargeBytes_congr [DecidableEq K] {windows' : Table K ByteWindow}
    {k : K} (limit n now : ℤ) (h : windows'.lookup k = windows.lookup k) :
    (chargeBytes limit windows' k n now).2 = (chargeBytes limit windows k n now).2 ∧
      (chargeBytes limit windows' k n now).1.lookup k =
        (chargeBytes limit windows k n now).1.lookup k := by
  simp only [chargeBytes, h]
  split_ifs <;> simp [h]

theorem allow_congr {m' : Manager} (hcfg : m'.cfg = m.cfg) (h : m'.window key = m.window key) :
    (m'.allow key n now).2 = (m.allow key n now).2 ∧
      (m'.allow key n now).1.window key = (m.allow key n now).1.window key := by
  cases key with
  | relayBytes clientID =>
    obtain ⟨hrefused, hwindow⟩ := chargeBytes_congr
      m.cfg.maxBytesPerMinutePerClient n now h
    simp only [Manager.allow, Manager.allowRelayBytes, Manager.window, hcfg, hrefused, hwindow,
      and_self]
  | sessionBytes sessionID =>
    obtain ⟨hrefused, hwindow⟩ := chargeBytes_congr
      m.cfg.maxBytesPerMinutePerSession n now h
    simp only [Manager.allow, Manager.allowSessionBytes, Manager.window, hcfg, hrefused, hwindow,
      and_self]
  | udpPackets sessionID =>
    have hlookup : m'.sessionPackets.lookup sessionID = m.sessionPackets.lookup sessionID :=
      map_injective (by rintro ⟨_, _⟩ ⟨_, _⟩ ⟨⟩; rfl) h
    simp only [Manager.allow, Manager.allowUDPPacket, hcfg, hlookup]
    split_ifs <;> simp [Manager.window]

/-- A call for another key, which leaves the window of this one. -/
def Key.Elsewhere (key : Key) (s : Metered) (call : LimiterCall) : Prop :=
  key.Regular s.manager.cfg s call ∧ ∀ n now, call ≠ .allow key n now

theorem new_kept (cfg : Config) (clock : ℤ) (key : Key) : Kept key cfg (.new cfg clock) where
  cfg_eq := rfl
  fresh _ := rfl
  paced w hw := by cases key <;> simp [Metered.new, Manager.new, Manager.window] at hw

/-- At most twice the limit in an interval of one span, a refusal only over the limit and at no
cost, and no influence of the calls for other keys. -/
theorem limiter_paces (cfg : Config) (clock : ℤ) (key : Key) (calls : List LimiterCall)
    (s : Metered) (hlimit : 0 < key.limit cfg)
    (hpath : Path Metered.step (key.Regular cfg) (.new cfg clock) calls s) :
    (∀ a, chargedWithin (s.charges key) a (a + key.span) ≤ 2 * key.limit cfg) ∧
    (∀ n now, s.clock ≤ now → key.amount n + key.limit cfg ≤ maxDuration →
      (s.manager.allow key n now).2 = false →
      key.limit cfg < (key.current (s.manager.window key) now).bytes + key.amount n ∧
        (s.manager.allow key n now).1.window key = some (key.current (s.manager.window key) now)) ∧
    ∀ others s', Path Metered.step key.Elsewhere s others s' →
      ∀ n now, (s'.manager.allow key n now).2 = (s.manager.allow key n now).2 := by
  have hs : Kept key cfg s := hpath.invariant
    (fun _ _ _ hs hregular hstep => step_kept hlimit hs hregular hstep) (new_kept cfg clock key)
  refine ⟨fun a => ?_, fun n now hnow hrange hrefused => hs.refused hlimit hnow hrange hrefused,
    fun others s' hothers n now => ?_⟩
  · cases hwindow : s.manager.window key with
    | none =>
      rw [hs.fresh hwindow]
      simpa [chargedWithin] using hlimit.le
    | some w => exact (hs.paced w hwindow).1.paced a
  · have hkeep (t : Metered) (call : LimiterCall) (t' : Metered)
        (ht : t.manager.cfg = s.manager.cfg ∧ t.manager.window key = s.manager.window key)
        (hcall : key.Elsewhere t call) (hstep : t.step call = some t') :
        t'.manager.cfg = s.manager.cfg ∧ t'.manager.window key = s.manager.window key := by
      obtain ⟨hcfg, hwindow, -⟩ := step_other hcall.1 hcall.2 hstep
      exact ⟨hcfg.trans ht.1, hwindow.trans ht.2⟩
    obtain ⟨hcfg, hwindow⟩ := hothers.invariant hkeep ⟨rfl, rfl⟩
    exact (allow_congr hcfg hwindow).1

/-- A limit of one byte a minute and one packet a second. -/
def oneEach : Config := ⟨1, 1, 1, 1, 1⟩

def oneKey : Key := .udpPackets 1

theorem oneEach_paces :
    ∃ s, Path Metered.step (oneKey.Regular oneEach) (.new oneEach 0)
        [.allow oneKey 1 5, .allow oneKey 1 6, .allow oneKey 1 second] s ∧
      s.charges oneKey = [(5, 1), (second, 1)] ∧
      chargedWithin (s.charges oneKey) 5 (5 + second) ≤ 2 := by
  have hregular (s : Metered) (now : ℤ) : oneKey.Regular oneEach s (.allow oneKey 1 now) :=
    fun _ => by decide
  have hpath : Path Metered.step (oneKey.Regular oneEach) (.new oneEach 0)
      [.allow oneKey 1 5, .allow oneKey 1 6, .allow oneKey 1 second] _ :=
    .cons (hregular _ _) rfl (.cons (hregular _ _) rfl (.cons (hregular _ _) rfl (.nil _)))
  exact ⟨_, hpath, rfl, (limiter_paces oneEach 0 oneKey _ _ (by decide) hpath).1 5⟩

end VlfProto.Limits
