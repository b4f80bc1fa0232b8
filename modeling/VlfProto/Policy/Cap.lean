import VlfProto.Policy.Controller

/-! # The cap on the number of flows -/

namespace VlfProto.Policy
open Platform Finset

namespace Controller

variable {c c' : Controller}

/-- What admission is about stays as it is. -/
structure SameAdmission (c c' : Controller) : Prop where
  configured : c'.configured = c.configured
  nextFlowID : c'.nextFlowID = c.nextFlowID
  flows : c'.flows = c.flows
  pendingPermits : c'.pendingPermits = c.pendingPermits
  capEnabled : c'.capEnabled = c.capEnabled
  capMaxActiveFlows : c'.capMaxActiveFlows = c.capMaxActiveFlows

theorem noteTransport_admission (c : Controller) (transport : Transport) :
    c.SameAdmission (c.noteTransport transport) := by
  rw [noteTransport]
  split
  · exact ⟨rfl, rfl, rfl, rfl, rfl, rfl⟩
  · split_ifs <;> exact ⟨rfl, rfl, rfl, rfl, rfl, rfl⟩

theorem rollWindow_admission (c : Controller) (now : ℤ) : c.SameAdmission (c.rollWindow now) := by
  rw [rollWindow]
  split_ifs <;> exact ⟨rfl, rfl, rfl, rfl, rfl, rfl⟩

theorem switchMode_admission (c : Controller) (next : Mode) (now : ℤ) :
    c.SameAdmission (c.switchMode next now) := by
  rw [switchMode]
  split_ifs <;> exact ⟨rfl, rfl, rfl, rfl, rfl, rfl⟩

theorem policySnapshot_admission (c : Controller) (now : ℤ) :
    c.SameAdmission (c.policySnapshot now).1 := by
  rw [policySnapshot]
  split_ifs <;> exact ⟨rfl, rfl, rfl, rfl, rfl, rfl⟩

theorem visitFlows_admission (now : ℤ) (order : List ℕ) (c : Controller) :
    c.SameAdmission (c.visitFlows now order).1 := by
  rw [visitFlows_fst]
  exact ⟨rfl, rfl, rfl, rfl, rfl, rfl⟩

theorem appendRTTSample_admission (c : Controller) (now : ℤ) (ms : ℚ) :
    c.SameAdmission (c.appendRTTSample now ms) := by
  rw [appendRTTSample]
  split_ifs <;> exact ⟨rfl, rfl, rfl, rfl, rfl, rfl⟩

/-- The cap holds, where there is one, and no number is given to two flows. -/
structure Capped (c : Controller) : Prop where
  auto : c.capEnabled = true → c.configured = .auto
  capped : c.capEnabled = true → c.flows.card + c.pendingPermits ≤ c.capMaxActiveFlows
  numbered : ∀ id ∈ c.flows, id ≤ c.nextFlowID

theorem Capped.same (hc : c.Capped) (h : c.SameAdmission c') : c'.Capped := by
  obtain ⟨hconfigured, hnext, hflows, hpermits, henabled, hmax⟩ := h
  refine ⟨?_, ?_, ?_⟩
  · rw [henabled, hconfigured]
    exact hc.auto
  · rw [henabled, hflows, hpermits, hmax]
    exact hc.capped
  · rw [hflows, hnext]
    exact hc.numbered

theorem newController_capped (configured : Mode) (now : ℤ) :
    (newController configured now).Capped :=
  ⟨Bool.noConfusion, Bool.noConfusion, by simp [newController]⟩

theorem Capped.acquireFlowPermit_capped (hc : c.Capped) (now : ℤ) :
    (c.acquireFlowPermit now).1.Capped ∧
      (c.acquireFlowPermit now).1.pendingPermits =
        c.pendingPermits + (c.acquireFlowPermit now).2.toNat := by
  obtain ⟨hconfigured, hnext, hflows, hpermits, henabled, hmax⟩ := c.rollWindow_admission now
  rw [acquireFlowPermit]
  split_ifs with hfree hroom
  · refine ⟨⟨hc.auto, fun hon => ?_, hc.numbered⟩, rfl⟩
    rcases hfree with hmode | hoff
    · exact absurd (hc.auto hon) hmode
    · cases hoff.symm.trans hon
  · refine ⟨⟨fun hon => ?_, fun _ => ?_, fun id hid => ?_⟩, rfl⟩
    · exact hconfigured.trans (hc.auto (henabled.symm.trans hon))
    · dsimp only
      rw [hflows, hmax]
      omega
    · dsimp only at hid ⊢
      rw [hflows] at hid
      rw [hnext]
      exact hc.numbered id hid
  · exact ⟨hc.same (c.rollWindow_admission now), hpermits⟩

theorem Capped.releaseFlowPermit_capped (hc : c.Capped) : c.releaseFlowPermit.Capped := by
  refine ⟨hc.auto, fun henabled => ?_, hc.numbered⟩
  have hle := hc.capped henabled
  dsimp only [releaseFlowPermit]
  split_ifs <;> omega

theorem Capped.unregisterFlow_capped (hc : c.Capped) (id : ℕ) : (c.unregisterFlow id).Capped := by
  refine ⟨hc.auto, fun henabled => ?_, fun id' hid => hc.numbered id' (mem_of_mem_erase hid)⟩
  have hle := hc.capped henabled
  have herase : (c.flows.erase id).card ≤ c.flows.card := card_erase_le
  dsimp only [unregisterFlow]
  omega

theorem releaseFlowPermit_pending (hpermit : 0 < c.pendingPermits) :
    c.releaseFlowPermit.pendingPermits + 1 = c.pendingPermits := by
  dsimp only [releaseFlowPermit]
  rw [if_pos hpermit]
  omega

theorem Capped.registerFlow_capped (hc : c.Capped) (hpermit : 0 < c.pendingPermits)
    (transport : Transport) (now : ℤ) :
    (c.registerFlow transport now).Capped ∧
      (c.registerFlow transport now).pendingPermits + 1 = c.pendingPermits := by
  have hnew : c.nextFlowID + 1 ∉ c.flows := fun hmem => by
    have hle := hc.numbered _ hmem
    omega
  have hpending := releaseFlowPermit_pending hpermit
  have hnote := noteTransport_admission (c.releaseFlowPermit.addFlow transport now) transport
  have hadded : (c.releaseFlowPermit.addFlow transport now).Capped := by
    refine ⟨hc.auto, fun henabled => ?_, fun id hid => ?_⟩
    · have hle := hc.capped henabled
      have hcard := card_insert_of_notMem hnew
      change (insert (c.nextFlowID + 1) c.flows).card + c.releaseFlowPermit.pendingPermits ≤
        c.capMaxActiveFlows
      omega
    · rcases mem_insert.mp hid with rfl | hid
      · exact le_rfl
      · exact (hc.numbered id hid).trans (Nat.le_succ _)
  exact ⟨hadded.same hnote, (congrArg (· + 1) hnote.pendingPermits).trans hpending⟩

theorem Capped.updateAdaptiveCap_capped (hc : c.Capped) (now : ℤ) (rttP95 : Option ℚ) :
    (c.updateAdaptiveCap now c.flows.card rttP95).Capped ∧
      (c.updateAdaptiveCap now c.flows.card rttP95).pendingPermits = c.pendingPermits := by
  have hsame : ∀ high low, (c.setTicks high low).Capped :=
    fun high low => hc.same ⟨rfl, rfl, rfl, rfl, rfl, rfl⟩
  have hoff : ∀ high low, ((c.setTicks high low).disableCap).Capped :=
    fun high low => ⟨Bool.noConfusion, Bool.noConfusion, hc.numbered⟩
  cases rttP95 with
  | none =>
    dsimp only [updateAdaptiveCap]
    split_ifs
    · exact ⟨hoff 0 0, rfl⟩
    · exact ⟨hsame 0 0, rfl⟩
  | some value =>
    dsimp only [updateAdaptiveCap]
    split_ifs with hmode
    · exact ⟨hoff 0 0, rfl⟩
    · refine ⟨⟨fun _ => not_not.mp hmode, fun _ => ?_, hc.numbered⟩, rfl⟩
      exact Nat.le_add_right _ _
    · exact ⟨hsame _ _, rfl⟩
    · exact ⟨hoff _ _, rfl⟩
    · exact ⟨hsame _ _, rfl⟩
    · exact ⟨hsame _ _, rfl⟩

theorem Capped.printStats_capped (hc : c.Capped) (now : ℤ) :
    (c.printStats now).Capped ∧ (c.printStats now).pendingPermits = c.pendingPermits := by
  have hpruned : (c.pruneRTTSamples (now - rttWindow)).Capped :=
    hc.same ⟨rfl, rfl, rfl, rfl, rfl, rfl⟩
  obtain ⟨⟨hauto, hcapped, hnumbered⟩, hpermits⟩ := hpruned.updateAdaptiveCap_capped now
    (c.pruneRTTSamples (now - rttWindow)).rttP95
  rw [printStats]
  split_ifs
  · exact ⟨hc, rfl⟩
  · exact ⟨⟨hauto, hcapped, hnumbered⟩, hpermits⟩

variable {readings : List (Option ℚ)} {limits : ℕ × ℕ} {start : ℤ}

/-- The reading of a stats tick is high. -/
def high (rttP95 : Option ℚ) : Bool := rttP95.any (capRTTHighMs < ·)

def low (rttP95 : Option ℚ) : Bool := rttP95.any (· < capRTTLowMs)

/-- Among readings, the newest first, two consecutive ones are high and no three consecutive ones
after them are low. -/
def Latched (readings : List (Option ℚ)) : Prop :=
  ∃ later a b earlier, readings = later ++ a :: b :: earlier ∧ high a ∧ high b ∧
    ¬∃ p x y z q, later = p ++ x :: y :: z :: q ∧ low x ∧ low y ∧ low z

theorem low_of_high {r : Option ℚ} (h : high r) : low r = false := by
  cases r with
  | none => rfl
  | some value =>
    have hhigh : capRTTHighMs < value := of_decide_eq_true h
    exact decide_eq_false (not_lt.mpr ((by decide : capRTTLowMs ≤ capRTTHighMs).trans hhigh.le))

/-- The latch closes with the second reading of a high streak and opens with the third of a low
one. -/
theorem latched_cons (r : Option ℚ) (rs : List (Option ℚ)) : Latched (r :: rs) ↔
    2 ≤ ((r :: rs).takeWhile high).length ∨
      Latched rs ∧ ((r :: rs).takeWhile low).length < 3 := by
  constructor
  · rintro ⟨later, a, b, earlier, heq, ha, hb, hnone⟩
    cases later with
    | nil =>
      obtain ⟨rfl, rfl⟩ := List.cons.inj heq
      exact .inl (by simp [ha, hb])
    | cons _ later =>
      obtain ⟨rfl, rfl⟩ := List.cons.inj heq
      refine .inr ⟨⟨later, a, b, earlier, rfl, ha, hb, ?_⟩, lt_of_not_ge fun hthree => hnone ?_⟩
      · rintro ⟨p, x, y, z, q, rfl, hlow⟩
        exact hnone ⟨r :: p, x, y, z, q, rfl, hlow⟩
      · have hstop := low_of_high ha
        rcases later with _ | ⟨y, _ | ⟨z, q⟩⟩
        · grind [List.takeWhile_cons]
        · grind [List.takeWhile_cons]
        · exact ⟨[], r, y, z, q, rfl, by grind [List.takeWhile_cons]⟩
  · rintro (htwo | ⟨⟨later, a, b, earlier, rfl, ha, hb, hnone⟩, hfew⟩)
    · rcases rs with _ | ⟨b, earlier⟩
      · grind [List.takeWhile_cons, List.takeWhile_nil]
      · have hboth : high r ∧ high b := by grind [List.takeWhile_cons]
        exact ⟨[], r, b, earlier, rfl, hboth.1, hboth.2, by simp⟩
    · refine ⟨r :: later, a, b, earlier, rfl, ha, hb, ?_⟩
      rintro ⟨_ | ⟨_, p⟩, x, y, z, q, heq, hx, hy, hz⟩
      · obtain ⟨rfl, rfl⟩ := List.cons.inj heq
        simp [hx, hy, hz] at hfew
        omega
      · exact hnone ⟨p, x, y, z, q, (List.cons.inj heq).2, hx, hy, hz⟩

/-- What `updateAdaptiveCap` reads and writes, other than the counter of the current second. -/
def capState (c : Controller) : Mode × ℕ × ℕ × Bool × ℕ × ℕ :=
  (c.configured, c.highRTTTicks, c.lowRTTTicks, c.capEnabled, c.capMaxNewPerSec,
    c.capMaxActiveFlows)

def limitsAfter (c c' : Controller) (activeFlows : ℕ) (limits : ℕ × ℕ) : ℕ × ℕ :=
  if c.capEnabled = false ∧ c'.capEnabled = true then
    (capMaxNewFlowsPerSecond, activeFlows + c.pendingPermits + capActiveFlowsMargin)
  else limits

/-- The controller after stats ticks with the given readings, the newest first, and other calls
between them; `limits` were set when the cap was last enabled. -/
inductive Ticked (start : ℤ) : List (Option ℚ) → ℕ × ℕ → Controller → Prop
  | new : Ticked start [] (0, 0) (newController .auto start)
  | other {readings : List (Option ℚ)} {limits : ℕ × ℕ} {c c' : Controller}
      (h : Ticked start readings limits c) (hsame : c'.capState = c.capState) :
      Ticked start readings limits c'
  | tick {readings : List (Option ℚ)} {limits : ℕ × ℕ} {c : Controller}
      (h : Ticked start readings limits c) (now : ℤ) (activeFlows : ℕ) (rttP95 : Option ℚ) :
      Ticked start (rttP95 :: readings)
        (c.limitsAfter (c.updateAdaptiveCap now activeFlows rttP95) activeFlows limits)
        (c.updateAdaptiveCap now activeFlows rttP95)

/-- The counters are those of the streaks, and the cap is the latch. -/
def Latch (readings : List (Option ℚ)) (limits : ℕ × ℕ) (c : Controller) : Prop :=
  ∃ enabled, c.capState = (.auto, (readings.takeWhile high).length, (readings.takeWhile low).length,
    enabled, if enabled then limits else (0, 0)) ∧ (enabled = true ↔ Latched readings)

theorem updateAdaptiveCap_capState (hauto : c.configured = .auto) (now : ℤ) (activeFlows : ℕ)
    (r : Option ℚ) {highs lows : ℕ} (hhighs : highs = if high r then c.highRTTTicks + 1 else 0)
    (hlows : lows = if low r then c.lowRTTTicks + 1 else 0) :
    (c.updateAdaptiveCap now activeFlows r).capState =
      (.auto, highs, lows,
        if c.capEnabled = true then
          if lows < 3 then (true, c.capMaxNewPerSec, c.capMaxActiveFlows) else (false, 0, 0)
        else if 2 ≤ highs then (true, capMaxNewFlowsPerSecond,
          activeFlows + c.pendingPermits + capActiveFlowsMargin)
        else (false, c.capMaxNewPerSec, c.capMaxActiveFlows)) := by
  subst hhighs hlows
  cases r with
  | none =>
    rw [updateAdaptiveCap, if_neg (not_not.mpr hauto)]
    cases hon : c.capEnabled <;> simp [capState, setTicks, high, low, hauto, hon]
  | some value =>
    have hboth : capRTTHighMs < value → ¬value < capRTTLowMs := fun h =>
      of_decide_eq_false (low_of_high (r := some value) (decide_eq_true h))
    have hmode : ¬c.configured ≠ .auto := not_not.mpr hauto
    simp only [updateAdaptiveCap, if_neg hmode, high, low, Option.any_some, decide_eq_true_eq,
      capEnableConsecutive, capDisableConsecutive]
    grind [capState, setTicks, enableCap, disableCap]

theorem Latch.tick (h : Latch readings limits c) (now : ℤ) (activeFlows : ℕ) (r : Option ℚ) :
    Latch (r :: readings)
      (c.limitsAfter (c.updateAdaptiveCap now activeFlows r) activeFlows limits)
      (c.updateAdaptiveCap now activeFlows r) := by
  obtain ⟨enabled, hstate, hlatched⟩ := h
  simp only [capState, Prod.mk.injEq] at hstate
  obtain ⟨hauto, hhigh, hlow, rfl, hlimits⟩ := hstate
  have hlen (p : Option ℚ → Bool) : ((r :: readings).takeWhile p).length =
      if p r then (readings.takeWhile p).length + 1 else 0 := by
    rw [List.takeWhile_cons]
    split_ifs <;> rfl
  have hnext := updateAdaptiveCap_capState hauto now activeFlows r (hhigh ▸ hlen high)
    (hlow ▸ hlen low)
  have henabled := congrArg (fun s => s.2.2.2.1) hnext
  dsimp only [capState] at henabled
  have hstreaks : 2 ≤ ((r :: readings).takeWhile high).length →
      ((r :: readings).takeWhile low).length < 3 := fun htwo => by
    have hr : high r := by
      by_contra hr
      simp [hr] at htwo
    simp [low_of_high hr]
  refine ⟨(c.updateAdaptiveCap now activeFlows r).capEnabled, hnext.trans ?_, ?_⟩
  · rw [limitsAfter, henabled]
    cases hon : c.capEnabled <;> simp only [hon] at hlimits <;> grind
  · rw [latched_cons, ← hlatched, henabled]
    grind

theorem Ticked.latch (h : Ticked start readings limits c) : Latch readings limits c := by
  induction h with
  | new => exact ⟨false, rfl, by simp [Latched]⟩
  | other _ hsame ih =>
    obtain ⟨enabled, hstate, hlatched⟩ := ih
    exact ⟨enabled, hsame.trans hstate, hlatched⟩
  | tick _ now activeFlows r ih => exact ih.tick now activeFlows r

/-- The cap is on exactly while the readings have it latched, with the limits that were set when
it came on. -/
theorem cap_hysteresis (start : ℤ) (readings : List (Option ℚ)) (limits : ℕ × ℕ) (c : Controller)
    (h : Ticked start readings limits c) :
    (c.capEnabled = true ↔ Latched readings) ∧
      (c.capMaxNewPerSec, c.capMaxActiveFlows) = if c.capEnabled then limits else (0, 0) := by
  obtain ⟨enabled, hstate, hlatched⟩ := h.latch
  simp only [capState, Prod.mk.injEq] at hstate
  obtain ⟨-, -, -, rfl, hlimits⟩ := hstate
  exact ⟨hlatched, hlimits⟩

theorem cap_enabled_after_two_high : ∃ c, Ticked 0 [some 300, some 300] (2, 9) c ∧
    Latched [some 300, some 300] ∧ (c.capMaxNewPerSec, c.capMaxActiveFlows) = (2, 9) := by
  have h : Ticked 0 [some 300, some 300] (2, 9) _ :=
    (Ticked.new.tick 10 5 (some 300)).tick 20 5 (some 300)
  have hcap := cap_hysteresis _ _ _ _ h
  exact ⟨_, h, hcap.1.mp (by decide +kernel), hcap.2⟩

end Controller

end VlfProto.Policy
