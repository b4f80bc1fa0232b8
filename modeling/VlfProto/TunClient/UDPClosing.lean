import VlfProto.TunClient.UDPState

/-! # What a UDP flow of the TUN client holds -/

namespace VlfProto.TunClient
open Platform Transition

/-- What somebody holds: permits, references of a client, flows, registrations. -/
structure Held where
  permits : ℕ := 0
  references : ℕ := 0
  flows : ℕ := 0
  registrations : ℕ := 0

/-- What was given back and what is held is what was taken. -/
@[mk_iff]
structure Ledger.Owes (l : Ledger) (h : Held) : Prop where
  permits : l.taken = l.consumed + h.permits
  references : l.acquired = l.released + h.references
  flows : l.opened = l.closed + h.flows
  registrations : l.registered = l.unregistered + h.registrations

def Ledger.Balanced (l : Ledger) : Prop := l.Owes {}

/-- Nothing was taken twice. -/
@[mk_iff]
structure Ledger.Single (l : Ledger) : Prop where
  permits : l.taken ≤ 1
  references : l.acquired ≤ 1
  flows : l.opened ≤ 1
  registrations : l.registered ≤ 1

/-- The ledger of one who took a permit or not, got a client or not, and gave both back. -/
def Ledger.givenBack (permit client : Bool) : Ledger :=
  { taken := permit.toNat, consumed := permit.toNat, acquired := client.toNat,
    released := client.toNat }

theorem Ledger.givenBack_balanced (permit client : Bool) :
    (givenBack permit client).Balanced :=
  ⟨rfl, rfl, rfl, rfl⟩

theorem Ledger.givenBack_single (permit client : Bool) : (givenBack permit client).Single :=
  ⟨permit.toNat_le, client.toNat_le, Nat.zero_le _, Nat.zero_le _⟩

instance (l : Ledger) (h : Held) : Decidable (l.Owes h) :=
  decidable_of_iff _ (l.owes_iff h).symm

instance (l : Ledger) : Decidable l.Balanced := inferInstanceAs (Decidable (l.Owes {}))

instance (l : Ledger) : Decidable l.Single := decidable_of_iff _ l.single_iff.symm

namespace Ledger.Owes

variable {l : Ledger} {h : Held}

theorem acquireFlowPermit (hl : l.Owes h) :
    l.acquireFlowPermit.Owes { h with permits := h.permits + 1 } :=
  { hl with permits := congrArg (· + 1) hl.permits }

theorem releaseFlowPermit (hl : l.Owes { h with permits := h.permits + 1 }) :
    l.releaseFlowPermit.Owes h :=
  { hl with permits := hl.permits.trans (by simp only [Ledger.releaseFlowPermit]; omega) }

theorem acquireClient (hl : l.Owes h) :
    l.acquireClient.Owes { h with references := h.references + 1 } :=
  { hl with references := congrArg (· + 1) hl.references }

theorem releaseClient (hl : l.Owes { h with references := h.references + 1 }) {key : String}
    (hkey : key ≠ "") : (l.releaseClient key).Owes h := by
  rw [Ledger.releaseClient, if_neg hkey]
  exact { hl with references := hl.references.trans (by simp only; omega) }

theorem openFlow (hl : l.Owes h) : l.openFlow.Owes { h with flows := h.flows + 1 } :=
  { hl with flows := congrArg (· + 1) hl.flows }

theorem closeFlow (hl : l.Owes { h with flows := h.flows + 1 }) : l.closeFlow.Owes h :=
  { hl with flows := hl.flows.trans (by simp only [Ledger.closeFlow]; omega) }

theorem registerFlow (hl : l.Owes { h with permits := h.permits + 1 }) :
    l.registerFlow.Owes { h with registrations := h.registrations + 1 } :=
  { hl with
    permits := hl.permits.trans (by simp only [Ledger.registerFlow]; omega)
    registrations := congrArg (· + 1) hl.registrations }

theorem unregisterFlow (hl : l.Owes { h with
      references := h.references + 1, registrations := h.registrations + 1 }) :
    l.unregisterFlow.Owes h :=
  { hl with
    references := hl.references.trans (by simp only [Ledger.unregisterFlow]; omega)
    registrations := hl.registrations.trans (by simp only [Ledger.unregisterFlow]; omega) }

end Ledger.Owes

def DNSPc.held : DNSPc → Held
  | .read => {}
  | .permit => {}
  | .acquire => { permits := 1 }
  | .dialFailed => { permits := 1 }
  | .openFlow _ => { permits := 1, references := 1 }
  | .openFailed _ => { permits := 1, references := 1 }
  | .giveBack _ => { references := 1 }
  | .register => { permits := 1, references := 1, flows := 1 }
  | .exchange => { references := 1, flows := 1, registrations := 1 }
  | .closeFlow _ => { references := 1, flows := 1, registrations := 1 }
  | .unregister _ => { references := 1, registrations := 1 }

def RunPc.queryHeld : RunPc → Held
  | .dns pc => pc.held
  | _ => {}

/-- The keys that `runState` and its queries have got are not empty. -/
def DNSPc.Keyed : DNSPc → Prop
  | .openFlow key => key ≠ ""
  | .openFailed key => key ≠ ""
  | .giveBack key => key ≠ ""
  | _ => True

def RunPc.Keyed : RunPc → Prop
  | .setKey key => key ≠ ""
  | .openFlow key => key ≠ ""
  | .openFailed key => key ≠ ""
  | .giveBack key => key ≠ ""
  | .dns pc => pc.Keyed
  | _ => True

/-- The ledger of `runState` and the fields that it has set. -/
structure Progress where
  main : Ledger := {}
  hasKey : Bool := false
  hasFlow : Bool := false

/-- How far `runState` is, as long as it acquires. -/
def RunPc.progress : RunPc → Option Progress
  | .start => some {}
  | .permit => some {}
  | .acquire => some { main := { taken := 1 } }
  | .dialFailed => some { main := { taken := 1 } }
  | .setKey _ => some { main := { taken := 1, acquired := 1 } }
  | .openFlow _ => some { main := { taken := 1, acquired := 1 }, hasKey := true }
  | .openFailed _ => some { main := { taken := 1, acquired := 1 }, hasKey := true }
  | .giveBack _ => some { main := { taken := 1, consumed := 1, acquired := 1 }, hasKey := true }
  | .clearKey =>
    some { main := { taken := 1, consumed := 1, acquired := 1, released := 1 }, hasKey := true }
  | .setFlow => some { main := { taken := 1, acquired := 1, opened := 1 }, hasKey := true }
  | .register =>
    some { main := { taken := 1, acquired := 1, opened := 1 }, hasKey := true, hasFlow := true }
  | .setRef =>
    some {
      main := { taken := 1, consumed := 1, acquired := 1, opened := 1, registered := 1 }
      hasKey := true
      hasFlow := true }
  | _ => none

theorem RunPc.queryHeld_of_progress {pc : RunPc} {p : Progress} (h : pc.progress = some p) :
    pc.queryHeld = {} := by
  cases pc with
  | dns pc => cases h
  | _ => rfl

/-- `runState` has stopped acquiring for itself. -/
def RunPc.settled (pc : RunPc) : Bool := pc.progress.isNone

/-- What a registered flow's ledger is, by how far the state has been closed. -/
def keptLedger : Once Closer CloseStage → Option Ledger
  | .idle => some (kept 0 0)
  | .running _ .cancel => some (kept 0 0)
  | .running _ .closeLocal => some (kept 0 0)
  | .running _ .closeFlow => some (kept 0 0)
  | .running _ .release => some (kept 1 0)
  | .running _ .releaseClient => none
  | .running _ .clear => some (kept 1 1)
  | .running _ .delete => some (kept 1 1)
  | .done => some (kept 1 1)
where
  kept (closed unregistered : ℕ) : Ledger :=
    { taken := 1, consumed := 1, acquired := 1, released := unregistered, opened := 1,
      closed, registered := 1, unregistered }

/-- The context is cancelled, the local connection closed, and the state still in the manager's
table. -/
def closingEffects : Once Closer CloseStage → Bool × Bool × Bool
  | .idle => (false, false, true)
  | .running _ .cancel => (false, false, true)
  | .running _ .closeLocal => (true, false, true)
  | .running _ _ => (true, true, true)
  | .done => (true, true, false)

/-! ### Closing a UDP flow of the TUN client -/

open Option

namespace UDPFlowState

variable {s t : UDPFlowState} {next : Option CloseStage} {stage : CloseStage} {g : Closer}

/-- The three kinds of states: `runState` still acquires and nobody closes; it has given
everything back; it has registered a flow. -/
inductive Accounted (s : UDPFlowState) : Prop
  | acquiring (hidle : s.closeOnce = .idle)
      (hprogress : s.run.progress = some ⟨s.main, s.clientKey ≠ "", s.udpFlow⟩)
      (href : s.flowRef = false)
  | givenBack (hsettled : s.run.settled = true) (hbalanced : s.main.Balanced)
      (hsingle : s.main.Single) (hkey : s.clientKey = "") (hflow : s.udpFlow = false)
      (href : s.flowRef = false)
  | kept (hsettled : s.run.settled = true) (hflow : s.udpFlow = true) (href : s.flowRef = true)
      (hmain : keptLedger s.closeOnce = some s.main)

structure Sound (s : UDPFlowState) : Prop where
  accounted : s.Accounted
  keyed : s.run.Keyed
  query : s.query.Owes s.run.queryHeld
  closing : closingEffects s.closeOnce = (s.cancelled, s.localClosed, s.inFlows)
  returned : s.run = .returned → s.closeOnce = .done

/-- Nobody outside starts to close the state while `runState` still acquires. -/
def Undisturbed (s : UDPFlowState) : UDPAction → Prop
  | .outside k => s.outside k = true → s.closeOnce = .idle → s.run.settled = true
  | _ => True

instance (s : UDPFlowState) : (a : UDPAction) → Decidable (s.Undisturbed a)
  | .run _ => inferInstanceAs (Decidable True)
  | .acquired _ => inferInstanceAs (Decidable True)
  | .outside k =>
    inferInstanceAs (Decidable (s.outside k = true → s.closeOnce = .idle → s.run.settled = true))

theorem new_sound (dstPort : ℕ) : (new dstPort).Sound where
  accounted := .acquiring rfl rfl rfl
  keyed := trivial
  query := ⟨rfl, rfl, rfl, rfl⟩
  closing := rfl
  returned h := by cases h

/-- What `closeState` does not look at or change. -/
structure SameRun (s t : UDPFlowState) : Prop where
  run : t.run = s.run
  query : t.query = s.query

theorem closeBody_sameRun (h : s.closeBody stage = some (t, next)) : s.SameRun t := by
  cases stage with
  | release =>
    rw [closeBody] at h
    split_ifs at h <;> cases h <;> exact ⟨rfl, rfl⟩
  | _ => cases h; exact ⟨rfl, rfl⟩

/-- The body's actions on a state whose `runState` has given everything back. -/
theorem closeBody_nothing (hkey : s.clientKey = "") (hflow : s.udpFlow = false)
    (href : s.flowRef = false) (h : s.closeBody stage = some (t, next)) :
    t.main = s.main ∧ t.clientKey = "" ∧ t.udpFlow = false ∧ t.flowRef = false := by
  cases stage with
  | release =>
    rw [closeBody, if_neg (by simp [href]), if_neg (by simp [hkey])] at h
    cases h
    exact ⟨rfl, hkey, hflow, href⟩
  | closeFlow =>
    cases h
    exact ⟨by simp [hflow], hkey, hflow, href⟩
  | releaseClient =>
    cases h
    exact ⟨by simp [hkey, Ledger.releaseClient], hkey, hflow, href⟩
  | clear => cases h; exact ⟨rfl, rfl, hflow, href⟩
  | _ => cases h; exact ⟨rfl, hkey, hflow, href⟩

theorem closeBody_kept (hflow : s.udpFlow = true) (href : s.flowRef = true)
    (hmain : keptLedger (.running g stage) = some s.main) (h : s.closeBody stage = some (t, next)) :
    t.udpFlow = true ∧ t.flowRef = true ∧
      keptLedger (next.elim .done (.running g)) = some t.main := by
  cases stage with
  | release =>
    rw [closeBody, if_pos href] at h
    cases h
    refine ⟨hflow, href, ?_⟩
    rw [← some.inj hmain]
    rfl
  | closeFlow =>
    cases h
    refine ⟨hflow, href, ?_⟩
    simp only [hflow, cond_true, ← some.inj hmain]
    rfl
  | releaseClient => cases hmain
  | _ => cases h; exact ⟨hflow, href, hmain⟩

theorem closeBody_effects
    (hs : closingEffects (.running g stage) = (s.cancelled, s.localClosed, s.inFlows))
    (h : s.closeBody stage = some (t, next)) :
    closingEffects (next.elim .done (.running g)) =
      (t.cancelled, t.localClosed, t.inFlows) := by
  cases stage with
  | release =>
    rw [closeBody] at h
    split_ifs at h <;> cases h <;> exact hs
  | _ =>
    cases h
    simp only [closingEffects, Prod.mk.injEq] at hs
    simp [closingEffects, ← hs.1, ← hs.2.1, ← hs.2.2]

theorem Sound.closeBody_sound (hs : s.Sound) (honce : s.closeOnce = .running g stage)
    (h : s.closeBody stage = some (t, next)) :
    Sound { t with closeOnce := next.elim .done (.running g) } := by
  have hrun := (closeBody_sameRun h).run
  refine ⟨?_, hrun ▸ hs.keyed, ?_, (closeBody_effects (honce ▸ hs.closing) h :), ?_⟩
  · rcases hs.accounted with ⟨hidle, -, -⟩ | ⟨hsettled, hbalanced, hsingle, hkey, hflow, href⟩ |
      ⟨hsettled, hflow, href, hmain⟩
    · cases hidle.symm.trans honce
    · obtain ⟨hmain, hkey, hflow, href⟩ := closeBody_nothing hkey hflow href h
      exact .givenBack (hrun ▸ hsettled) (hmain ▸ hbalanced) (hmain ▸ hsingle) hkey hflow href
    · obtain ⟨hflow, href, hmain⟩ := closeBody_kept hflow href (honce ▸ hmain) h
      exact .kept (hrun ▸ hsettled) hflow href hmain
  · change t.query.Owes t.run.queryHeld
    rw [hrun, (closeBody_sameRun h).query]
    exact hs.query
  · intro hreturned
    cases (hs.returned (hrun ▸ hreturned)).symm.trans honce

theorem Sound.start_sound (hs : s.Sound) (hidle : s.closeOnce = .idle)
    (hsettled : s.run.settled = true) (g : Closer) :
    Sound { s with closeOnce := .running g .cancel } := by
  refine ⟨?_, hs.keyed, hs.query, (hidle ▸ hs.closing :), ?_⟩
  · rcases hs.accounted with ⟨-, hprogress, -⟩ | ⟨-, hbalanced, hsingle, hkey, hflow, href⟩ |
      ⟨-, hflow, href, hmain⟩
    · rw [RunPc.settled, hprogress] at hsettled
      cases hsettled
    · exact .givenBack hsettled hbalanced hsingle hkey hflow href
    · exact .kept hsettled hflow href (hidle ▸ hmain :)
  · intro hreturned
    cases (hs.returned hreturned).symm.trans hidle

/-- Whoever closes a state that `runState` has stopped acquiring for keeps it sound. -/
theorem Sound.closeState_sound (hs : s.Sound)
    (hsettled : s.closeOnce = .idle → s.run.settled = true) {returns : Bool}
    (h : s.closeState g = some (t, returns)) :
    t.Sound ∧ s.SameRun t ∧ (returns = true → t.closeOnce = .done) := by
  obtain ⟨r, hact, hr⟩ := map_eq_some_iff.mp h
  cases hr
  refine ⟨?_, ?_, Once.act_returned hact⟩
  · rcases Once.act_cases hact with ⟨hidle, rfl⟩ | ⟨stage, s', next, honce, hbody, rfl⟩ |
      ⟨hdone, rfl⟩
    · exact hs.start_sound hidle (hsettled hidle) g
    · exact hs.closeBody_sound honce hbody
    · simpa only [← hdone] using hs
  · rcases Once.act_cases hact with ⟨-, rfl⟩ | ⟨stage, s', next, -, hbody, rfl⟩ | ⟨-, rfl⟩
    · exact ⟨rfl, rfl⟩
    · obtain ⟨hrun, hquery⟩ := closeBody_sameRun hbody
      exact ⟨hrun, hquery⟩
    · exact ⟨rfl, rfl⟩

end UDPFlowState
end VlfProto.TunClient
