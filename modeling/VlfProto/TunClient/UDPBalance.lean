import VlfProto.TunClient.UDPClosing

/-! # A finished UDP flow of the TUN client holds nothing -/

namespace VlfProto.TunClient
open Platform Transition Option

namespace UDPFlowState

variable {s t : UDPFlowState} {p : Progress} {pc : RunPc} {ok : Bool}

theorem Sound.acquiring (hs : s.Sound) (hp : s.run.progress = some p) :
    s.closeOnce = .idle ∧ s.flowRef = false ∧ s.main = p.main ∧
      (s.clientKey ≠ "" ↔ p.hasKey = true) ∧ s.udpFlow = p.hasFlow := by
  rcases hs.accounted with ⟨hidle, hprogress, href⟩ | ⟨hsettled, -⟩ | ⟨hsettled, -⟩
  · cases hp.symm.trans hprogress
    exact ⟨hidle, href, rfl, by simp, rfl⟩
  all_goals
    rw [RunPc.settled, hp] at hsettled
    cases hsettled

theorem Sound.advance (hs : s.Sound) {p p' : Progress} (hp : s.run.progress = some p)
    (pc : RunPc) (hpc : pc.progress = some p') (hkeyed : pc.Keyed) {key : String}
    (hkey : key ≠ "" ↔ p'.hasKey = true) :
    Sound { s with run := pc, clientKey := key, udpFlow := p'.hasFlow, main := p'.main } where
  accounted := by
    obtain ⟨hidle, href, -⟩ := hs.acquiring hp
    refine .acquiring hidle (hpc.trans ?_) href
    simp [hkey]
  keyed := hkeyed
  query := by
    change s.query.Owes pc.queryHeld
    rw [RunPc.queryHeld_of_progress hpc, ← RunPc.queryHeld_of_progress hp]
    exact hs.query
  closing := hs.closing
  returned h := by
    cases (show pc = .returned from h)
    cases hpc

theorem Sound.stop (hs : s.Sound) (hp : s.run.progress = some p)
    (hpc : pc = .dns .read ∨ pc = .close) (hflow : p.hasFlow = false) (k r : Bool) :
    Sound { s with run := pc, clientKey := "", main := .givenBack k r } := by
  obtain ⟨-, href, -, -, hflow'⟩ := hs.acquiring hp
  have hbalanced := Ledger.givenBack_balanced k r
  have hsingle := Ledger.givenBack_single k r
  have hquery : s.query.Owes {} := RunPc.queryHeld_of_progress hp ▸ hs.query
  refine ⟨.givenBack ?_ hbalanced hsingle rfl (hflow'.trans hflow) href, ?_, ?_, hs.closing, ?_⟩
  all_goals rcases hpc with rfl | rfl
  all_goals first | rfl | trivial | exact hquery | exact fun h => RunPc.noConfusion h

theorem fallback_cases (s : UDPFlowState) : s.fallback = .dns .read ∨ s.fallback = .close := by
  rw [fallback]
  split_ifs
  · exact .inl rfl
  · exact .inr rfl

theorem Accounted.settled (hs : s.Accounted) (hbefore : s.run.settled = true)
    (hafter : pc.settled = true) (l : Ledger) : Accounted { s with run := pc, query := l } := by
  rcases hs with ⟨-, hprogress, -⟩ | ⟨-, hbalanced, hsingle, hkey, hflow, href⟩ |
    ⟨-, hflow, href, hmain⟩
  · rw [RunPc.settled, hprogress] at hbefore
    cases hbefore
  · exact .givenBack hafter hbalanced hsingle hkey hflow href
  · exact .kept hafter hflow href hmain

theorem Sound.queryMove (hs : s.Sound) (hbefore : s.run.settled = true) {l : Ledger}
    (hafter : pc.settled = true) (hkeyed : pc.Keyed) (howes : l.Owes pc.queryHeld)
    (hpc : pc ≠ .returned) : Sound { s with run := pc, query := l } where
  accounted := hs.accounted.settled hbefore hafter l
  keyed := hkeyed
  query := howes
  closing := hs.closing
  returned h := absurd h hpc

theorem Sound.dnsStep_sound (hs : s.Sound) {pc : DNSPc} (hrun : s.run = .dns pc)
    (h : s.dnsStep ok pc = some t) : t.Sound := by
  have hsettled : s.run.settled = true := by rw [hrun]; rfl
  have hquery : s.query.Owes (RunPc.dns pc).queryHeld := hrun ▸ hs.query
  have hkeyed : (RunPc.dns pc).Keyed := hrun ▸ hs.keyed
  cases pc with
  | read =>
    cases h
    cases ok with
    | true | false => exact hs.queryMove hsettled rfl trivial hquery (by simp)
  | permit =>
    cases ok with
    | true =>
      cases h
      exact hs.queryMove hsettled rfl trivial hquery.acquireFlowPermit (by simp)
    | false =>
      cases h
      exact hs.queryMove hsettled rfl trivial hquery (by simp)
  | acquire =>
    cases ok with
    | true => cases h
    | false =>
      cases h
      exact hs.queryMove hsettled rfl trivial hquery (by simp)
  | dialFailed =>
    cases h
    exact hs.queryMove hsettled rfl trivial (.releaseFlowPermit hquery) (by simp)
  | openFlow key =>
    cases ok with
    | true =>
      cases h
      exact hs.queryMove hsettled rfl trivial hquery.openFlow (by simp)
    | false =>
      cases h
      exact hs.queryMove hsettled rfl hkeyed hquery (by simp)
  | openFailed key =>
    cases h
    exact hs.queryMove hsettled rfl hkeyed (.releaseFlowPermit hquery) (by simp)
  | giveBack key =>
    cases h
    exact hs.queryMove hsettled rfl trivial (.releaseClient hquery hkeyed) (by simp)
  | register =>
    cases h
    exact hs.queryMove hsettled rfl trivial
      (.registerFlow (h := { references := 1, flows := 1 }) hquery) (by simp)
  | exchange =>
    cases h
    exact hs.queryMove hsettled rfl trivial hquery (by simp)
  | closeFlow answered =>
    cases h
    exact hs.queryMove hsettled rfl trivial (.closeFlow hquery) (by simp)
  | unregister answered =>
    cases h
    cases answered with
    | true | false => exact hs.queryMove hsettled rfl trivial (.unregisterFlow hquery) (by simp)

theorem Sound.acquireStep_sound (hs : s.Sound) (hp : s.run.progress = some p)
    (h : s.runStep ok = some t) : t.Sound := by
  obtain ⟨hidle, href, hmain, hkey, hflow⟩ := hs.acquiring hp
  have hkeyed := hs.keyed
  obtain ⟨_, key, _, _, _, _, _, _, run, _, _, _⟩ := s
  dsimp only at hidle href hmain hkey hflow hp hkeyed
  subst hidle href hmain hflow
  cases run with
  | start =>
    cases hp
    cases h
    obtain rfl : key = "" := by simpa using hkey
    cases ok with
    | true => exact hs.advance rfl .permit rfl trivial hkey
    | false => exact hs.stop rfl (fallback_cases _) rfl false false
  | permit =>
    cases hp
    obtain rfl : key = "" := by simpa using hkey
    cases ok with
    | true =>
      cases h
      exact hs.advance rfl .acquire rfl trivial hkey
    | false =>
      cases h
      exact hs.stop rfl (.inr rfl) rfl false false
  | acquire =>
    cases hp
    cases ok with
    | true => cases h
    | false =>
      cases h
      exact hs.advance rfl .dialFailed rfl trivial hkey
  | dialFailed =>
    cases hp
    cases h
    obtain rfl : key = "" := by simpa using hkey
    exact hs.stop rfl (fallback_cases _) rfl true false
  | setKey key =>
    cases hp
    cases h
    exact hs.advance rfl (.openFlow key) rfl hkeyed (iff_of_true hkeyed rfl)
  | openFlow key =>
    cases hp
    cases ok with
    | true =>
      cases h
      exact hs.advance rfl .setFlow rfl trivial hkey
    | false =>
      cases h
      exact hs.advance rfl (.openFailed key) rfl hkeyed hkey
  | openFailed key =>
    cases hp
    cases h
    exact hs.advance rfl (.giveBack key) rfl hkeyed hkey
  | giveBack key =>
    cases hp
    cases h
    rw [Ledger.releaseClient, if_neg hkeyed]
    exact hs.advance rfl .clearKey rfl trivial hkey
  | clearKey =>
    cases hp
    cases h
    exact hs.stop rfl (fallback_cases _) rfl true true
  | setFlow =>
    cases hp
    cases h
    exact hs.advance rfl .register rfl trivial hkey
  | register =>
    cases hp
    cases h
    exact hs.advance rfl .setRef rfl trivial hkey
  | setRef =>
    cases hp
    cases h
    exact ⟨.kept rfl rfl rfl rfl, trivial, hs.query, hs.closing, RunPc.noConfusion⟩
  | _ => cases hp

theorem Sound.runStep_sound (hs : s.Sound) (h : s.runStep ok = some t) : t.Sound := by
  cases hp : s.run.progress with
  | some p => exact hs.acquireStep_sound hp h
  | none =>
    have hsettled : s.run.settled = true := by rw [RunPc.settled, hp]; rfl
    cases hrun : s.run <;> simp only [runStep, hrun] at h
    case pump =>
      cases h
      have hquery : s.query.Owes {} := (hrun ▸ hs.query :)
      exact hs.queryMove hsettled rfl trivial hquery (by simp)
    case dns pc => exact hs.dnsStep_sound hrun h
    case close =>
      obtain ⟨⟨u, returns⟩, hclose, rfl⟩ := map_eq_some_iff.mp h
      obtain ⟨hu, ⟨hurun, -⟩, hdone⟩ := hs.closeState_sound (fun _ => hsettled) hclose
      have husettled : u.run.settled = true := hurun ▸ hsettled
      have hquery : u.query.Owes {} := (hurun.trans hrun ▸ hu.query :)
      cases returns with
      | true =>
        exact ⟨hu.accounted.settled husettled rfl _, trivial, hquery, hu.closing,
          fun _ => hdone rfl⟩
      | false => exact hu.queryMove husettled rfl trivial hquery (by simp)
    case returned => cases h
    all_goals
      rw [hrun] at hp
      cases hp

theorem Sound.acquiredStep_sound (hs : s.Sound) {key : String}
    (h : s.acquiredStep key = some t) : t.Sound := by
  rw [acquiredStep] at h
  split_ifs at h with hkey
  split at h
  · rename_i hrun
    cases h
    have hp : s.run.progress = some { main := { taken := 1 } } := by rw [hrun]; rfl
    obtain ⟨-, -, hmain, hnokey, hflow⟩ := hs.acquiring hp
    simpa only [hmain, hflow, Ledger.acquireClient] using
      hs.advance hp (.setKey key) rfl hkey hnokey
  · rename_i hrun
    cases h
    have hquery : s.query.Owes { permits := 1 } := (hrun ▸ hs.query :)
    exact hs.queryMove (hrun ▸ rfl) rfl hkey hquery.acquireClient (by simp)
  · cases h

/-- Who is in `closeState` or about to call it does not matter for the accounts. -/
theorem Sound.outside_sound (hs : s.Sound) (f : ℕ → Bool) : Sound { s with outside := f } := by
  refine ⟨?_, hs.keyed, hs.query, hs.closing, hs.returned⟩
  rcases hs.accounted with ⟨hidle, hprogress, href⟩ |
    ⟨hsettled, hbalanced, hsingle, hkey, hflow, href⟩ | ⟨hsettled, hflow, href, hmain⟩
  · exact .acquiring hidle hprogress href
  · exact .givenBack hsettled hbalanced hsingle hkey hflow href
  · exact .kept hsettled hflow href hmain

theorem Sound.outsideStep_sound (hs : s.Sound) {k : ℕ} (hok : s.Undisturbed (.outside k))
    (h : s.outsideStep k = some t) : t.Sound := by
  rw [outsideStep] at h
  split_ifs at h with hin hflows
  · obtain ⟨⟨u, returns⟩, hclose, rfl⟩ := map_eq_some_iff.mp h
    obtain ⟨hu, -, -⟩ := hs.closeState_sound (hok hin) hclose
    exact hu.outside_sound _
  · cases h
    exact hs.outside_sound _

theorem Sound.step_sound (hs : s.Sound) {a : UDPAction} (hok : s.Undisturbed a)
    (h : s.step a = some t) : t.Sound := by
  cases a with
  | run ok => exact hs.runStep_sound h
  | acquired key => exact hs.acquiredStep_sound h
  | outside k => exact hs.outsideStep_sound hok h

/-- What a state that is done with holds nothing of. -/
structure HoldsNothing (s : UDPFlowState) : Prop where
  closed : s.closeOnce = .done
  cancelled : s.cancelled = true
  localClosed : s.localClosed = true
  notInFlows : s.inFlows = false
  main : s.main.Balanced
  single : s.main.Single
  query : s.query.Balanced

theorem Sound.holdsNothing (hs : s.Sound) (hreturned : s.run = .returned) : s.HoldsNothing := by
  have hdone := hs.returned hreturned
  have hquery : s.query.Balanced := (hreturned ▸ hs.query :)
  have hclosing := hs.closing
  rw [hdone] at hclosing
  simp only [closingEffects, Prod.mk.injEq] at hclosing
  obtain ⟨hcancelled, hlocal, hflows⟩ := hclosing
  have hmain : s.main.Balanced ∧ s.main.Single := by
    rcases hs.accounted with ⟨hidle, -, -⟩ | ⟨-, hbalanced, hsingle, -⟩ | ⟨-, -, -, hmain⟩
    · cases hidle.symm.trans hdone
    · exact ⟨hbalanced, hsingle⟩
    · rw [hdone] at hmain
      rw [← some.inj hmain]
      decide
  exact ⟨hdone, hcancelled.symm, hlocal.symm, hflows.symm, hmain.1, hmain.2, hquery⟩

/-- Where nobody outside closes a state before its `runState` has stopped acquiring, a
`runState` that has returned has left nothing behind, has given back nothing twice, and so have
its DNS queries. -/
theorem undisturbed_holds_nothing {dstPort : ℕ} {as : List UDPAction}
    (hpath : Path step Undisturbed (new dstPort) as t) (hreturned : t.run = .returned) :
    t.HoldsNothing :=
  (hpath.invariant (fun _ _ _ hs hok h => hs.step_sound hok h) (new_sound dstPort)).holdsNothing
    hreturned

/-- A flow that is opened and registered, found idle by the janitor while its pumps work,
and closed while `runState` learns that a pump has ended. -/
def idleRun : List UDPAction :=
  [.run true, .run true, .acquired "quic", .run true, .run true, .run true, .run true, .run true,
    .outside 0, .outside 0, .run true, .outside 0, .outside 0, .outside 0, .outside 0,
    .outside 0, .outside 0, .run true]

theorem idleRun_holds_nothing : ∃ t, Path step Undisturbed (new 443) idleRun t ∧
    t.main.registered = 1 ∧ t.run = .returned ∧ t.HoldsNothing := by
  refine Path.exists_of_run_imp (P := fun t => t.main.registered = 1 ∧ t.run = .returned)
    (by decide +kernel) fun t hpath ⟨hregistered, hreturned⟩ => ?_
  exact ⟨hregistered, hreturned, undisturbed_holds_nothing hpath hreturned⟩

/-- The manager is closed while `runState` waits for its permit. -/
def closedEarlyRun : List UDPAction :=
  [.run true, .outside 0, .outside 0, .outside 0, .outside 0, .outside 0, .outside 0, .outside 0,
    .outside 0, .run true, .acquired "quic", .run true, .run true, .run true, .run true, .run true,
    .run true, .run true]

/-- The manager is closed while `runState` opens its flow, which fails. -/
def closedTwiceRun : List UDPAction :=
  [.run true, .run true, .acquired "quic", .run true, .outside 0, .outside 0, .outside 0,
    .outside 0, .outside 0, .outside 0, .run false, .run true, .run true, .outside 0, .outside 0,
    .outside 0, .run true, .run true]

/-- Closed too early, a flow leaves its UDP flow open and registered and its client in use;
closed while it fails to open its UDP flow, it releases its client twice. -/
theorem closed_while_acquiring :
    (∃ t, Path step anyLabel (new 443) closedEarlyRun t ∧ t.run = .returned ∧
      t.closeOnce = .done ∧ t.main.opened = 1 ∧ t.main.closed = 0 ∧ t.main.registered = 1 ∧
      t.main.unregistered = 0 ∧ t.main.acquired = 1 ∧ t.main.released = 0) ∧
    (∃ t, Path step anyLabel (new 443) closedTwiceRun t ∧ t.run = .returned ∧
      t.closeOnce = .done ∧ t.main.acquired = 1 ∧ t.main.released = 2) :=
  ⟨Path.exists_of_run (by decide +kernel), Path.exists_of_run (by decide +kernel)⟩

end UDPFlowState
end VlfProto.TunClient
