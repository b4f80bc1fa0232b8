import VlfProto.Client.PushData
import VlfProto.Client.UDPFlowClose

/-! # Pushes to closed channels -/

namespace VlfProto.Client
open Platform Session Transition Option

namespace QUICClient

variable {c c' : QUICClient} {i k : ℕ} {label : QUICStep} {r : QUICClient × Bool}

/-- No payload is pushed to a closed channel. -/
def PushesOpen (c : QUICClient) : Prop :=
  ∀ k payload, c.loop = .push k payload → (c.flows k).incomingClosed = false

/-- The channel of a flow is closed while `datagramLoop` does not hold the flow. -/
def ClosesUnheld (c : QUICClient) : QUICStep → Prop
  | .user i _ => ∀ k ∈ c.loop.held, (c.flows k).once ≠ .running i .closeIncoming
  | _ => True

instance (c : QUICClient) (label : QUICStep) : Decidable (c.ClosesUnheld label) := by
  unfold ClosesUnheld
  split <;> infer_instance

/-- Flows are in the table under their own id and leave it before their channel is
closed, and the flow that `datagramLoop` holds is open. -/
structure Orderly (c : QUICClient) : Prop where
  entered : ∀ flowID k, c.udpFlows.lookup flowID = some k →
    k < c.created ∧ (c.flows k).id = flowID ∧ leftTable (c.flows k).once = false
  closed : ∀ k, (c.flows k).incomingClosed → leftTable (c.flows k).once
  held : ∀ k ∈ c.loop.held, k < c.created ∧ (c.flows k).incomingClosed = false

theorem initial_orderly : initial.Orderly where
  entered flowID k h := by simp [initial] at h
  closed k h := by cases h
  held k h := by cases h

theorem Orderly.pushesOpen (h : c.Orderly) : c.PushesOpen := by
  intro k payload hloop
  exact (h.held k (by rw [hloop]; rfl)).2

theorem Orderly.of_same (h : c.Orderly) (htable : c'.udpFlows = c.udpFlows)
    (hflows : c'.flows = c.flows) (hcreated : c'.created = c.created)
    (hheld : ∀ k ∈ c'.loop.held, k ∈ c.loop.held) : c'.Orderly where
  entered flowID k := by
    rw [htable, hflows, hcreated]
    exact h.entered flowID k
  closed k := by
    rw [hflows]
    exact h.closed k
  held k hk := by
    rw [hflows, hcreated]
    exact h.held k (hheld k hk)

/-- A step of the body of `Close` that has taken the flow out of the table. -/
theorem Orderly.setOnce (h : c.Orderly) {once : Once ℕ UDPCloseStage}
    (hout : ∀ flowID, c.udpFlows.lookup flowID = some k → leftTable once = false)
    (hclosed : (c.flows k).incomingClosed → leftTable once) :
    (c.setFlow k { c.flows k with once }).Orderly where
  entered flowID k' hlookup := by
    have hk' := h.entered flowID k' hlookup
    rw [setFlow_flows]
    split_ifs with hk
    · subst hk
      exact ⟨hk'.1, hk'.2.1, hout flowID hlookup⟩
    · exact hk'
  closed k' := by
    rw [setFlow_flows]
    split_ifs with hk
    · exact hclosed
    · exact h.closed k'
  held k' hk' := by
    rw [setFlow_flows]
    split_ifs with hk
    · exact hk ▸ h.held k' hk'
    · exact h.held k' hk'

theorem closeFlowStep_orderly (h : c.Orderly)
    (hguard : ∀ k ∈ c.loop.held, (c.flows k).once ≠ .running i .closeIncoming)
    (hstep : c.closeFlowStep i k = some r) : r.1.Orderly := by
  cases closeFlowStep_cases hstep with
  | once hleft =>
    exact h.setOnce (fun flowID hk => hleft ▸ (h.entered flowID k hk).2.2)
      fun hclosed => hleft ▸ h.closed k hclosed
  | delete =>
    have h' : Orderly { c with udpFlows := c.udpFlows.erase (c.flows k).id } := by
      refine ⟨fun flowID k' hlookup => ?_, h.closed, h.held⟩
      rw [Table.lookup_erase_eq] at hlookup
      split_ifs at hlookup
      exact h.entered flowID k' hlookup
    refine h'.setOnce (fun flowID hlookup => ?_) fun _ => rfl
    rw [Table.lookup_erase_eq] at hlookup
    split_ifs at hlookup with hid
    exact absurd (h.entered flowID k hlookup).2.1.symm hid
  | closeIncoming hrun =>
    refine ⟨fun flowID k' hlookup => ?_, fun k' => ?_, fun k' hk' => ?_⟩
    · have hk' := h.entered flowID k' hlookup
      have hk : k' ≠ k := by
        rintro rfl
        rw [hrun] at hk'
        cases hk'.2.2
      rwa [setFlow_flows, if_neg hk]
    · rw [setFlow_flows]
      split_ifs
      · exact fun _ => rfl
      · exact h.closed k'
    · have hk : k' ≠ k := by
        rintro rfl
        exact hguard k' hk' hrun
      rw [setFlow_flows, if_neg hk]
      exact h.held k' hk'

theorem closeStep_orderly {next : Option UInt64} (h : c.Orderly)
    (hguard : ∀ k ∈ c.loop.held, (c.flows k).once ≠ .running i .closeIncoming)
    (hstep : c.closeStep i next = some r) : r.1.Orderly := by
  obtain ⟨s, hact, rfl⟩ := map_eq_some_iff.mp hstep
  rcases Once.act_cases hact with ⟨-, rfl⟩ | ⟨stage, c', after, -, hbody, rfl⟩ | ⟨-, rfl⟩
  · exact h.of_same rfl rfl rfl fun _ => id
  · refine Orderly.of_same (c := c') ?_ rfl rfl rfl fun _ => id
    cases closeBody_cases hbody with
    | visit => exact h
    | closeFlow hclose => exact closeFlowStep_orderly h hguard hclose
    | swap => exact ⟨fun flowID k hlookup => by simp at hlookup, h.closed, h.held⟩
    | other => exact h.of_same rfl rfl rfl fun _ => id
  · exact h.of_same rfl rfl rfl fun _ => id

theorem Orderly.setUser (h : c.Orderly) (pc : UserPc) : (c.setUser i pc).Orderly :=
  h.of_same rfl rfl rfl fun _ => id

theorem Orderly.insertFlow (h : c.Orderly) (flowID : UInt64) : (c.insertFlow flowID).Orderly := by
  have hold {k : ℕ} (hk : k < c.created) : (c.insertFlow flowID).flows k = c.flows k := by
    simp [QUICClient.insertFlow, QUICClient.setFlow, hk.ne]
  have hnew : (c.insertFlow flowID).flows c.created = .new flowID := by
    simp [QUICClient.insertFlow, QUICClient.setFlow]
  constructor
  · intro flowID' k hlookup
    simp only [QUICClient.insertFlow, Table.lookup_insert_eq] at hlookup
    split_ifs at hlookup with heq
    · cases hlookup
      rw [hnew, heq]
      exact ⟨Nat.lt_succ_self _, rfl, rfl⟩
    · have hk := h.entered flowID' k hlookup
      rw [hold hk.1]
      exact ⟨Nat.lt_succ_of_lt hk.1, hk.2⟩
  · intro k hclosed
    by_cases hk : k = c.created
    · rw [hk, hnew] at hclosed
      cases hclosed
    · have hsame : (c.insertFlow flowID).flows k = c.flows k := by
        simp [QUICClient.insertFlow, QUICClient.setFlow, hk]
      rw [hsame] at hclosed ⊢
      exact h.closed k hclosed
  · intro k hk
    have hheld := h.held k hk
    rw [hold hheld.1]
    exact ⟨Nat.lt_succ_of_lt hheld.1, hheld.2⟩

theorem Beside.orderly (hbeside : c.Beside c') (h : c.Orderly) : c'.Orderly where
  entered flowID k hlookup := by
    rw [hbeside.table] at hlookup
    rw [hbeside.created, (hbeside.flow k).1, (hbeside.flow k).2.1]
    exact h.entered flowID k hlookup
  closed k hclosed := by
    rw [(hbeside.flow k).2.2] at hclosed
    rw [(hbeside.flow k).2.1]
    exact h.closed k hclosed
  held k hk := by
    rw [hbeside.created, (hbeside.flow k).2.2]
    rcases hbeside.held k hk with hheld | ⟨flowID, hlookup⟩
    · exact h.held k hheld
    · obtain ⟨hlt, -, hin⟩ := h.entered flowID k hlookup
      exact ⟨hlt, eq_false_of_ne_true fun hclosed => by simp [h.closed k hclosed] at hin⟩

theorem step_orderly (hguard : c.ClosesUnheld label) (h : c.Orderly)
    (hstep : c.step label = some c') : c'.Orderly := by
  cases step_cases hstep with
  | call => exact h.setUser _
  | insert => exact (h.insertFlow _).setUser _
  | closeFlow _ hr =>
    have ht := closeFlowStep_orderly h hguard hr
    split_ifs
    · exact ht.setUser _
    · exact ht
  | close _ hr =>
    have ht := closeStep_orderly h hguard hr
    split_ifs
    · exact ht.setUser _
    · exact ht
  | beside hbeside => exact hbeside.orderly h

end QUICClient

/-- When no channel is closed while the receive loop of its client holds its flow,
neither client ever pushes to a closed channel. -/
theorem pushesOpen_of_closesUnheld (labels : List ClientStep) (labels' : List QUICStep)
    (s : ClientState) (c : QUICClient) :
    (Path ClientState.step ClientState.ClosesUnheld .initial labels s → s.PushesOpen) ∧
    (Path QUICClient.step QUICClient.ClosesUnheld .initial labels' c → c.PushesOpen) := by
  refine ⟨fun hpath => ClientState.path_pushesOpen hpath, fun hpath => ?_⟩
  have hkeep : ∀ (c : QUICClient) label c', c.Orderly → c.ClosesUnheld label →
      c.step label = some c' → c'.Orderly :=
    fun _ _ _ h hguard hstep => QUICClient.step_orderly hguard h hstep
  exact (hpath.invariant hkeep QUICClient.initial_orderly).pushesOpen

/-- Flow 1 is opened and its first frame read and looked up; `readLoop` takes `n` more
steps before the flow is closed. -/
def framePushRun (n : ℕ) : List ClientStep :=
  [.register 1, .writeOpen 1 true, .gateway (.openOK 1), .loop, .loop, .loop, .loop, .receive 1,
    .insert 1, .gateway (.data 1 [7]), .loop, .loop] ++ List.replicate n .loop ++
    [.closeFlow 1, .closeFlow 1, .closeFlow 1]

/-- Flow 1 is opened, a datagram for it received and looked up and added; `datagramLoop`
takes `n` more steps before the flow is closed. -/
def datagramPushRun (n : ℕ) : List QUICStep :=
  [.openUDPFlow 0 1, .user 0 none, .receive (encodeDatagramPacket ⟨1, 0, 5, [7]⟩), .loop 0,
    .loop 0] ++ List.replicate n (.loop 0) ++
    [.closeFlow 1 0, .user 1 none, .user 1 none, .user 1 none]

theorem pushRuns_pushesOpen :
    (∃ s, Path ClientState.step ClientState.ClosesUnheld .initial (framePushRun 1) s ∧
      (s.objects 1).dataClosed ∧ s.PushesOpen) ∧
    ∃ c, Path QUICClient.step QUICClient.ClosesUnheld .initial (datagramPushRun 1) c ∧
      (c.flows 0).incomingClosed ∧ c.PushesOpen := by
  obtain ⟨s, hs, hdata⟩ :
      ∃ s, Path ClientState.step ClientState.ClosesUnheld .initial (framePushRun 1) s ∧
        (s.objects 1).dataClosed := Path.exists_of_run (by decide +kernel)
  obtain ⟨c, hc, hincoming⟩ :
      ∃ c, Path QUICClient.step QUICClient.ClosesUnheld .initial (datagramPushRun 1) c ∧
        (c.flows 0).incomingClosed := Path.exists_of_run (by decide +kernel)
  obtain ⟨hframes, hdatagrams⟩ :=
    pushesOpen_of_closesUnheld (framePushRun 1) (datagramPushRun 1) s c
  exact ⟨⟨s, hs, hdata, hframes hs⟩, c, hc, hincoming, hdatagrams hc⟩

/-- Both clients push to a channel that was closed after the lookup, and panic. -/
theorem pushRuns_panic :
    (∃ s s', Path ClientState.step anyLabel .initial (framePushRun 0) s ∧ ¬s.PushesOpen ∧
      s.step .loop = some s' ∧ s'.panicked) ∧
    ∃ c c', Path QUICClient.step anyLabel .initial (datagramPushRun 0) c ∧ ¬c.PushesOpen ∧
      c.step (.loop 0) = some c' ∧ c'.panicked := by
  constructor
  · obtain ⟨s, hs, hloop, hdata, hnext⟩ :
        ∃ s, Path ClientState.step anyLabel .initial (framePushRun 0) s ∧
          s.loop = .push 1 (.data 1 [7]) ∧ (s.objects 1).dataClosed ∧
          (s.step .loop).any ClientState.panicked := Path.exists_of_run (by decide +kernel)
    obtain ⟨s', hstep, hpanic⟩ := (any_eq_true _ _).mp hnext
    refine ⟨s, s', hs, fun hopen => ?_, hstep, hpanic⟩
    simp [hopen 1 ⟨1, [7], hloop⟩] at hdata
  · obtain ⟨c, hc, hloop, hincoming, hnext⟩ :
        ∃ c, Path QUICClient.step anyLabel .initial (datagramPushRun 0) c ∧
          c.loop = .push 0 [7] ∧ (c.flows 0).incomingClosed ∧
          (c.step (.loop 0)).any QUICClient.panicked := Path.exists_of_run (by decide +kernel)
    obtain ⟨c', hstep, hpanic⟩ := (any_eq_true _ _).mp hnext
    refine ⟨c, c', hc, fun hopen => ?_, hstep, hpanic⟩
    simp [hopen 0 [7] hloop] at hincoming

end VlfProto.Client
