import VlfProto.Link.FlowSteps
import VlfProto.Session.FlowEnds

/-! # UDP flows that the gateway drops -/

namespace VlfProto.Link
open Platform Transition Client Session Option Finmap

namespace QUICLink

variable {l l' : QUICLink} {label : QUICLinkStep} {id : UInt64} {phase : FlowPhase}

/-- No UDP flow that the client wants leaves the table of the session but by a deletion of the
control loop. -/
def KeepsWanted (l : QUICLink) : QUICLinkStep → Prop
  | .server label => ∀ s, l.server.step label = some s → ∀ id : UInt64,
    FlowPhase.Keeps (Wanted l.calls l.client id) l.server s id.toNat
  | _ => True

theorem arrivals_of_frames {server : QUICSession} {sent : List (SessionFrame × Bool)}
    (h : server.frames = l.server.frames ++ sent) : l.arrivals server = delivered sent := by
  rw [arrivals, h, List.drop_left]

theorem serverStep_agrees {label : QUICSessionStep} (h : AgreesAt phase l id)
    (hok : l.KeepsWanted (.server label)) (hstep : l.serverStep label = some l') :
    l'.Agrees id := by
  obtain ⟨uplink, hconsume, hstep⟩ := bind_eq_some_iff.mp hstep
  obtain ⟨server, hnext, hstep⟩ := bind_eq_some_iff.mp hstep
  cases hstep
  obtain ⟨phase', sent, hframes, hserver, hphase⟩ := FlowPhase.step_advances h.server
    (hok server hnext id) hconsume hnext
  rw [← arrivals_of_frames hframes] at hserver
  rcases hphase with rfl | ⟨hphase, hphase'⟩
  · exact ⟨_, { h.calls with }, h.table, hserver⟩
  · have hcalls : phase'.AtCalls l id := by
      refine h.calls.goOn ?_ ?_ fun i hi => ?_
      · rintro rfl
        simp at hphase
      · rintro rfl
        simp at hphase
      · revert hphase'
        cases phase' <;> simp
    refine ⟨phase', { hcalls with }, h.table.early ?_, hserver⟩
    revert hphase
    cases phase <;> simp

/-- What both sides know along a run. -/
structure Coherent (l : QUICLink) : Prop where
  known : l.client.Known
  agrees : ∀ id, l.Agrees id

theorem step_coherent (h : l.Coherent) (hok : l.KeepsWanted label)
    (hstep : l.step label = some l') : l'.Coherent := by
  refine ⟨step_known h.known hstep, fun id => ?_⟩
  obtain ⟨phase, hagrees⟩ := h.agrees id
  cases label with
  | openFlow i kind flowID dstHost dstPort =>
    obtain ⟨⟨-, -, hunused⟩, hstep⟩ := ite_none_right_eq_some.mp hstep
    exact some.inj hstep ▸ openFlow_agrees hagrees hunused
  | probeRTT i token =>
    obtain ⟨-, hstep⟩ := ite_none_right_eq_some.mp hstep
    exact ⟨phase, some.inj hstep ▸ hagrees.setOther (by simp [ControlCall.flow])⟩
  | control i frame ok => exact controlStep_agrees hagrees hstep
  | client label ok => exact clientStep_agrees h.known hagrees hstep
  | closeTCP flowID ok =>
    obtain ⟨⟨-, hopened⟩, hstep⟩ := ite_none_right_eq_some.mp hstep
    refine ⟨phase, some.inj hstep ▸ hagrees.writeClose fun hid => ?_⟩
    exact hagrees.calls.tcp (hagrees.calls.opened (hid ▸ hopened))
  | server label => exact serverStep_agrees hagrees hok hstep

theorem new_coherent (cfg : SessionConfig) (session : UInt64) (limits : Limits.Manager) :
    (new cfg session limits).Coherent :=
  ⟨QUICClient.initial_known, new_agrees cfg session limits⟩

/-- Every flow in the table of the client is filed at the session, if the session drops no UDP
flow that the client wants, but by a deletion of the control loop. -/
theorem registered_flow_is_filed (cfg : SessionConfig) (session : UInt64) (limits : Limits.Manager)
    (labels : List QUICLinkStep) (l : QUICLink) (id : UInt64) (k : ℕ)
    (hpath : Path step KeepsWanted (new cfg session limits) labels l)
    (hlookup : l.client.udpFlows.lookup id = some k) :
    (l.server.udpFlows.lookup id.toNat).isSome := by
  have hl : l.Coherent :=
    hpath.invariant (fun _ _ _ => step_coherent) (new_coherent cfg session limits)
  obtain ⟨phase, hagrees⟩ := hl.agrees id
  have hin : (l.client.udpFlows.lookup id).isSome := by simp [hlookup]
  obtain rfl := hagrees.table.entered hin
  exact hagrees.server.table (.inr (.inr hin)) (by simp)

/-- No UDP flow leaves the table of the session but by a deletion of the control loop. -/
def KeepsUDP (l : QUICLink) : QUICLinkStep → Prop
  | .server label => (l.server.step label).elim True fun s => ∀ flowID ∈ l.server.udpFlows.keys,
    flowID ∈ s.udpFlows.keys ∨ ∃ notify, l.server.control = .closeFlow (.delete flowID notify)
  | _ => True

instance (l : QUICLink) (label : QUICLinkStep) : Decidable (l.KeepsUDP label) := by
  unfold KeepsUDP
  split
  · cases l.server.step _ <;> simp only [Option.elim] <;> infer_instance
  · infer_instance

theorem KeepsUDP.keepsWanted (hok : l.KeepsUDP label) : l.KeepsWanted label := by
  cases label with
  | server label =>
    intro s hs id _ hin
    simp only [KeepsUDP, hs, elim_some] at hok
    refine (hok id.toNat (mem_keys.mpr (lookup_isSome.mp hin))).imp_left fun hkept => ?_
    exact lookup_isSome.mpr (mem_keys.mp hkept)
  | _ => trivial

def openUDP (flowID : UInt64) : List QUICLinkStep :=
  let request := encodeOpenPayload ⟨flowID.toNat, [104], [], 80⟩
  [.openFlow 0 .udp flowID [104] 80, .control 0 none true,
    .server (.control (some ⟨frameOPENUDP, request⟩) true)] ++
    List.replicate 5 (.server (.control none true)) ++
    [.control 0 (some (.openOK .udp flowID.toNat)) true, .client (.user 0 none) true]

/-- The session cannot read from the target of the first UDP flow and closes the flow. -/
def dropUDP : List QUICLinkStep := List.replicate 5 (.server (.udpReader 0 [] true true 0))

/-- The client opens two flows and closes the first; the session reads the CLOSE_FLOW. -/
def closedRun : List QUICLinkStep :=
  openUDP 1 ++ openUDP 2 ++ [.client (.closeFlow 0 0) true] ++
    List.replicate 4 (.client (.user 0 none) true) ++
    [.server (.control (some (closeFrame 1)) true), .server (.control none true)]

/-- A `probeRTT` of the client reads CLOSE_FLOW before its PONG. -/
def droppedRun : List QUICLinkStep :=
  openUDP 1 ++ dropUDP ++
    [.probeRTT 0 [7], .control 0 none true, .server (.control (some ⟨framePING, [7]⟩) true),
      .server (.control none true), .control 0 (some (.closeFlow 1)) true,
      .control 0 (some (.pong [7])) true]

theorem closedRun_is_filed :
    ∃ l, Path step KeepsWanted (new QUICSession.twoFlows 1 QUICSession.noLimits) closedRun l ∧
      l.server.udpFlows.lookup 1 = none ∧ l.client.udpFlows.lookup 2 = some 1 ∧
      (l.server.udpFlows.lookup 2).isSome := by
  obtain ⟨l, hpath, hdropped, hlookup⟩ : ∃ l, Path step KeepsUDP
      (new QUICSession.twoFlows 1 QUICSession.noLimits) closedRun l ∧
        l.server.udpFlows.lookup 1 = none ∧ l.client.udpFlows.lookup 2 = some 1 :=
    Path.exists_of_run (by decide +kernel)
  have hwanted := hpath.mono fun _ _ => KeepsUDP.keepsWanted
  exact ⟨l, hwanted, hdropped, hlookup, registered_flow_is_filed QUICSession.twoFlows 1
    QUICSession.noLimits closedRun l 2 1 hwanted hlookup⟩

theorem droppedRun_stays_registered :
    ∃ l, Path step anyLabel (new QUICSession.twoFlows 1 QUICSession.noLimits) droppedRun l ∧
      l.downlink = [] ∧ l.client.udpFlows.lookup 1 = some 0 ∧ (l.client.flows 0).errCh = [] ∧
      l.server.udpFlows.lookup 1 = none ∧ l.server.once = .idle :=
  Path.exists_of_run (by decide +kernel)

end QUICLink
end VlfProto.Link
