import VlfProto.Session.QUIC.OwnRun
import VlfProto.Session.TCP.CloseOwn
import VlfProto.Session.TCP.Wedge

/-! # The end of a flow and the flows that share its id -/

namespace VlfProto.Session
open Platform Transition

/-- When every flow is filed under an id that no other flow can be closed by, a
goroutine that closes its flow closes that flow only. -/
theorem closesOwnFlow_of_reusesEnded (maxFlows : ℤ) (labels : List TCPSessionStep)
    (s : TCPSession) (cfg : SessionConfig) (id : UInt64) (limits : Limits.Manager)
    (labels' : List QUICSessionStep) (s' : QUICSession) :
    (Path TCPSession.step TCPSession.ReusesEnded (TCPSession.new maxFlows) labels s →
      s.ClosesOwnFlow) ∧
    (Path QUICSession.step QUICSession.ReusesEnded (QUICSession.new cfg id limits) labels' s' →
      s'.ClosesOwnFlow) :=
  ⟨fun hpath => TCPSession.path_closesOwnFlow hpath,
    fun hpath => QUICSession.path_closesOwnFlow hpath⟩

namespace TCPSession

/-- The client opens flow 1 again after its loop has ended, and the new loop ends. -/
def reopenedRun : List TCPSessionStep :=
  openRun ++ List.replicate 5 (.loop 0 [] true true) ++ openRun.drop 4 ++ [.loop 1 [] true true]

/-- The client closes flow 1 and opens it again, and then the old loop ends. -/
def reusedRun : List TCPSessionStep :=
  openRun ++ [.run (some ⟨frameCLOSEFLOW, [0, 0, 0, 0, 0, 0, 0, 1]⟩) true 0, .run none true 0,
    .run none true 0] ++ openRun.drop 4 ++ [.loop 0 [] true true]

end TCPSession

namespace QUICSession

variable {s : QUICSession} {label : QUICSessionStep}

/-- No flow is filed under an id that was used before. -/
def NewIDs (s : QUICSession) : QUICSessionStep → Prop
  | .control _ _ =>
    match s.control with
    | .insert f flowID =>
      (∀ k < s.tcpCreated, ⟨.tcp, k⟩ ≠ f → (s.tcp k).id ≠ flowID) ∧
      ∀ k < s.udpCreated, ⟨.udp, k⟩ ≠ f → (s.udp k).id ≠ flowID
    | _ => True
  | _ => True

instance (s : QUICSession) (label : QUICSessionStep) : Decidable (s.NewIDs label) := by
  unfold NewIDs
  split
  · split <;> infer_instance
  · infer_instance

theorem reusesEnded_of_newIDs (h : s.NewIDs label) : s.ReusesEnded label := by
  cases label with
  | control frame ok =>
    rintro f flowID ⟨hpc, -⟩ ⟨kind, k⟩ hne hlt hid
    simp only [NewIDs, hpc] at h
    cases kind with
    | tcp => exact absurd hid (h.1 k hlt hne)
    | udp => exact absurd hid (h.2 k hlt hne)
  | _ => trivial

def twoFlows : SessionConfig := ⟨2, 1200, 1, 64⟩

def noLimits : Limits.Manager := .new ⟨0, 0, 0, 0, 0⟩

/-- A client authenticates and opens TCP flow 1. -/
def openTCPRun : List QUICSessionStep :=
  [.run none true, .run (some ⟨frameAUTH, List.replicate 19 0⟩) true, .run none true,
    .run none true, .run none true,
    .control (some ⟨frameOPENTCP, [0, 0, 0, 0, 0, 0, 0, 1, 1, 104, 0, 0, 80]⟩) true] ++
    List.replicate 4 (.control none true)

/-- The client opens a stream for the flow, and then the target sends no more. -/
def targetEndsRun : List QUICSessionStep :=
  openTCPRun ++ [.acceptor true, .stream 0 (some 1) true] ++
    List.replicate 3 (.stream 0 none true) ++
    List.replicate 2 (.copy 0 .download [] .eof true 0 0) ++ [.stream 0 none true]

/-- The client opens UDP flow 1 beside TCP flow 1, and then the loop of the UDP flow
cannot read from its target. -/
def sharedRun : List QUICSessionStep :=
  openTCPRun ++
    [.control (some ⟨frameOPENUDP, [0, 0, 0, 0, 0, 0, 0, 1, 1, 104, 0, 0, 80]⟩) true] ++
    List.replicate 5 (.control none true) ++ List.replicate 2 (.udpReader 0 [] true true 0)

end QUICSession

theorem reopened_and_targetEnds_closeOwn :
    (∃ s, Path TCPSession.step TCPSession.ReusesEnded (TCPSession.new 1) TCPSession.reopenedRun s ∧
      (s.flows 1).loop = .closeFlow (.delete 1 true) ∧ s.ClosesOwnFlow) ∧
    ∃ s, Path QUICSession.step QUICSession.ReusesEnded
        (QUICSession.new QUICSession.twoFlows 1 QUICSession.noLimits)
        QUICSession.targetEndsRun s ∧
      s.closing (.stream 0) = some (⟨.tcp, 0⟩, .delete 1 true) ∧ s.ClosesOwnFlow := by
  obtain ⟨s, hpath, hloop⟩ : ∃ s,
      Path TCPSession.step TCPSession.ReusesEnded (TCPSession.new 1) TCPSession.reopenedRun s ∧
        (s.flows 1).loop = .closeFlow (.delete 1 true) := Path.exists_of_run (by decide +kernel)
  obtain ⟨s', hnew, hclosing⟩ : ∃ s', Path QUICSession.step QUICSession.NewIDs
      (QUICSession.new QUICSession.twoFlows 1 QUICSession.noLimits) QUICSession.targetEndsRun s' ∧
        s'.closing (.stream 0) = some (⟨.tcp, 0⟩, .delete 1 true) :=
    Path.exists_of_run (by decide +kernel)
  have hpath' := hnew.mono fun _ _ => QUICSession.reusesEnded_of_newIDs
  obtain ⟨hown, hown'⟩ := closesOwnFlow_of_reusesEnded 1 TCPSession.reopenedRun s
    QUICSession.twoFlows 1 QUICSession.noLimits QUICSession.targetEndsRun s'
  exact ⟨⟨s, hpath, hloop, hown hpath⟩, s', hpath', hclosing, hown' hpath'⟩

theorem reused_and_shared_close_other :
    (∃ s s', Path TCPSession.step anyLabel (TCPSession.new 1) TCPSession.reusedRun s ∧
      (s.flows 0).loop = .closeFlow (.delete 1 true) ∧
      s.step (.loop 0 [] false true) = some s' ∧ s.tcpFlows.lookup 1 = some 1 ∧
      s'.tcpFlows.lookup 1 = none ∧ ¬s.ClosesOwnFlow) ∧
    ∃ s s', Path QUICSession.step anyLabel
        (QUICSession.new QUICSession.twoFlows 1 QUICSession.noLimits) QUICSession.sharedRun s ∧
      s.closing (.udpReader 0) = some (⟨.udp, 0⟩, .delete 1 true) ∧
      s.step (.udpReader 0 [] false true 0) = some s' ∧ s.tcpFlows.lookup 1 = some 0 ∧
      s'.tcpFlows.lookup 1 = none ∧ ¬s.ClosesOwnFlow := by
  constructor
  · obtain ⟨s, hpath, hloop, hbefore, hnext⟩ : ∃ s,
        Path TCPSession.step anyLabel (TCPSession.new 1) TCPSession.reusedRun s ∧
        (s.flows 0).loop = .closeFlow (.delete 1 true) ∧ s.tcpFlows.lookup 1 = some 1 ∧
        (s.step (.loop 0 [] false true)).map (fun s' => s'.tcpFlows.lookup 1) = some none :=
      Path.exists_of_run (by decide +kernel)
    obtain ⟨s', hstep, hafter⟩ := Option.map_eq_some_iff.mp hnext
    refine ⟨s, s', hpath, hloop, hstep, hbefore, hafter, fun howns => ?_⟩
    have hkept := (howns 0 _ [] false true s' hloop hstep 1 one_ne_zero).2 1 hbefore
    rw [hafter] at hkept
    cases hkept
  · obtain ⟨s, hpath, hclosing, hbefore, hnext⟩ : ∃ s, Path QUICSession.step anyLabel
          (QUICSession.new QUICSession.twoFlows 1 QUICSession.noLimits) QUICSession.sharedRun s ∧
        s.closing (.udpReader 0) = some (⟨.udp, 0⟩, .delete 1 true) ∧
        s.tcpFlows.lookup 1 = some 0 ∧ (s.step (.udpReader 0 [] false true 0)).map
          (fun s' => s'.tcpFlows.lookup 1) = some none :=
      Path.exists_of_run (by decide +kernel)
    obtain ⟨s', hstep, hafter⟩ := Option.map_eq_some_iff.mp hnext
    refine ⟨s, s', hpath, hclosing, hstep, hbefore, hafter, fun howns => ?_⟩
    have hkept := (howns _ _ _ _ s' rfl hclosing hstep ⟨.tcp, 0⟩ (by simp)).1 1 hbefore
    change s'.tcpFlows.lookup 1 = some 0 at hkept
    rw [hafter] at hkept
    cases hkept

end VlfProto.Session
