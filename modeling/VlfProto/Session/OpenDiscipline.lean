import VlfProto.Session.FlowEnds
import VlfProto.Session.QUIC.Opens
import VlfProto.Session.TCP.Opens

/-! # The flow tables of the session servers -/

namespace VlfProto.Session
open Platform Transition

namespace Opened

variable {σ α : Type} {server : OpenServer σ α} {r : Opened σ}

theorem not_step (hpanicked : r.panicked) (hended : server.ended r.session) (label : α) :
    step server r label = none := if_pos ⟨hpanicked, hended⟩

end Opened

/-- The tables of both servers, and their answers to opens, on every run on which no open
announces a length beyond what can be allocated. -/
theorem servers_keep_flow_discipline (maxFlows : ℤ) (labels : List TCPSessionStep)
    (r : Opened TCPSession) (cfg : SessionConfig) (id : UInt64) (limits : Limits.Manager)
    (labels' : List QUICSessionStep) (r' : Opened QUICSession) :
    (Path (Opened.step TCPSession.openServer) (Opened.OpensFit TCPSession.openServer)
        (.new (.new maxFlows)) labels r →
      (0 ≤ maxFlows → r.session.flowCount ≤ maxFlows) ∧
      r.session.tcpFlows.lookup 0 = none ∧
      (∀ k < r.session.created, (r.session.flows k).id ≠ 0) ∧
      r.openings.map (fun o => (o.kind, o.flowID)) = r.read.filterMap openRequest ∧
      Disciplined r.session.closedFlow r.session.run.openStage r.openings r.session.answers) ∧
    (Path (Opened.step QUICSession.openServer) (Opened.OpensFit QUICSession.openServer)
        (.new (.new cfg id limits)) labels' r' →
      (0 ≤ cfg.maxFlows → r'.session.flowCount ≤ cfg.maxFlows) ∧
      (∀ kind, (r'.session.table kind).lookup 0 = none) ∧
      (∀ f : FlowRef, f.index < r'.session.created f.kind → r'.session.flowID f ≠ 0) ∧
      r'.openings.map (fun o => (o.kind, o.flowID)) = r'.read.filterMap openRequest ∧
      Disciplined r'.session.closedFlow r'.session.control.openStage r'.openings
        r'.session.answers) := by
  constructor
  · intro hpath
    have hsound := Opened.path_sound (TCPSession.openServer_moves maxFlows)
      (TCPSession.new_bounded maxFlows) rfl rfl hpath
    have hbounded := hsound.inv
    refine ⟨fun hmax => ?_, hbounded.table, hbounded.nonzero, hsound.answers.requests,
      hsound.answers.disciplined⟩
    exact max_eq_left hmax ▸ hbounded.count
  · intro hpath
    have hsound := Opened.path_sound (QUICSession.openServer_moves cfg.maxFlows)
      ⟨QUICSession.new_bounded cfg id limits, fun _ => rfl⟩ rfl rfl hpath
    have hbounded := hsound.inv.bounded
    refine ⟨fun hmax => ?_, hbounded.table, hbounded.nonzero, hsound.answers.requests,
      hsound.answers.disciplined⟩
    exact max_eq_left hmax ▸ hbounded.count

/-- An open of flow 1 whose host is announced with the longest length there is. -/
def hugeOpen : Bytes := [0, 0, 0, 0, 0, 0, 0, 1] ++ hugeLength

namespace TCPSession

/-- The client opens flow 1 twice and asks for a UDP flow, and an open does not decode. -/
def refusedRun : List TCPSessionStep :=
  openRun ++ [.run (some ⟨frameOPENTCP, [0, 0, 0, 0, 0, 0, 0, 1, 1, 104, 0, 0, 80]⟩) true 0] ++
    List.replicate 5 (.run none true 0) ++
    [.run (some ⟨frameOPENUDP, [0, 0, 0, 0, 0, 0, 0, 2, 1, 104, 0, 0, 80]⟩) true 0,
      .run none true 0, .run (some ⟨frameOPENTCP, [0]⟩) true 0, .run none true 0]

/-- `Run` panics when it decodes an open, and goes through its deferred calls. -/
def panicRun : List TCPSessionStep :=
  openRun.take 4 ++ [.run (some ⟨frameOPENTCP, hugeOpen⟩) true 0] ++
    List.replicate 7 (.run none true 0)

end TCPSession

namespace QUICSession

/-- The client opens flow 1 twice, and an open does not decode. -/
def refusedRun : List QUICSessionStep :=
  openTCPRun ++ [.control (some ⟨frameOPENTCP, [0, 0, 0, 0, 0, 0, 0, 1, 1, 104, 0, 0, 80]⟩) true] ++
    List.replicate 5 (.control none true) ++
    [.control (some ⟨frameOPENUDP, [0]⟩) true, .control none true]

/-- The control loop panics when it decodes an open, and leaves the wait group. -/
def panicRun : List QUICSessionStep :=
  openTCPRun.take 5 ++ [.control (some ⟨frameOPENUDP, hugeOpen⟩) true, .control none true]

end QUICSession

theorem refusedRuns_keep_flow_discipline :
    (∃ r, Path (Opened.step TCPSession.openServer) (Opened.OpensFit TCPSession.openServer)
        (.new (.new 2)) TCPSession.refusedRun r ∧
      r.session.answers = [⟨.tcp, 1, true⟩, ⟨.tcp, 1, false⟩, ⟨.udp, 2, false⟩, ⟨.tcp, 0, false⟩] ∧
      Disciplined r.session.closedFlow r.session.run.openStage r.openings r.session.answers) ∧
    ∃ r, Path (Opened.step QUICSession.openServer) (Opened.OpensFit QUICSession.openServer)
        (.new (.new QUICSession.twoFlows 1 QUICSession.noLimits)) QUICSession.refusedRun r ∧
      r.session.answers = [⟨.tcp, 1, true⟩, ⟨.tcp, 1, false⟩, ⟨.udp, 0, false⟩] ∧
      Disciplined r.session.closedFlow r.session.control.openStage r.openings
        r.session.answers := by
  obtain ⟨r, hpath, hanswers⟩ : ∃ r, Path (Opened.step TCPSession.openServer)
      (Opened.OpensFit TCPSession.openServer) (.new (.new 2)) TCPSession.refusedRun r ∧
        r.session.answers =
          [⟨.tcp, 1, true⟩, ⟨.tcp, 1, false⟩, ⟨.udp, 2, false⟩, ⟨.tcp, 0, false⟩] :=
    Path.exists_of_run (by decide +kernel)
  obtain ⟨r', hpath', hanswers'⟩ : ∃ r, Path (Opened.step QUICSession.openServer)
      (Opened.OpensFit QUICSession.openServer)
      (.new (.new QUICSession.twoFlows 1 QUICSession.noLimits)) QUICSession.refusedRun r ∧
        r.session.answers = [⟨.tcp, 1, true⟩, ⟨.tcp, 1, false⟩, ⟨.udp, 0, false⟩] :=
    Path.exists_of_run (by decide +kernel)
  obtain ⟨htcp, hquic⟩ := servers_keep_flow_discipline 2 TCPSession.refusedRun r
    QUICSession.twoFlows 1 QUICSession.noLimits QUICSession.refusedRun r'
  obtain ⟨-, -, -, -, hd⟩ := htcp hpath
  obtain ⟨-, -, -, -, hd'⟩ := hquic hpath'
  exact ⟨⟨r, hpath, hanswers, hd⟩, r', hpath', hanswers', hd'⟩

/-- The open was read, nothing was answered, and nothing happens any more. -/
theorem hugeOpens_unanswered :
    (∃ r, Path (Opened.step TCPSession.openServer) anyLabel (.new (.new 2)) TCPSession.panicRun r ∧
      r.openings = [⟨.tcp, 0, none, false⟩] ∧ r.session.run.openStage = .idle ∧
      r.session.answers = [] ∧ ∀ label, Opened.step TCPSession.openServer r label = none) ∧
    ∃ r, Path (Opened.step QUICSession.openServer) anyLabel
        (.new (.new QUICSession.twoFlows 1 QUICSession.noLimits)) QUICSession.panicRun r ∧
      r.openings = [⟨.udp, 0, none, false⟩] ∧ r.session.control.openStage = .idle ∧
      r.session.answers = [] ∧ ∀ label, Opened.step QUICSession.openServer r label = none := by
  constructor
  · refine Path.exists_of_run_imp (P := fun r => r.openings = [⟨.tcp, 0, none, false⟩] ∧
        r.session.run.openStage = .idle ∧ r.session.answers = [] ∧ r.panicked ∧
        TCPSession.openServer.ended r.session)
      (by decide +kernel) fun r _ ⟨hopen, hstage, hanswers, hpanicked, hended⟩ => ?_
    exact ⟨hopen, hstage, hanswers, Opened.not_step hpanicked hended⟩
  · refine Path.exists_of_run_imp (P := fun r => r.openings = [⟨.udp, 0, none, false⟩] ∧
        r.session.control.openStage = .idle ∧ r.session.answers = [] ∧ r.panicked ∧
        QUICSession.openServer.ended r.session)
      (by decide +kernel) fun r _ ⟨hopen, hstage, hanswers, hpanicked, hended⟩ => ?_
    exact ⟨hopen, hstage, hanswers, Opened.not_step hpanicked hended⟩

end VlfProto.Session
