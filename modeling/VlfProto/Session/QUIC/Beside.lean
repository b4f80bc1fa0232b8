import VlfProto.Session.QUIC.Session

/-! # What only the control loop does -/

namespace VlfProto.Session
open Platform Transition Option

def SessionFrame.openAnswer : SessionFrame → Option OpenAnswer
  | .openOK kind flowID => some ⟨kind, flowID, true⟩
  | .openFail kind flowID _ => some ⟨kind, flowID, false⟩
  | _ => none

namespace QUICSession

variable {s s' t : QUICSession} {k : ℕ} {ok : Bool} {g : SessionGoroutine} {flow : SessionTCPFlow}
  {r : QUICSession × Bool}

def socketClosed (s : QUICSession) (f : FlowRef) : Bool :=
  match f.kind with
  | .tcp => (s.tcp f.index).targetClosed
  | .udp => (s.udp f.index).connClosed

structure Beside (s s' : QUICSession) : Prop where
  run : s'.run = s.run
  control : s'.control = s.control
  cfg : s'.cfg = s.cfg
  created : ∀ kind, s'.created kind = s.created kind
  flowID : ∀ f, s'.flowID f = s.flowID f
  table : ∀ kind id k, (s'.table kind).lookup id = some k → (s.table kind).lookup id = some k
  socketClosed : ∀ f, s.socketClosed f → s'.socketClosed f
  frames : ∃ sent, s'.frames = s.frames ++ sent ∧ ∀ f ∈ sent, f.1.openAnswer = none

/-- What `Beside` speaks about. -/
def openView (s : QUICSession) :=
  (s.run, s.control, s.cfg, s.tcpCreated, s.udpCreated, s.tcpFlows, s.udpFlows, s.tcp, s.udp,
    s.frames)

theorem Beside.refl (s : QUICSession) : s.Beside s where
  run := rfl
  control := rfl
  cfg := rfl
  created _ := rfl
  flowID _ := rfl
  table _ _ _ h := h
  socketClosed _ h := h
  frames := ⟨[], by simp⟩

theorem Beside.of_view (h : s.Beside t) (hview : s'.openView = t.openView) : s.Beside s' := by
  simp only [openView, Prod.mk.injEq] at hview
  obtain ⟨hrun, hcontrol, hcfg, htcp, hudp, htable, htable', htcp', hudp', hframes⟩ := hview
  refine ⟨hrun.trans h.run, hcontrol.trans h.control, hcfg.trans h.cfg, fun kind => ?_,
    fun f => ?_, fun kind id k hk => h.table kind id k ?_, fun f hf => ?_, hframes ▸ h.frames⟩
  · rw [← h.created]
    cases kind
    · exact htcp
    · exact hudp
  · rw [← h.flowID, QUICSession.flowID, htcp', hudp']
    rfl
  · rw [← hk]
    cases kind
    · exact congrArg _ htable.symm
    · exact congrArg _ htable'.symm
  · rw [QUICSession.socketClosed, htcp', hudp']
    exact h.socketClosed f hf

theorem Beside.setTCP (h : s.Beside t) (hid : flow.id = (t.tcp k).id)
    (hclosed : (t.tcp k).targetClosed → flow.targetClosed) : s.Beside (t.setTCP k flow) := by
  refine { h with flowID := fun f => ?_, socketClosed := fun f hf => ?_ }
  · rw [← h.flowID]
    obtain ⟨kind, j⟩ := f
    cases kind
    · by_cases hj : j = k <;> simp [QUICSession.flowID, QUICSession.setTCP, hj, hid]
    · rfl
  · have ht := h.socketClosed f hf
    obtain ⟨kind, j⟩ := f
    cases kind
    · by_cases hj : j = k
      · subst hj
        simpa [QUICSession.socketClosed, QUICSession.setTCP] using hclosed ht
      · simpa [QUICSession.socketClosed, QUICSession.setTCP, hj] using ht
    · exact ht

theorem Beside.setUDP {flow : SessionUDPFlow} (h : s.Beside t) (hid : flow.id = (t.udp k).id)
    (hclosed : (t.udp k).connClosed → flow.connClosed) : s.Beside (t.setUDP k flow) := by
  refine { h with flowID := fun f => ?_, socketClosed := fun f hf => ?_ }
  · rw [← h.flowID]
    obtain ⟨kind, j⟩ := f
    cases kind
    · rfl
    · by_cases hj : j = k <;> simp [QUICSession.flowID, QUICSession.setUDP, hj, hid]
  · have ht := h.socketClosed f hf
    obtain ⟨kind, j⟩ := f
    cases kind
    · exact ht
    · by_cases hj : j = k
      · subst hj
        simpa [QUICSession.socketClosed, QUICSession.setUDP] using hclosed ht
      · simpa [QUICSession.socketClosed, QUICSession.setUDP, hj] using ht

theorem Beside.send {f : SessionFrame} (h : s.Beside t) (hf : f.openAnswer = none)
    (hwrite : t.writeFrame f ok = some s') : s.Beside s' := by
  obtain ⟨-, rfl⟩ := of_guard_not hwrite
  obtain ⟨sent, hsent, hanswer⟩ := h.frames
  refine { h with frames := ⟨sent ++ [(f, ok)], by simp [hsent], ?_⟩ }
  simpa [or_imp, forall_and, hf] using hanswer

/-- The queues with their counters, and the goroutines that use them. -/
def pipeline (s : QUICSession) :=
  (s.cfg, s.queues, s.metricsQueue, s.datagramQLen, s.reassembly, s.datagramReader, s.workers)

/-- Beside the control loop and apart from the datagram pipeline. -/
structure Aside (s s' : QUICSession) : Prop extends Beside s s' where
  pipeline : s'.pipeline = s.pipeline
  written : ∀ k, (s'.udp k).written = (s.udp k).written

theorem Aside.refl (s : QUICSession) : s.Aside s := ⟨.refl s, rfl, fun _ => rfl⟩

theorem Aside.of_view (h : s.Aside t) (hview : s'.openView = t.openView)
    (hpipeline : s'.pipeline = t.pipeline) : s.Aside s' := by
  refine ⟨h.toBeside.of_view hview, hpipeline.trans h.pipeline, fun k => ?_⟩
  simp only [openView, Prod.mk.injEq] at hview
  rw [hview.2.2.2.2.2.2.2.2.1, h.written]

theorem Aside.setTCP (h : s.Aside t) (hid : flow.id = (t.tcp k).id)
    (hclosed : (t.tcp k).targetClosed → flow.targetClosed) : s.Aside (t.setTCP k flow) :=
  ⟨h.toBeside.setTCP hid hclosed, h.pipeline, h.written⟩

theorem Aside.setUDP {flow : SessionUDPFlow} (h : s.Aside t) (hid : flow.id = (t.udp k).id)
    (hclosed : (t.udp k).connClosed → flow.connClosed)
    (hwritten : flow.written = (t.udp k).written) : s.Aside (t.setUDP k flow) := by
  refine ⟨h.toBeside.setUDP hid hclosed, h.pipeline, fun j => ?_⟩
  rw [← h.written]
  by_cases hj : j = k <;> simp [QUICSession.setUDP, hj, hwritten]

/-- No goroutine that works for a flow has gone on. -/
structure Quiet (s s' : QUICSession) : Prop extends Beside s s' where
  stream : ∀ k, (s'.tcp k).stream = (s.tcp k).stream
  reader : ∀ k, (s'.udp k).reader = (s.udp k).reader
  handler : ∀ i, (s'.streams i).handler = (s.streams i).handler
  accepted : s'.accepted = s.accepted
  workers : s'.workers = s.workers

/-- What `Quiet` speaks about. -/
def flowView (s : QUICSession) := (s.openView, s.accepted, s.streams, s.workers)

theorem Quiet.refl (s : QUICSession) : s.Quiet s :=
  ⟨.refl s, fun _ => rfl, fun _ => rfl, fun _ => rfl, rfl, rfl⟩

theorem Quiet.of_view (h : s.Quiet t) (hview : s'.flowView = t.flowView) : s.Quiet s' := by
  simp only [flowView, Prod.mk.injEq] at hview
  obtain ⟨hopen, haccepted, hstreams, hworkers⟩ := hview
  refine ⟨h.toBeside.of_view hopen, fun k => ?_, fun k => ?_, fun i => ?_,
    haccepted.trans h.accepted, hworkers.trans h.workers⟩
  · rw [← h.stream]
    exact congrArg (fun v => (v.2.2.2.2.2.2.2.1 k).stream) hopen
  · rw [← h.reader]
    exact congrArg (fun v => (v.2.2.2.2.2.2.2.2.1 k).reader) hopen
  · rw [hstreams, h.handler]

theorem Quiet.of_eq (h : s'.flowView = s.flowView) : s.Quiet s' := (Quiet.refl s).of_view h

theorem Quiet.withTCP (h : s.Quiet t) (hid : flow.id = (t.tcp k).id)
    (hclosed : (t.tcp k).targetClosed → flow.targetClosed)
    (hstream : flow.stream = (t.tcp k).stream) : s.Quiet (t.setTCP k flow) := by
  refine { h with toBeside := h.toBeside.setTCP hid hclosed, stream := fun j => ?_ }
  rw [← h.stream]
  by_cases hj : j = k <;> simp [QUICSession.setTCP, hj, hstream]

theorem Quiet.withUDP {flow : SessionUDPFlow} (h : s.Quiet t) (hid : flow.id = (t.udp k).id)
    (hclosed : (t.udp k).connClosed → flow.connClosed)
    (hreader : flow.reader = (t.udp k).reader) : s.Quiet (t.setUDP k flow) := by
  refine { h with toBeside := h.toBeside.setUDP hid hclosed, reader := fun j => ?_ }
  rw [← h.reader]
  by_cases hj : j = k <;> simp [QUICSession.setUDP, hj, hreader]

theorem Quiet.withStream {i : ℕ} {stream : FlowStream} (h : s.Quiet t)
    (hhandler : stream.handler = (t.streams i).handler) : s.Quiet (t.setStream i stream) := by
  refine { h with toBeside := h.toBeside.of_view rfl, handler := fun j => ?_ }
  rw [← h.handler]
  by_cases hj : j = i <;> simp [QUICSession.setStream, hj, hhandler]

/-- Nothing is done for a flow or in the datagram pipeline. -/
structure Still (s s' : QUICSession) : Prop extends Quiet s s', Aside s s'

theorem Still.refl (s : QUICSession) : s.Still s := ⟨.refl s, rfl, fun _ => rfl⟩

theorem Still.of_view (h : s.Still t) (hview : s'.flowView = t.flowView)
    (hpipeline : s'.pipeline = t.pipeline) : s.Still s' :=
  have hopen : s'.openView = t.openView := congrArg Prod.fst hview
  ⟨h.toQuiet.of_view hview, (h.toAside.of_view hopen hpipeline).pipeline,
    (h.toAside.of_view hopen hpipeline).written⟩

theorem Still.withTCP (h : s.Still t) (hid : flow.id = (t.tcp k).id)
    (hclosed : (t.tcp k).targetClosed → flow.targetClosed)
    (hstream : flow.stream = (t.tcp k).stream) : s.Still (t.setTCP k flow) :=
  ⟨h.toQuiet.withTCP hid hclosed hstream, h.pipeline, h.written⟩

theorem Still.withStream {i : ℕ} {stream : FlowStream} (h : s.Still t)
    (hhandler : stream.handler = (t.streams i).handler) : s.Still (t.setStream i stream) :=
  ⟨h.toQuiet.withStream hhandler, h.pipeline, h.written⟩

theorem Still.send {f : SessionFrame} (h : s.Still t) (hf : f.openAnswer = none)
    (hwrite : t.writeFrame f ok = some s') : s.Still s' := by
  have hsent := h.toBeside.send hf hwrite
  obtain ⟨-, rfl⟩ := of_guard_not hwrite
  exact { h with toBeside := hsent }

/-- The goroutines, as far as they are not kept in flows and streams. -/
def goroutines (s : QUICSession) :=
  (s.id, s.limits, s.wg, s.accepted, s.acceptor, s.pinger)

/-- What `Close` and `closeFlow` can do: they close sockets and streams, take flows out of the
tables and send a frame that answers no open. -/
structure Shuts (s s' : QUICSession) : Prop extends Still s s' where
  goroutines : s'.goroutines = s.goroutines
  copies : ∀ i, (s'.streams i).upload = (s.streams i).upload ∧
    (s'.streams i).download = (s.streams i).download

theorem Shuts.refl (s : QUICSession) : s.Shuts s := ⟨.refl s, rfl, fun _ => ⟨rfl, rfl⟩⟩

theorem Shuts.flags (h : s.Shuts t) (cancelled connClosed : Bool)
    (once : Once SessionGoroutine SessionCloseStage) :
    s.Shuts { t with cancelled, connClosed, once } :=
  ⟨h.toStill.of_view rfl rfl, h.goroutines, h.copies⟩

theorem shuts_tables {tcpFlows udpFlows : Table ℕ ℕ}
    (htcp : ∀ id k, tcpFlows.lookup id = some k → s.tcpFlows.lookup id = some k)
    (hudp : ∀ id k, udpFlows.lookup id = some k → s.udpFlows.lookup id = some k) :
    s.Shuts { s with tcpFlows, udpFlows } := by
  refine { Shuts.refl s with table := fun kind id k hk => ?_ }
  cases kind with
  | tcp => exact htcp id k hk
  | udp => exact hudp id k hk

theorem shuts_closeStream (s : QUICSession) (i : ℕ) : s.Shuts (s.closeStream i) := by
  refine ⟨(Still.refl s).withStream rfl, rfl, fun j => ?_⟩
  by_cases hj : j = i <;> simp [closeStream, setStream, hj]

theorem Shuts.setTCP (h : s.Shuts t) (hid : flow.id = (t.tcp k).id)
    (hclosed : (t.tcp k).targetClosed → flow.targetClosed)
    (hstream : flow.stream = (t.tcp k).stream) : s.Shuts (t.setTCP k flow) :=
  ⟨h.toStill.withTCP hid hclosed hstream, h.goroutines, h.copies⟩

theorem Shuts.closeUDP (h : s.Shuts t) (k : ℕ) :
    s.Shuts (t.setUDP k { t.udp k with connClosed := true }) :=
  have hset : s.Aside (t.setUDP k { t.udp k with connClosed := true }) :=
    h.toAside.setUDP rfl (fun _ => rfl) rfl
  ⟨⟨h.toQuiet.withUDP rfl (fun _ => rfl) rfl, h.pipeline, hset.written⟩, h.goroutines, h.copies⟩

theorem dropFlow_shuts (s : QUICSession) (f : FlowRef) : s.Shuts (s.dropFlow f) := by
  obtain ⟨kind, k⟩ := f
  cases kind with
  | tcp => exact (Shuts.refl s).setTCP rfl (fun _ => rfl) rfl
  | udp => exact (Shuts.refl s).closeUDP k

theorem flowBodyStep_shuts {stage : TCPFlowCloseStage} {next : Option TCPFlowCloseStage}
    (h : s.flowBodyStep k stage = some (s', next)) : s.Shuts s' := by
  cases stage with
  | target =>
    cases h
    exact (Shuts.refl s).setTCP rfl (fun _ => rfl) rfl
  | stream =>
    cases h
    cases (s.tcp k).stream with
    | none => exact .refl s
    | some i => exact s.shuts_closeStream i

theorem closeTCPFlow_shuts (h : s.closeTCPFlow g k = some r) : s.Shuts r.1 := by
  obtain ⟨r, hact, rfl⟩ := map_eq_some_iff.mp h
  have hbody : s.Shuts r.1 := by
    rcases Once.act_cases hact with ⟨-, rfl⟩ | ⟨stage, s', next, -, hbody, rfl⟩ | ⟨-, rfl⟩
    · exact .refl s
    · exact flowBodyStep_shuts hbody
    · exact .refl s
  exact hbody.setTCP rfl (fun h => h) rfl

theorem closeFlowStep_shuts {pc : SessionCloseFlowPc}
    {r : QUICSession × Option SessionCloseFlowPc} (h : s.closeFlowStep g ok pc = some r) :
    s.Shuts r.1 := by
  cases pc with
  | delete flowID notify =>
    cases h
    exact shuts_tables (fun _ _ => Table.lookup_of_erase) (fun _ _ => Table.lookup_of_erase)
  | closeTCP k udp flowID notify =>
    obtain ⟨r, hr, rfl⟩ := map_eq_some_iff.mp h
    exact closeTCPFlow_shuts hr
  | closeUDP k flowID notify =>
    cases h
    exact (Shuts.refl s).closeUDP k
  | notify flowID =>
    obtain ⟨s', hwrite, rfl⟩ := map_eq_some_iff.mp h
    have hsent := (Still.refl s).send rfl hwrite
    obtain ⟨-, rfl⟩ := of_guard_not hwrite
    exact { Shuts.refl s with toStill := hsent }

theorem bodyStep_shuts {stage : SessionCloseStage} {next : Option SessionCloseStage}
    (h : s.bodyStep g stage = some (s', next)) : s.Shuts s' := by
  rcases stage with _ | _ | _ | ⟨_ | ⟨k, rest⟩, udp⟩ | ⟨_ | ⟨k, rest⟩⟩
  case swapFlows =>
    cases h
    exact shuts_tables (by simp) (by simp)
  case closeTCP.cons =>
    obtain ⟨r, hr, hpair⟩ := map_eq_some_iff.mp h
    cases hpair
    exact closeTCPFlow_shuts hr
  case closeUDP.cons =>
    cases h
    exact (Shuts.refl s).closeUDP k
  all_goals
    cases h
    exact (Shuts.refl s).flags _ _ _

theorem closeStep_shuts (h : s.closeStep g = some r) : s.Shuts r.1 := by
  obtain ⟨r, hact, rfl⟩ := map_eq_some_iff.mp h
  rcases Once.act_cases hact with ⟨-, rfl⟩ | ⟨stage, s', next, -, hbody, rfl⟩ | ⟨-, rfl⟩
  · exact (Shuts.refl s).flags _ _ _
  · exact (bodyStep_shuts hbody).flags _ _ _
  · exact (Shuts.refl s).flags _ _ _

end QUICSession
end VlfProto.Session
