import VlfProto.Session.QUIC.Threads

/-! # A session moves its goroutines one at a time -/

namespace VlfProto.Session
open Platform Transition Function Option

namespace QUICSession

variable {s s' : QUICSession} {i k n : ℕ} {ok failed : Bool} {data : Bytes} {now : ℤ}
  {g : SessionGoroutine} {frame : Option Frame} {label : QUICSessionStep} {stream : FlowStream}
  {t : QUICSession} {limits : Limits.Manager} {brings : Prop}

/-- The goroutine is running. -/
def live (s : QUICSession) : Waited → Bool
  | .control => s.control.live
  | .acceptor => s.acceptor.live
  | .pinger => s.pinger.live
  | .datagramReader => s.datagramReader.live
  | .worker i => (s.workers i).live
  | .handler i => (s.streams i).handler.live
  | .reader k => (s.udp k).reader.live

def threads (s : QUICSession) : Threads where
  id := s.id
  limits := s.limits
  run := s.run
  live := s.live
  opens := s.control.opens
  copies := s.copyPc
  accepted := s.accepted
  udpCreated := s.udpCreated
  wg := s.wg

theorem threads_setUDP (s : QUICSession) (k : ℕ) (flow : SessionUDPFlow) :
    (s.setUDP k flow).threads =
      { s.threads with live := update s.threads.live (.reader k) flow.reader.live } := by
  have hlive : (s.setUDP k flow).live = update s.live (.reader k) flow.reader.live := by
    funext g
    cases g with
    | reader j => by_cases hj : j = k <;> simp [live, setUDP, hj]
    | _ => rfl
  exact congrArg (fun live => { s.threads with live }) hlive

theorem threads_setUDP_same {flow : SessionUDPFlow} (h : flow.reader = (s.udp k).reader) :
    (s.setUDP k flow).threads = s.threads := by
  rw [threads_setUDP, h]
  exact congrArg (fun live => { s.threads with live }) (update_eq_self (.reader k) s.live)

theorem threads_setStream (s : QUICSession) (i : ℕ) (stream : FlowStream) :
    (s.setStream i stream).threads = { s.threads with
      live := update s.live (.handler i) stream.handler.live
      copies := (s.setStream i stream).copyPc } := by
  have hlive : (s.setStream i stream).live =
      update s.live (.handler i) stream.handler.live := by
    funext g
    cases g with
    | handler j => by_cases hj : j = i <;> simp [live, setStream, hj]
    | _ => rfl
  rw [← hlive]
  rfl

theorem threads_setStream_copies (h : stream.handler = (s.streams i).handler) :
    (s.setStream i stream).threads =
      { s.threads with copies := (s.setStream i stream).copyPc } := by
  rw [threads_setStream, h]
  exact congrArg (fun live => { s.threads with live, copies := (s.setStream i stream).copyPc })
    (update_eq_self (.handler i) s.live)

theorem copyPc_setStream
    (h : stream.upload = (s.streams i).upload ∧ stream.download = (s.streams i).download) :
    (s.setStream i stream).copyPc = s.copyPc := by
  funext j dir
  by_cases hj : j = i
  · subst hj
    cases dir <;> simp [copyPc, setStream, h]
  · cases dir <;> simp [copyPc, setStream, hj]

theorem copyPc_setStream_of_ne {j : ℕ} (hj : j ≠ i) :
    (s.setStream i stream).copyPc j = s.copyPc j := by
  funext dir
  cases dir <;> simp [copyPc, setStream, hj]

theorem threads_setStream_same (h : stream.handler = (s.streams i).handler)
    (hcopies : stream.upload = (s.streams i).upload ∧ stream.download = (s.streams i).download) :
    (s.setStream i stream).threads = s.threads := by
  rw [threads_setStream_copies h, copyPc_setStream hcopies]
  rfl

theorem threads_setHandler (s : QUICSession) (i : ℕ) (pc : StreamPc) :
    (s.setHandler i pc).threads =
      { s.threads with live := update s.live (.handler i) pc.live } := by
  have hcopies : (s.setStream i { s.streams i with handler := pc }).copyPc = s.copyPc :=
    copyPc_setStream ⟨rfl, rfl⟩
  rw [setHandler, threads_setStream, hcopies]
  rfl

theorem Shuts.threads (h : s.Shuts s') : s'.threads = s.threads := by
  have hcopies : s'.copyPc = s.copyPc := by
    funext i dir
    cases dir with
    | upload => exact (h.copies i).1
    | download => exact (h.copies i).2
  have hgoroutines := h.goroutines
  have hpipeline := h.pipeline
  simp only [QUICSession.goroutines, QUICSession.pipeline, Prod.mk.injEq] at hgoroutines hpipeline
  obtain ⟨hid, hlimits, hwg, haccepted, hacceptor, hpinger⟩ := hgoroutines
  obtain ⟨-, -, -, -, -, hreader, hworkers⟩ := hpipeline
  have hcreated : s'.udpCreated = s.udpCreated := h.created .udp
  have hlive : s'.live = s.live := by
    funext g
    cases g <;>
      simp only [live, h.control, hacceptor, hpinger, hreader, hworkers, h.handler, h.reader]
  simp only [QUICSession.threads, hlive, hcopies, hid, hlimits, hwg, haccepted, hcreated, h.run,
    h.control]

theorem threads_acceptor (s : QUICSession) (pc : AcceptorPc) : { s with acceptor := pc }.threads =
    { s.threads with live := update s.threads.live .acceptor pc.live } :=
  congrArg (fun live => { s.threads with live }) (by funext g; cases g <;> rfl)

theorem threads_pinger (s : QUICSession) (pc : PingerPc) : { s with pinger := pc }.threads =
    { s.threads with live := update s.threads.live .pinger pc.live } :=
  congrArg (fun live => { s.threads with live }) (by funext g; cases g <;> rfl)

theorem threads_datagramReader (s : QUICSession) (pc : DatagramReaderPc) :
    { s with datagramReader := pc }.threads =
      { s.threads with live := update s.threads.live .datagramReader pc.live } :=
  congrArg (fun live => { s.threads with live }) (by funext g; cases g <;> rfl)

theorem threads_setWorker (s : QUICSession) (i : ℕ) (pc : WorkerPc) : (s.setWorker i pc).threads =
    { s.threads with live := update s.threads.live (.worker i) pc.live } := by
  have hlive : (s.setWorker i pc).live = update s.live (.worker i) pc.live := by
    funext g
    cases g with
    | worker j => by_cases hj : j = i <;> simp [live, setWorker, hj]
    | _ => rfl
  exact congrArg (fun live => { s.threads with live }) hlive

/-- A goroutine goes on, when something may have changed that it does not share. -/
theorem stay_move {g : Waited} {b : Bool} (hlive : s.live g) (hb : b)
    (hset : s'.threads = { t.threads with live := update t.threads.live g b })
    (ht : t.threads = { s.threads with limits := limits }) : s.threads.Move brings s'.threads := by
  rw [hset, ht]
  exact .own hlive (by simp [hb]) (fun _ h => h) fun _ _ => rfl

theorem stop_move {g : Waited} (hlive : s.live g)
    (hset : s'.threads = { t.threads with live := update t.threads.live g false })
    (ht : t.threads = { s.threads with wg := s.wg - 1 }) : s.threads.Move brings s'.threads := by
  rw [hset, ht]
  exact .own hlive rfl (fun _ h => h) fun _ _ => rfl

theorem acceptorStep_move (h : s.acceptorStep ok = some s') : s.threads.Move brings s'.threads := by
  cases hpc : s.acceptor <;> simp only [acceptorStep, hpc, map_eq_some_iff, reduceCtorEq] at h <;>
    have hlive : s.live .acceptor := by rw [live, hpc]; rfl
  case accept =>
    split_ifs at h <;> cases h
    · change s.threads.Move brings { (s.setHandler s.accepted .readID).threads with
        accepted := s.accepted + 1, wg := s.wg + 1 }
      rw [threads_setHandler]
      exact .accept hlive
    · exact stay_move hlive rfl (threads_acceptor ..) rfl
    · exact stay_move hlive rfl (threads_acceptor ..) rfl
  case closing =>
    obtain ⟨r, hr, rfl⟩ := h
    have ht := (closeStep_shuts hr).threads
    split_ifs
    · exact stay_move hlive rfl (threads_acceptor ..) ht
    · rw [ht]
      exact .same
  case exiting =>
    cases h
    exact stop_move hlive (threads_acceptor { s with wg := s.wg - 1 } _) rfl

theorem pingerStep_move (h : s.pingerStep ok = some s') : s.threads.Move brings s'.threads := by
  cases hpc : s.pinger <;> simp only [pingerStep, hpc, map_eq_some_iff, reduceCtorEq] at h <;>
    have hlive : s.live .pinger := by rw [live, hpc]; rfl
  case wait =>
    split_ifs at h <;> cases h <;> exact stay_move hlive rfl (threads_pinger ..) rfl
  case write =>
    obtain ⟨t, hwrite, rfl⟩ := h
    obtain rfl := writeFrame_eq hwrite
    exact stay_move hlive rfl (threads_pinger ..) rfl
  case exiting =>
    cases h
    exact stop_move hlive (threads_pinger { s with wg := s.wg - 1 } _) rfl

theorem setHandler_move {pc : StreamPc} (ht : t.threads = s.threads)
    (hlive : s.live (.handler i)) (hpc : pc.live) :
    s.threads.Move brings (t.setHandler i pc).threads :=
  stay_move hlive hpc (threads_setHandler ..) ht

theorem streamStep_move {flowID : Option UInt64} (h : s.streamStep i flowID ok = some s') :
    s.threads.Move brings s'.threads := by
  cases hpc : (s.streams i).handler <;>
    simp only [streamStep, hpc, map_eq_some_iff, reduceCtorEq] at h <;>
    have hlive : s.live (.handler i) := by rw [live, hpc]; rfl
  case readID =>
    cases h
    refine setHandler_move rfl hlive ?_
    cases flowID <;> rfl
  case lookup id =>
    cases h
    refine setHandler_move rfl hlive ?_
    cases s.tcpFlows.lookup id <;> rfl
  case closeStream =>
    cases h
    exact setHandler_move (threads_setStream_same rfl ⟨rfl, rfl⟩) hlive rfl
  case attach k =>
    split_ifs at h <;> cases h <;> exact setHandler_move rfl hlive rfl
  case pump k =>
    cases h
    rw [threads_setStream]
    exact .own hlive rfl (fun _ h => h) fun j hj =>
      copyPc_setStream_of_ne (by simpa using Ne.symm hj)
  case await k =>
    split at h
    · cases h
    · cases h
      rw [threads_setStream]
      refine .own hlive (if_pos ?_).symm (fun _ h => h) fun j hj =>
        copyPc_setStream_of_ne (by simpa using Ne.symm hj)
      split_ifs <;> rfl
  case closing =>
    obtain ⟨r, hr, rfl⟩ := h
    have ht := (closeStep_shuts hr).threads
    split_ifs
    · exact setHandler_move ht hlive rfl
    · rw [ht]
      exact .same
  case closeFlow k pc =>
    obtain ⟨r, hr, rfl⟩ := h
    refine setHandler_move (closeFlowStep_shuts hr).threads hlive ?_
    cases r.2 <;> rfl
  case exiting =>
    cases h
    exact stop_move hlive (threads_setHandler ..) rfl

theorem setCopy_move {dir : CopyDirection} {pc : CopyPc}
    (ht : t.threads = { s.threads with limits := limits }) (hstarted : s.copyPc i dir ≠ .notStarted)
    (hlimits : (s.copyPc i dir).metering = false → limits = s.limits) (hpc : pc.metering → brings) :
    s.threads.Move brings (t.setCopy i dir pc).threads := by
  have hsame : t.copyPc = s.copyPc := congrArg Threads.copies ht
  have hset : (t.setCopy i dir pc).threads =
      { t.threads with copies := (t.setCopy i dir pc).copyPc } := by
    cases dir <;> exact threads_setStream_copies rfl
  rw [hset, ht]
  refine .copy hstarted (fun j hj => ?_) hlimits fun d hd => ?_
  · change _ = s.copyPc j
    rw [← hsame]
    cases dir <;> exact copyPc_setStream_of_ne hj
  · change (s.copyPc i d).metering ∨ brings
    rw [← hsame]
    cases dir <;> cases d <;> simp [setCopy, setStream, copyPc] at hd ⊢ <;> tauto

theorem copyStep_move {dir : CopyDirection} {readEnd : ReadEnd}
    (h : s.copyStep i dir data readEnd ok n now = some s') :
    s.threads.Move (data ≠ []) s'.threads := by
  cases hpc : s.copyPc i dir <;> simp only [copyStep, hpc, reduceCtorEq] at h <;>
    have hstarted : s.copyPc i dir ≠ .notStarted := by simp [hpc]
  case read =>
    obtain ⟨-, rfl⟩ := of_guard h
    refine setCopy_move rfl hstarted (fun _ => rfl) ?_
    split_ifs with hdata
    · cases readEnd <;> rintro ⟨⟩
    · exact fun _ => hdata
  case limit data readEnd =>
    cases h
    refine setCopy_move rfl hstarted (by rw [hpc]; rintro ⟨⟩) ?_
    split_ifs <;> rintro ⟨⟩
  case write data readEnd =>
    obtain ⟨-, rfl⟩ := of_guard_not h
    refine setCopy_move ?_ hstarted (fun _ => rfl) ?_
    · cases dir with
      | upload => rfl
      | download => exact threads_setStream_same rfl ⟨rfl, rfl⟩
    · split_ifs
      · cases readEnd <;> rintro ⟨⟩
      · rintro ⟨⟩
  case send result =>
    cases h
    exact setCopy_move (threads_setStream_same rfl ⟨rfl, rfl⟩) hstarted (fun _ => rfl)
      (by rintro ⟨⟩)

theorem setReader_move {pc : UDPReadPc} (ht : t.threads = { s.threads with limits := limits })
    (hlive : s.live (.reader k)) (hpc : pc.live) :
    s.threads.Move brings (t.setReader k pc).threads :=
  stay_move hlive hpc (threads_setUDP ..) ht

theorem udpReadStep_move (h : s.udpReadStep k data failed ok now = some s') :
    s.threads.Move brings s'.threads := by
  have hafter : ∀ failed, (afterUDPRead failed).live := by decide
  cases hpc : (s.udp k).reader
  case notStarted | stopped => simp [udpReadStep, hpc] at h
  all_goals have hlive : s.live (.reader k) := by rw [live, hpc]; rfl
  case send packets failed =>
    cases packets with
    | nil =>
      simp only [udpReadStep, hpc] at h
      cases h
      exact setReader_move rfl hlive (hafter failed)
    | cons pkt rest =>
      simp only [udpReadStep, hpc] at h
      split_ifs at h <;> cases h <;> exact setReader_move rfl hlive rfl
  all_goals simp only [udpReadStep, hpc, map_eq_some_iff] at h
  case closing =>
    obtain ⟨r, hr, rfl⟩ := h
    have ht := (closeStep_shuts hr).threads
    split_ifs
    · exact setReader_move ht hlive rfl
    · rw [ht]
      exact .same
  case closeFlow pc =>
    obtain ⟨r, hr, rfl⟩ := h
    refine setReader_move (closeFlowStep_shuts hr).threads hlive ?_
    cases r.2 <;> rfl
  case read =>
    obtain ⟨-, rfl⟩ := of_guard h
    refine setReader_move rfl hlive ?_
    split_ifs
    · exact hafter failed
    · rfl
  case limit data failed | checkDone =>
    cases h
    refine setReader_move rfl hlive ?_
    split_ifs <;> rfl
  case fragment data failed =>
    cases h
    refine stay_move hlive ?_ (threads_setUDP ..) rfl
    split <;> rfl
  case exiting =>
    cases h
    exact stop_move hlive (threads_setUDP ..) rfl

theorem countStep_threads (s : QUICSession) (delta : ℤ) (clamps : Bool) (pc : CounterPc) :
    (s.countStep delta clamps pc).1.threads = s.threads := by
  cases pc <;> rfl

theorem datagramReadStep_move {raw : Option Bytes} (h : s.datagramReadStep raw now = some s') :
    s.threads.Move brings s'.threads := by
  cases hpc : s.datagramReader <;> simp only [datagramReadStep, hpc, reduceCtorEq] at h <;>
    have hlive : s.live .datagramReader := by rw [live, hpc]; rfl
  case receive =>
    cases raw with
    | none =>
      cases h
      exact stay_move hlive rfl (threads_datagramReader ..) rfl
    | some raw =>
      obtain ⟨-, h⟩ := ite_none_left_eq_some.mp h
      split at h <;> cases h
      · exact stay_move hlive rfl (threads_datagramReader ..) rfl
      · exact .same
  case limit pkt =>
    cases h
    refine stay_move hlive ?_
      (threads_datagramReader { s with limits := (s.limits.allowUDPPacket s.id now).1 } _) rfl
    split_ifs <;> rfl
  case enqueue pkt =>
    split_ifs at h <;> cases h <;> exact stay_move hlive rfl (threads_datagramReader ..) rfl
  case count pc =>
    cases h
    refine stay_move hlive ?_ (threads_datagramReader ..) (countStep_threads ..)
    cases (s.countStep 1 false pc).2 <;> rfl
  case exiting =>
    cases h
    exact stop_move hlive (threads_datagramReader { s with wg := s.wg - 1 } _) rfl

theorem setWorker_move {pc : WorkerPc} (ht : t.threads = { s.threads with limits := limits })
    (hlive : s.live (.worker i)) (hpc : pc.live) :
    s.threads.Move brings (t.setWorker i pc).threads :=
  stay_move hlive hpc (threads_setWorker ..) ht

theorem workerStep_move (h : s.workerStep i ok now = some s') :
    s.threads.Move brings s'.threads := by
  cases hpc : s.workers i <;>
    simp only [workerStep, hpc, map_eq_some_iff, takeTask, reduceCtorEq] at h <;>
    have hlive : s.live (.worker i) := by rw [live, hpc]; rfl
  case receive | drain =>
    split_ifs at h
    · split at h
      · cases h
      · cases h
        exact setWorker_move rfl hlive rfl
    · cases h
      exact setWorker_move rfl hlive rfl
  case count task pc =>
    cases h
    refine setWorker_move (s.countStep_threads (-1) true pc) hlive ?_
    cases (s.countStep (-1) true pc).2
    · cases task <;> rfl
    · rfl
  case reassemble pkt =>
    cases h
    refine setWorker_move rfl hlive ?_
    cases (s.reassembly.add now pkt).2 <;> rfl
  case limit flowID payload =>
    cases h
    refine setWorker_move rfl hlive ?_
    split_ifs <;> rfl
  case lookup flowID payload =>
    cases h
    refine setWorker_move rfl hlive ?_
    cases s.udpFlows.lookup flowID <;> rfl
  case write k flowID payload =>
    split_ifs at h <;> cases h
    · exact setWorker_move (threads_setUDP_same rfl) hlive rfl
    · exact setWorker_move rfl hlive rfl
  case closing =>
    obtain ⟨r, hr, rfl⟩ := h
    have ht := (closeStep_shuts hr).threads
    split_ifs
    · exact setWorker_move ht hlive rfl
    · rw [ht]
      exact .same
  case closeFlow k pc =>
    obtain ⟨r, hr, rfl⟩ := h
    refine setWorker_move (closeFlowStep_shuts hr).threads hlive ?_
    cases r.2 <;> rfl
  case exiting =>
    cases h
    exact stop_move hlive (threads_setWorker ..) rfl

end QUICSession
end VlfProto.Session
