import VlfProto.Session.QUIC.ControlSteps

/-! # The handlers of streams -/

namespace VlfProto.Session
open Platform Transition Option

section Deleted

variable {pc : SessionCloseFlowPc} {k : ℕ} (h : ∀ flowID notify, pc ≠ .delete flowID notify)
include h

theorem StreamPc.aim_closeFlow : (StreamPc.closeFlow k pc).aim = none := by
  cases pc with
  | delete flowID notify => exact absurd rfl (h flowID notify)
  | _ => rfl

theorem WorkerPc.aim_closeFlow : (WorkerPc.closeFlow k pc).aim = none := by
  cases pc with
  | delete flowID notify => exact absurd rfl (h flowID notify)
  | _ => rfl

theorem UDPReadPc.mayClose_closeFlow : (UDPReadPc.closeFlow pc).mayClose = false := by
  cases pc with
  | delete flowID notify => exact absurd rfl (h flowID notify)
  | _ => rfl

end Deleted

namespace QUICSession

variable {s s' s₁ : QUICSession} {g : SessionGoroutine} {i k : ℕ} {ok : Bool}

theorem closeFlowStep_next {pc next : SessionCloseFlowPc}
    (h : s.closeFlowStep g ok pc = some (s', some next)) :
    ∀ flowID notify, next ≠ .delete flowID notify := by
  rintro flowID notify rfl
  cases pc with
  | delete id notify =>
    have hnext := (Prod.mk.inj (some.inj h)).2
    split at hnext <;> cases hnext
  | closeTCP k udp id notify =>
    obtain ⟨r, -, hpair⟩ := map_eq_some_iff.mp h
    have hnext := (Prod.mk.inj hpair).2
    split_ifs at hnext
    · cases udp <;> cases notify <;> cases hnext
    · cases hnext
  | closeUDP k id notify =>
    have hnext := (Prod.mk.inj (some.inj h)).2
    cases notify <;> cases hnext
  | notify id =>
    obtain ⟨s₁, -, hpair⟩ := map_eq_some_iff.mp h
    cases (Prod.mk.inj hpair).2

theorem Quiet.moveHandler {stream : FlowStream} (h : s.Quiet s₁)
    (hstarted : (s.streams i).handler ≠ .notAccepted)
    (haim : ∀ k, stream.handler.aim = some k → s.Held ⟨.tcp, k⟩ ∨ s.Filed ⟨.tcp, k⟩)
    (hcloses : ∀ k pc, stream.handler = .closeFlow k pc → s.Enters (.stream i) ⟨.tcp, k⟩ pc)
    (hearly : stream.handler.early → (s.streams i).handler.early) :
    s.Drifts (s₁.setStream i stream) := by
  have hset : s.Drifts { s₁.setStream i stream with accepted := s₁.accepted } :=
    h.setStream h.accepted.ge (fun _ => hstarted) haim hcloses hearly
  exact hset

theorem Quiet.dropHandler {stream : FlowStream} (h : s.Quiet s₁)
    (hstarted : (s.streams i).handler ≠ .notAccepted) (haim : stream.handler.aim = none)
    (hcloses : ∀ k pc, stream.handler ≠ .closeFlow k pc)
    (hearly : stream.handler.early → (s.streams i).handler.early) :
    s.Drifts (s₁.setStream i stream) := by
  apply h.moveHandler hstarted _ _ hearly
  · intro k hk
    rw [haim] at hk
    cases hk
  · exact fun k pc hpc => absurd hpc (hcloses k pc)

theorem attach_drifts (h : (s.streams i).handler = .attach k) :
    s.Drifts ((s.setTCP k { s.tcp k with stream := some i }).setHandler i (.pump k)) := by
  have hheld : s.Held ⟨.tcp, k⟩ := ⟨i, by rw [h]; rfl⟩
  have hd : s.Drifts (s.setHandler i (.pump k)) := by
    apply (Quiet.refl s).moveHandler
    · simp [h]
    · rintro j ⟨⟩
      exact .inl hheld
    · rintro j pc ⟨⟩
    · rintro ⟨⟩
  have htcp : ∀ j, (((s.setTCP k { s.tcp k with stream := some i }).setHandler i (.pump k)).tcp
      j).id = (s.tcp j).id := by
    intro j
    by_cases hj : j = k <;> simp [setHandler, QUICSession.setStream, setTCP, hj]
  refine ⟨hd.created, fun f hf => ?_, hd.table, hd.held, hd.closes,
    fun f id hf => .inl hf, hd.writes, fun j i' hj => ?_, hd.early, hd.accepted⟩
  · obtain ⟨kind, j⟩ := f
    cases kind with
    | tcp => exact htcp j
    | udp => exact hd.flowID ⟨.udp, j⟩ hf
  · by_cases hjk : j = k
    · subst hjk
      simp only [setHandler, QUICSession.setStream, setTCP, Function.update_self] at hj
      cases hj
      refine .inr ⟨h, ?_⟩
      simp [setHandler, QUICSession.setStream]
    · simp only [setHandler, QUICSession.setStream, setTCP, Function.update_of_ne hjk] at hj
      exact .inl hj

/-- A handler whose copies have ended gives its flow up, or comes to close it. -/
theorem awaited_drifts (h : (s.streams i).handler = .await k) (result : CopyResult)
    (rest : List CopyResult) :
    s.Drifts (s.setStream i { s.streams i with
      errCh := rest
      handler := if result = .limited then .closing
        else .closeFlow k (.delete (s.tcp k).id true) }) := by
  have hheld : s.Held ⟨.tcp, k⟩ := ⟨i, by rw [h]; rfl⟩
  by_cases hlimited : result = .limited
  · apply (Quiet.refl s).dropHandler <;> simp [h, hlimited, StreamPc.aim, StreamPc.early]
  · apply (Quiet.refl s).moveHandler
    · simp [h]
    · intro j hj
      simp only [if_neg hlimited] at hj
      cases hj
      exact .inl hheld
    · intro j pc hj
      simp only [if_neg hlimited] at hj
      obtain ⟨rfl, rfl⟩ := StreamPc.closeFlow.inj hj
      exact .inl ⟨hheld, true, rfl⟩
    · simp [hlimited, StreamPc.early]

theorem handlerCloses_drifts {pc : SessionCloseFlowPc} {next : Option SessionCloseFlowPc}
    (h : (s.streams i).handler = .closeFlow k pc)
    (hr : s.closeFlowStep (.stream i) ok pc = some (s₁, next)) :
    s.Drifts (s₁.setHandler i (next.elim .exiting (.closeFlow k))) := by
  have hquiet := (closeFlowStep_shuts hr).toQuiet
  cases next with
  | none => apply hquiet.dropHandler <;> simp [h, StreamPc.aim, StreamPc.early]
  | some next =>
    apply hquiet.moveHandler
    · simp [h]
    · intro j hj
      change (StreamPc.closeFlow k next).aim = some j at hj
      rw [StreamPc.aim_closeFlow (closeFlowStep_next hr)] at hj
      cases hj
    · intro j pc' hj
      obtain ⟨rfl, rfl⟩ := StreamPc.closeFlow.inj hj
      refine .inr ⟨pc, ok, s₁, ?_, hr⟩
      simp [QUICSession.closing, h]
    · rintro ⟨⟩

theorem streamStep_drifts {flowID : Option UInt64} (h : s.streamStep i flowID ok = some s') :
    s.Drifts s' := by
  cases hpc : (s.streams i).handler <;> simp only [streamStep, hpc, some.injEq,
    map_eq_some_iff, reduceCtorEq] at h
  case readID =>
    subst h
    apply (Quiet.refl s).dropHandler
    · simp [hpc]
    all_goals cases flowID <;> simp [hpc, StreamPc.aim, StreamPc.early]
  case lookup id =>
    subst h
    cases hlookup : s.tcpFlows.lookup id with
    | none =>
      apply (Quiet.refl s).dropHandler <;> simp [hpc, StreamPc.aim, StreamPc.early]
    | some k =>
      apply (Quiet.refl s).moveHandler
      · simp [hpc]
      · rintro j ⟨⟩
        exact .inr ⟨id, hlookup⟩
      · rintro j pc ⟨⟩
      · simp [hpc, StreamPc.early]
  case closeStream =>
    subst h
    have hquiet : s.Quiet (s.closeStream i) := (Quiet.refl s).withStream rfl
    apply hquiet.dropHandler <;> simp [hpc, StreamPc.aim, StreamPc.early]
  case attach k =>
    split_ifs at h <;> cases h
    · apply (Quiet.refl s).dropHandler <;> simp [hpc, StreamPc.aim, StreamPc.early]
    · exact attach_drifts hpc
  case pump k =>
    subst h
    apply (Quiet.refl s).moveHandler
    · simp [hpc]
    · rintro j ⟨⟩
      exact .inl ⟨i, by rw [hpc]; rfl⟩
    · rintro j pc ⟨⟩
    · rintro ⟨⟩
  case await k =>
    split at h
    · cases h
    · rename_i result rest herr
      cases h
      exact awaited_drifts hpc result rest
  case closing =>
    obtain ⟨r, hr, rfl⟩ := h
    have hquiet := (closeStep_shuts hr).toQuiet
    split_ifs
    · apply hquiet.dropHandler <;> simp [hpc, StreamPc.aim, StreamPc.early]
    · exact hquiet.drifts
  case closeFlow k pc =>
    obtain ⟨⟨s₁, next⟩, hr, rfl⟩ := h
    exact handlerCloses_drifts hpc hr
  case exiting =>
    subst h
    have hdone : s.Quiet { s with wg := s.wg - 1 } := .of_eq rfl
    apply hdone.dropHandler <;> simp [hpc, StreamPc.aim, StreamPc.early]

variable {failed : Bool} {now : ℤ} {data : Bytes} {next : Option SessionCloseFlowPc}
  {pc : SessionCloseFlowPc}

theorem Quiet.moveReader {pc : UDPReadPc} (h : s.Quiet s₁)
    (hmay : pc.mayClose → s.Held ⟨.udp, k⟩)
    (hcloses : ∀ flowPc, pc = .closeFlow flowPc → s.Enters (.udpReader k) ⟨.udp, k⟩ flowPc) :
    s.Drifts (s₁.setReader k pc) :=
  h.setUDP (h.flowID ⟨.udp, k⟩) hmay hcloses

theorem Quiet.loopReader {pc : UDPReadPc} (h : s.Quiet s₁) (hheld : s.Held ⟨.udp, k⟩)
    (hcloses : ∀ flowPc, pc = .closeFlow flowPc →
      flowPc = .delete (s.udp k).id true) : s.Drifts (s₁.setReader k pc) := by
  apply h.moveReader (fun _ => hheld)
  intro flowPc hpc
  rw [hcloses flowPc hpc]
  exact .inl ⟨hheld, true, rfl⟩

theorem readerCloses_drifts (h : (s.udp k).reader = .closeFlow pc)
    (hr : s.closeFlowStep (.udpReader k) ok pc = some (s₁, next)) :
    s.Drifts (s₁.setReader k (next.elim .exiting .closeFlow)) := by
  have hquiet := (closeFlowStep_shuts hr).toQuiet
  cases next with
  | none => exact hquiet.moveReader (by rintro ⟨⟩) (by rintro flowPc ⟨⟩)
  | some next =>
    apply hquiet.moveReader
    · intro hmay
      change (UDPReadPc.closeFlow next).mayClose = true at hmay
      rw [UDPReadPc.mayClose_closeFlow (closeFlowStep_next hr)] at hmay
      cases hmay
    · intro pc' hclose
      obtain rfl := UDPReadPc.closeFlow.inj hclose
      refine .inr ⟨pc, ok, s₁, ?_, hr⟩
      simp [QUICSession.closing, h]

theorem udpReadStep_drifts (h : s.udpReadStep k data failed ok now = some s') : s.Drifts s' := by
  have hheld (hmay : (s.udp k).reader.mayClose) : s.Held ⟨.udp, k⟩ := .inl hmay
  cases hpc : (s.udp k).reader <;> simp only [udpReadStep, hpc, some.injEq,
    map_eq_some_iff, reduceCtorEq] at h
  case read =>
    obtain ⟨-, rfl⟩ := of_guard h
    apply (Quiet.refl s).loopReader (hheld (by rw [hpc]; rfl))
    intro flowPc hclose
    unfold afterUDPRead at hclose
    split_ifs at hclose
  case limit data failed =>
    subst h
    refine Quiet.loopReader (.of_eq ?_) (hheld (by rw [hpc]; rfl)) fun flowPc hclose => ?_
    · rfl
    · split_ifs at hclose
  case fragment data failed =>
    subst h
    have hk := hheld (by rw [hpc]; rfl)
    refine Quiet.setUDP (.refl s) ?_ (fun _ => hk) fun flowPc hclose => ?_
    · rfl
    · dsimp only at hclose
      split at hclose
      · cases hclose
      · obtain rfl := UDPReadPc.closeFlow.inj hclose
        exact .inl ⟨hk, true, rfl⟩
  case send packets failed =>
    have hk := hheld (by rw [hpc]; rfl)
    cases packets with
    | nil =>
      cases h
      apply (Quiet.refl s).loopReader hk
      intro flowPc hclose
      unfold afterUDPRead at hclose
      split_ifs at hclose
    | cons pkt rest =>
      simp only at h
      split_ifs at h <;> cases h
      · exact Quiet.loopReader (.of_eq rfl) hk (by rintro flowPc ⟨⟩)
      · apply (Quiet.refl s).loopReader hk
        rintro flowPc ⟨⟩
        rfl
  case checkDone =>
    subst h
    apply (Quiet.refl s).loopReader (hheld (by rw [hpc]; rfl))
    intro flowPc hclose
    split_ifs at hclose
    exact (UDPReadPc.closeFlow.inj hclose).symm
  case closing =>
    obtain ⟨r, hr, rfl⟩ := h
    have hquiet := (closeStep_shuts hr).toQuiet
    split_ifs
    · exact hquiet.moveReader (by rintro ⟨⟩) (by rintro flowPc ⟨⟩)
    · exact hquiet.drifts
  case closeFlow pc =>
    obtain ⟨⟨s₁, next⟩, hr, rfl⟩ := h
    exact readerCloses_drifts hpc hr
  case exiting =>
    subst h
    exact Quiet.moveReader (.of_eq rfl) (by rintro ⟨⟩) (by rintro flowPc ⟨⟩)

theorem Quiet.idleWorker {pc : WorkerPc} (h : s.Quiet s₁) (haim : pc.aim = none)
    (hcloses : ∀ k flowPc, pc ≠ .closeFlow k flowPc)
    (hwrites : ∀ k id payload, pc ≠ .write k id payload) : s.Drifts (s₁.setWorker i pc) := by
  apply h.setWorker
  · intro k hk
    rw [haim] at hk
    cases hk
  · exact fun k flowPc hpc => absurd hpc (hcloses k flowPc)
  · exact fun k id payload hpc => absurd hpc (hwrites k id payload)

theorem takeTask_drifts {counted : DatagramPacket → WorkerPc}
    (hcounted : ∀ pkt, ∃ task pc, counted pkt = .count task pc)
    (h : s.takeTask i counted = some s') : s.Drifts s' := by
  unfold takeTask at h
  split at h
  · cases h
  · rename_i pkt rest hqueue
    cases h
    obtain ⟨task, pc, hcount⟩ := hcounted pkt
    rw [hcount]
    exact Quiet.idleWorker (.of_eq rfl) rfl (by simp) (by simp)

theorem workerCloses_drifts (h : s.workers i = .closeFlow k pc)
    (hr : s.closeFlowStep (.worker i) ok pc = some (s₁, next)) :
    s.Drifts (s₁.setWorker i (next.elim .receive (.closeFlow k))) := by
  have hquiet := (closeFlowStep_shuts hr).toQuiet
  cases next with
  | none => exact hquiet.idleWorker rfl (by simp) (by simp)
  | some next =>
    apply hquiet.setWorker
    · intro j hj
      change (WorkerPc.closeFlow k next).aim = some j at hj
      rw [WorkerPc.aim_closeFlow (closeFlowStep_next hr)] at hj
      cases hj
    · intro j pc' hclose
      obtain ⟨rfl, rfl⟩ := WorkerPc.closeFlow.inj hclose
      refine .inr ⟨pc, ok, s₁, ?_, hr⟩
      simp [QUICSession.closing, h]
    · rintro j id' payload' ⟨⟩

theorem workerStep_drifts (hwrites : ∀ i k id payload, s.workers i = .write k id payload →
      s.flowID ⟨.udp, k⟩ = id) (h : s.workerStep i ok now = some s') : s.Drifts s' := by
  cases hpc : s.workers i <;> simp only [workerStep, hpc, some.injEq,
    map_eq_some_iff, reduceCtorEq] at h
  case receive | drain =>
    split_ifs at h
    · exact takeTask_drifts (fun pkt => ⟨_, _, rfl⟩) h
    · cases h
      exact (Quiet.refl s).idleWorker rfl (by simp) (by simp)
  case count task pc =>
    subst h
    cases (s.countStep (-1) true pc).2 <;> cases task <;>
      exact (countStep_quiet s (-1) true pc).idleWorker rfl (by simp) (by simp)
  case reassemble pkt =>
    subst h
    cases (s.reassembly.add now pkt).2 <;>
      exact Quiet.idleWorker (.of_eq rfl) rfl (by simp) (by simp)
  case limit id payload =>
    subst h
    split_ifs <;> exact Quiet.idleWorker (.of_eq rfl) rfl (by simp) (by simp)
  case lookup id payload =>
    subst h
    cases hlookup : s.udpFlows.lookup id with
    | none => exact (Quiet.refl s).idleWorker rfl (by simp) (by simp)
    | some k =>
      apply (Quiet.refl s).setWorker
      · rintro j ⟨⟩
        exact .inr ⟨id, hlookup⟩
      · rintro j flowPc ⟨⟩
      · rintro j id' payload' ⟨⟩
        exact hlookup
  case write k id payload =>
    have hheld : s.Held ⟨.udp, k⟩ := .inr (.inr ⟨i, by rw [hpc]; rfl⟩)
    split_ifs at h <;> cases h
    · have hquiet : s.Quiet
          (s.setUDP k { s.udp k with written := (s.udp k).written ++ [payload] }) :=
        (Quiet.refl s).withUDP rfl (fun h => h) rfl
      exact hquiet.idleWorker rfl (by simp) (by simp)
    · apply (Quiet.refl s).setWorker
      · rintro j ⟨⟩
        exact .inl hheld
      · intro j flowPc hclose
        obtain ⟨rfl, rfl⟩ := WorkerPc.closeFlow.inj hclose
        exact .inl ⟨hheld, true, by rw [hwrites i k id payload hpc]⟩
      · rintro j id' payload' ⟨⟩
  case closing =>
    obtain ⟨r, hr, rfl⟩ := h
    have hquiet := (closeStep_shuts hr).toQuiet
    split_ifs
    · exact hquiet.idleWorker rfl (by simp) (by simp)
    · exact hquiet.drifts
  case closeFlow k pc =>
    obtain ⟨⟨s₁, next⟩, hr, rfl⟩ := h
    exact workerCloses_drifts hpc hr
  case exiting =>
    subst h
    exact Quiet.idleWorker (.of_eq rfl) rfl (by simp) (by simp)

end QUICSession
end VlfProto.Session
