import VlfProto.Session.QUIC.Beside

/-! # The goroutines beside the control loop -/

namespace VlfProto.Session
open Platform Transition Option

namespace QUICSession

variable {s s' t : QUICSession} {i k n : ℕ} {ok failed : Bool} {data : Bytes} {now : ℤ}
  {frame : Option Frame} {label : QUICSessionStep}

theorem acceptorStep_aside (h : s.acceptorStep ok = some s') : s.Aside s' := by
  cases hpc : s.acceptor <;> simp only [acceptorStep, hpc, some.injEq,
    map_eq_some_iff, reduceCtorEq] at h
  case accept =>
    split_ifs at h <;> cases h <;> exact (Aside.refl s).of_view rfl rfl
  case closing =>
    obtain ⟨r, hr, rfl⟩ := h
    split_ifs <;> exact (closeStep_shuts hr).toAside.of_view rfl rfl
  case exiting =>
    subst h
    exact (Aside.refl s).of_view rfl rfl

theorem pingerStep_still (h : s.pingerStep ok = some s') : s.Still s' := by
  cases hpc : s.pinger <;> simp only [pingerStep, hpc, some.injEq,
    map_eq_some_iff, reduceCtorEq] at h
  case wait =>
    split_ifs at h <;> cases h <;> exact (Still.refl s).of_view rfl rfl
  case write =>
    obtain ⟨t, hwrite, rfl⟩ := h
    exact ((Still.refl s).send rfl hwrite).of_view rfl rfl
  case exiting =>
    subst h
    exact (Still.refl s).of_view rfl rfl

theorem streamStep_aside {flowID : Option UInt64} (h : s.streamStep i flowID ok = some s') :
    s.Aside s' := by
  cases hpc : (s.streams i).handler <;> simp only [streamStep, hpc, some.injEq,
    map_eq_some_iff, reduceCtorEq] at h
  case attach k =>
    split_ifs at h <;> cases h
    · exact (Aside.refl s).of_view rfl rfl
    · refine Aside.of_view (t := s.setTCP k { s.tcp k with stream := some i }) ?_ rfl rfl
      exact (Aside.refl s).setTCP rfl fun h => h
  case await k =>
    split at h
    · cases h
    · cases h
      exact (Aside.refl s).of_view rfl rfl
  case closing =>
    obtain ⟨r, hr, rfl⟩ := h
    split_ifs <;> exact (closeStep_shuts hr).toAside.of_view rfl rfl
  case closeFlow k pc =>
    obtain ⟨r, hr, rfl⟩ := h
    exact (closeFlowStep_shuts hr).toAside.of_view rfl rfl
  all_goals
    subst h
    exact (Aside.refl s).of_view rfl rfl

theorem Still.setCopy {dir : CopyDirection} {pc : CopyPc} (h : s.Still t) :
    s.Still (t.setCopy i dir pc) := by
  cases dir <;> exact h.withStream rfl

theorem deliver_still (s : QUICSession) (i : ℕ) (dir : CopyDirection) (data : Bytes) :
    s.Still (s.deliver i dir data) := by
  cases dir with
  | upload => exact (Still.refl s).withTCP rfl (fun h => h) rfl
  | download => exact (Still.refl s).withStream rfl

theorem copyStep_still {dir : CopyDirection} {readEnd : ReadEnd}
    (h : s.copyStep i dir data readEnd ok n now = some s') : s.Still s' := by
  cases hpc : s.copyPc i dir <;> simp only [copyStep, hpc, some.injEq, reduceCtorEq] at h
  case read =>
    obtain ⟨-, rfl⟩ := of_guard h
    exact (Still.refl s).setCopy
  case limit data readEnd =>
    subst h
    refine Still.setCopy ?_
    exact (Still.refl s).of_view rfl rfl
  case write data readEnd =>
    obtain ⟨-, rfl⟩ := of_guard_not h
    exact (s.deliver_still i dir _).setCopy
  case send result =>
    subst h
    refine Still.setCopy ?_
    exact (Still.refl s).withStream rfl

theorem Aside.setReader {pc : UDPReadPc} (h : s.Aside t) : s.Aside (t.setReader k pc) :=
  h.setUDP rfl (fun h => h) rfl

theorem udpReadStep_aside (h : s.udpReadStep k data failed ok now = some s') : s.Aside s' := by
  have hb := Aside.refl s
  cases hpc : (s.udp k).reader
  case send packets failed =>
    cases packets with
    | nil =>
      simp only [udpReadStep, hpc] at h
      cases h
      exact hb.setReader
    | cons pkt rest =>
      simp only [udpReadStep, hpc] at h
      split_ifs at h <;> cases h
      · refine Aside.setReader ?_
        exact hb.of_view rfl rfl
      · exact hb.setReader
  case closing =>
    simp only [udpReadStep, hpc, map_eq_some_iff] at h
    obtain ⟨r, hr, rfl⟩ := h
    split_ifs
    · exact (closeStep_shuts hr).toAside.setReader
    · exact (closeStep_shuts hr).toAside
  case closeFlow pc =>
    simp only [udpReadStep, hpc, map_eq_some_iff] at h
    obtain ⟨r, hr, rfl⟩ := h
    exact (closeFlowStep_shuts hr).toAside.setReader
  case notStarted | stopped => simp [udpReadStep, hpc] at h
  all_goals simp only [udpReadStep, hpc] at h
  case read =>
    obtain ⟨-, rfl⟩ := of_guard h
    exact hb.setReader
  case limit data failed | exiting =>
    cases h
    refine Aside.setReader ?_
    exact hb.of_view rfl rfl
  case fragment data failed =>
    cases h
    exact hb.setUDP rfl (fun h => h) rfl
  case checkDone =>
    cases h
    exact hb.setReader

theorem countStep_quiet (s : QUICSession) (delta : ℤ) (clamps : Bool) (pc : CounterPc) :
    s.Quiet (s.countStep delta clamps pc).1 := by cases pc <;> exact .of_eq rfl

theorem datagramReadStep_quiet {raw : Option Bytes} (h : s.datagramReadStep raw now = some s') :
    s.Quiet s' := by
  cases hpc : s.datagramReader <;> simp only [datagramReadStep, hpc, some.injEq,
    reduceCtorEq] at h
  case receive =>
    split at h
    · cases h
      exact .of_eq rfl
    · obtain ⟨-, h⟩ := ite_none_left_eq_some.mp h
      split at h <;> cases h <;> exact .of_eq rfl
  case enqueue pkt => split_ifs at h <;> cases h <;> exact .of_eq rfl
  case count pc =>
    subst h
    exact (s.countStep_quiet 1 false pc).of_view rfl
  all_goals
    subst h
    exact .of_eq rfl

theorem takeTask_beside {counted : DatagramPacket → WorkerPc} (h : s.takeTask i counted = some s') :
    s.Beside s' := by
  unfold takeTask at h
  split at h
  · cases h
  · cases h
    exact (Beside.refl s).of_view rfl

theorem workerStep_beside (h : s.workerStep i ok now = some s') : s.Beside s' := by
  have hb := Beside.refl s
  cases hpc : s.workers i <;> simp only [workerStep, hpc, some.injEq,
    map_eq_some_iff, reduceCtorEq] at h
  case receive | drain =>
    split_ifs at h
    · exact takeTask_beside h
    · cases h
      exact hb.of_view rfl
  case count task pc =>
    subst h
    exact (s.countStep_quiet (-1) true pc).toBeside.of_view rfl
  case write k flowID payload =>
    split_ifs at h <;> cases h
    · refine Beside.of_view (t := s.setUDP k { s.udp k with
        written := (s.udp k).written ++ [payload] }) ?_ rfl
      exact hb.setUDP rfl fun h => h
    · exact hb.of_view rfl
  case closing =>
    obtain ⟨r, hr, rfl⟩ := h
    split_ifs <;> exact (closeStep_shuts hr).toBeside.of_view rfl
  case closeFlow k pc =>
    obtain ⟨r, hr, rfl⟩ := h
    exact (closeFlowStep_shuts hr).toBeside.of_view rfl
  all_goals
    subst h
    exact hb.of_view rfl

theorem closerStep_still (h : s.closerStep i = some s') : s.Still s' := by
  unfold closerStep at h
  split at h
  · obtain ⟨r, hr, rfl⟩ := map_eq_some_iff.mp h
    split_ifs <;> exact (closeStep_shuts hr).toStill.of_view rfl rfl
  · cases h

/-- `Run` starts the control loop, and otherwise changes nothing but its own program counter
that others do not. -/
theorem runStep_still (h : s.runStep frame ok = some s') :
    s.Still { s' with run := s.run } ∨ s.run = .start ∧ s' = { s.start with run := .waitDone } := by
  have hb := Still.refl s
  cases hpc : s.run <;> simp only [runStep, hpc, some.injEq, map_eq_some_iff,
    reduceCtorEq] at h
  case start => exact .inr ⟨rfl, h.symm⟩
  case readFirst =>
    obtain ⟨pc, -, rfl⟩ := h
    exact .inl (hb.of_view (by rw [← hpc]) rfl)
  case authFail | writeAuthOK =>
    obtain ⟨t, hwrite, rfl⟩ := h
    have ht := hb.send rfl hwrite
    exact .inl (ht.of_view (by rw [← hpc, ← ht.run]) rfl)
  case waitDone | waitGroup =>
    obtain ⟨-, rfl⟩ := of_guard h
    exact .inl (hb.of_view (by rw [← hpc]) rfl)
  case deferredClose =>
    obtain ⟨r, hr, rfl⟩ := h
    have ht := (closeStep_shuts hr).toStill
    left
    split_ifs <;> exact ht.of_view (by rw [← hpc, ← ht.run]) rfl
  all_goals
    subst h
    exact .inl (hb.of_view (by simp [flowView, openView, hpc]) rfl)

theorem step_beside (hrun : ∀ frame ok, label ≠ .run frame ok)
    (hcontrol : ∀ frame ok, label ≠ .control frame ok) (h : s.step label = some s') :
    s.Beside s' := by
  cases label with
  | run frame ok => exact absurd rfl (hrun frame ok)
  | control frame ok => exact absurd rfl (hcontrol frame ok)
  | acceptor ok => exact (acceptorStep_aside h).toBeside
  | pinger ok => exact (pingerStep_still h).toBeside
  | stream i flowID ok => exact (streamStep_aside h).toBeside
  | copy i dir data readEnd ok n now => exact (copyStep_still h).toBeside
  | udpReader k data failed ok now => exact (udpReadStep_aside h).toBeside
  | datagramReader raw now => exact (datagramReadStep_quiet h).toBeside
  | worker i ok now => exact workerStep_beside h
  | callClose i =>
    obtain ⟨-, rfl⟩ := of_guard h
    exact (Beside.refl s).of_view rfl
  | closer i => exact (closerStep_still h).toBeside

end QUICSession
end VlfProto.Session
