import VlfProto.Client.PendingRuns

/-! # Where an answer comes from -/

namespace VlfProto.Client
open Platform Transition Function List

theorem PendingKey.of_result_flow {key : PendingKey} {out : Option Bool}
    (h : key.result out = .flow) : ∃ flowID, key = .tcp flowID ∧ out = some true := by
  rcases out with _ | _ | _ <;> cases key <;> first | exact ⟨_, rfl, rfl⟩ | cases h

namespace PendingState

variable {s t : PendingState} {key : PendingKey} {k c : ℕ} {ok : Bool} {r : Reply Bool}

def Confirmed (s : PendingState) (key : PendingKey) : Prop := (key, true) ∈ s.read

structure Answered (s : PendingState) : Prop where
  resolving : ∀ key, s.reader = .resolve key true → s.Confirmed key
  sending : ∀ key c ok, s.reader = .send key c ok →
    (s.calls c).key = key ∧ (ok = true → s.Confirmed key)
  value : ∀ c, (s.chans c).value = some true → s.Confirmed (s.calls c).key
  returned : ∀ k, (s.calls k).pc = .returned .flow →
    ∃ flowID, (s.calls k).key = .tcp flowID ∧ s.Confirmed (.tcp flowID)

theorem answered_initial : initial.Answered where
  resolving _ h := nomatch h
  sending _ _ _ h := nomatch h
  value _ h := nomatch h
  returned _ h := nomatch h

namespace Answered

theorem setPc (h : s.Answered) {pc : CallPc}
    (hpc : pc = .returned .flow →
      ∃ flowID, (s.calls k).key = .tcp flowID ∧ s.Confirmed (.tcp flowID)) :
    (s.setPc k pc).Answered := by
  refine { resolving := h.resolving, sending := ?_, value := ?_, returned := ?_ }
  · intro key c ok hread
    rw [Owned.key_setPc]
    exact h.sending key c ok hread
  · intro c hvalue
    rw [Owned.key_setPc]
    exact h.value c hvalue
  · intro k' hreturned
    rw [Owned.key_setPc]
    rw [Owned.calls_setPc] at hreturned
    split_ifs at hreturned with hk
    · subst hk
      exact hpc hreturned
    · exact h.returned k' hreturned

theorem setChan (h : s.Answered)
    (hvalue : r.value = some true → s.Confirmed (s.calls c).key) : (s.setChan c r).Answered := by
  refine { h with value := ?_ }
  intro c' hvalue'
  rw [Owned.chans_setChan] at hvalue'
  split_ifs at hvalue' with hc
  · subst hc
    exact hvalue hvalue'
  · exact h.value c' hvalue'

theorem setReader (h : s.Answered) {reader : ReaderPc}
    (hresolve : ∀ key, reader = .resolve key true → s.Confirmed key)
    (hsend : ∀ key c ok, reader = .send key c ok →
      (s.calls c).key = key ∧ (ok = true → s.Confirmed key)) : { s with reader }.Answered :=
  { h with resolving := hresolve, sending := hsend }

theorem setTable (h : s.Answered) (pending : Table PendingKey ℕ) (closer : CloserPc) :
    { s with pending, closer }.Answered :=
  ⟨h.resolving, h.sending, h.value, h.returned⟩

theorem call (h : s.Answered) (howned : s.Owned) (hstep : s.call key = some t) : t.Answered := by
  unfold PendingState.call at hstep
  split_ifs at hstep with hlock hfree
  cases hstep
  have hcalls : ∀ k, k < s.created →
      update s.calls s.created ⟨key, .writing⟩ k = s.calls k :=
    fun k hk => update_of_ne hk.ne _ _
  refine { resolving := h.resolving, sending := ?_, value := ?_, returned := ?_ }
  · intro key' c ok hread
    dsimp only
    rw [hcalls c (howned.sending key' c ok hread).1.created]
    exact h.sending key' c ok hread
  · intro c hvalue
    have hc : c < s.created := by
      by_contra hc
      rw [(howned.unborn c (not_lt.mp hc)).1] at hvalue
      cases hvalue
    dsimp only
    rw [hcalls c hc]
    exact h.value c hvalue
  · intro k hreturned
    dsimp only at hreturned ⊢
    rcases eq_or_ne k s.created with rfl | hk
    · rw [update_self] at hreturned
      cases hreturned
    · rw [update_of_ne hk] at hreturned ⊢
      exact h.returned k hreturned

theorem receive (h : s.Answered) (hstep : s.receive k = some t) : t.Answered := by
  unfold PendingState.receive at hstep
  split_ifs at hstep with hpc
  obtain ⟨⟨out, r⟩, hreceive, rfl⟩ := Option.map_eq_some_iff.mp hstep
  obtain ⟨-, -, hvalue⟩ := Reply.receive_counts hreceive
  have hchan : (s.setChan k r).Answered := h.setChan fun hr => h.value k (hvalue true hr)
  refine hchan.setPc fun hflow => ?_
  have hresult : (s.calls k).key.result out = .flow := CallPc.returned.inj hflow
  obtain ⟨flowID, hkey, rfl⟩ := PendingKey.of_result_flow hresult
  have hconfirmed := h.value k (Reply.receive_value hreceive)
  rw [hkey] at hconfirmed
  exact ⟨flowID, hkey, hconfirmed⟩

theorem unregister (h : s.Answered) (hstep : s.unregister k = some t) : t.Answered := by
  unfold PendingState.unregister at hstep
  split_ifs at hstep with hlock hpc
  have herased := h.setTable (s.pending.erase (s.calls k).key) s.closer
  dsimp only at hstep
  split at hstep <;> cases hstep
  · exact herased.setPc nofun
  · exact herased.setPc nofun

theorem closeReply (h : s.Answered) (howned : s.Owned) (hstep : s.closeReply k = some t) :
    t.Answered := by
  unfold PendingState.closeReply at hstep
  split at hstep
  case h_2 => cases hstep
  case h_1 c hpc =>
    obtain ⟨rfl, -, hnew⟩ := howned.givenUp k c hpc
    rw [hnew, Reply.open_new.close_eq] at hstep
    cases hstep
    have hchan : (s.setChan c { Reply.new with closes := 1 }).Answered := h.setChan nofun
    exact hchan.setPc nofun

theorem readAnswer (h : s.Answered) (hstep : s.readAnswer key ok = some t) : t.Answered := by
  unfold PendingState.readAnswer at hstep
  split_ifs at hstep with hreading
  cases hstep
  have hmono : ∀ key', s.Confirmed key' → (key', true) ∈ s.read ++ [(key, ok)] :=
    fun key' hconfirmed => mem_append_left _ hconfirmed
  refine { resolving := ?_, sending := nofun, value := ?_, returned := ?_ }
  · rintro _ ⟨⟩
    exact mem_append_right _ (mem_singleton_self _)
  · exact fun c hvalue => hmono _ (h.value c hvalue)
  · intro k hreturned
    obtain ⟨flowID, hkey, hconfirmed⟩ := h.returned k hreturned
    exact ⟨flowID, hkey, hmono _ hconfirmed⟩

theorem readerStep (h : s.Answered) (howned : s.Owned) (hstep : s.readerStep = some t) :
    t.Answered := by
  unfold PendingState.readerStep at hstep
  split at hstep
  case h_1 key ok hread =>
    split_ifs at hstep with hlock
    have herased := h.setTable (s.pending.erase key) s.closer
    dsimp only at hstep
    split at hstep <;> cases hstep
    case h_1 c hlookup =>
      refine herased.setReader nofun ?_
      rintro _ _ _ ⟨⟩
      refine ⟨(howned.filed key c hlookup).2, fun hok => h.resolving key ?_⟩
      rw [hread, hok]
    case h_2 => exact herased.setReader nofun nofun
  case h_2 key c ok hread =>
    obtain ⟨hkey, hconfirmed⟩ := h.sending key c ok hread
    rw [(howned.sending key c ok hread).2, PendingKey.offer_new] at hstep
    cases hstep
    have hchan : (s.setChan c ⟨some ok, 1, 0⟩).Answered := by
      refine h.setChan fun hvalue => ?_
      rw [hkey]
      exact hconfirmed (Option.some.inj hvalue)
    exact hchan.setReader nofun nofun
  case h_3 c hread =>
    rw [(howned.closing c hread).2.close_eq] at hstep
    cases hstep
    have hchan : (s.setChan c { s.chans c with closes := 1 }).Answered := h.setChan (h.value c)
    exact hchan.setReader nofun nofun
  case h_4 => cases hstep

theorem sweepSend (h : s.Answered) (howned : s.Owned) (hstep : s.sweepSend key = some t) :
    t.Answered := by
  unfold PendingState.sweepSend at hstep
  split_ifs at hstep with hsweep
  split at hstep
  case h_2 => cases hstep
  case h_1 c hlookup =>
    have hnew := (howned.waiting key c hlookup (by rw [hsweep]; exact nofun)).2
    rw [hnew, PendingKey.offer_new] at hstep
    cases hstep
    have hchan : (s.setChan c ⟨some false, 1, 0⟩).Answered := h.setChan nofun
    exact hchan.setTable _ _

theorem sweepClose (h : s.Answered) (howned : s.Owned) (hstep : s.sweepClose = some t) :
    t.Answered := by
  unfold PendingState.sweepClose at hstep
  split at hstep
  case h_2 => cases hstep
  case h_1 key c hsweep =>
    rw [(howned.sweeping key c hsweep).2.close_eq] at hstep
    cases hstep
    have hchan : (s.setChan c { s.chans c with closes := 1 }).Answered := h.setChan (h.value c)
    exact hchan.setTable _ _

theorem step (h : s.Answered) (howned : s.Owned) {a : PendingStep} (hstep : s.step a = some t) :
    t.Answered := by
  unfold PendingState.step at hstep
  rw [if_neg (by simp [howned.running])] at hstep
  cases a with
  | call key => exact h.call howned hstep
  | write k ok =>
    simp only [PendingState.write] at hstep
    split_ifs at hstep <;> cases hstep <;> exact h.setPc nofun
  | receive k => exact h.receive hstep
  | timeout k =>
    simp only [PendingState.timeout] at hstep
    split_ifs at hstep
    cases hstep
    exact h.setPc nofun
  | unregister k => exact h.unregister hstep
  | closeReply k => exact h.closeReply howned hstep
  | read key ok => exact h.readAnswer hstep
  | reader => exact h.readerStep howned hstep
  | readError =>
    simp only [PendingState.readError] at hstep
    split_ifs at hstep
    cases hstep
    exact h.setReader nofun nofun
  | closeStart =>
    simp only [PendingState.closeStart] at hstep
    split_ifs at hstep
    cases hstep
    exact h.setTable _ _
  | closeLock =>
    simp only [PendingState.closeLock] at hstep
    split_ifs at hstep
    cases hstep
    exact h.setTable _ _
  | sweepSend key => exact h.sweepSend howned hstep
  | sweepClose => exact h.sweepClose howned hstep
  | sweepNext =>
    simp only [PendingState.sweepNext] at hstep
    split at hstep
    · split_ifs at hstep
      cases hstep
      exact h.setTable _ _
    · cases hstep

end Answered

structure Sound (s : PendingState) : Prop where
  owned : s.Owned
  answered : s.Answered

theorem path_sound {steps : List PendingStep} (hpath : Path step anyLabel initial steps s) :
    s.Sound :=
  hpath.invariant (fun _ _ _ h _ hstep => ⟨h.owned.step hstep, h.answered.step h.owned hstep⟩)
    ⟨owned_initial, answered_initial⟩

/-- In every run nothing panics, so no channel is closed twice or sent on after it was closed;
no channel is given two values; every send finds room; and a flow is returned only by an
`openTCPFlow` whose id `readLoop` has read in an OPEN_TCP_OK. -/
theorem pending_protocol (steps : List PendingStep) (s : PendingState)
    (hpath : Path step anyLabel initial steps s) :
    s.panicked = false ∧
    (∀ c, (s.chans c).sent ≤ 1 ∧ (s.chans c).closes ≤ 1) ∧
    (∀ key c ok, s.reader = .send key c ok → (s.chans c).value = none) ∧
    (∀ key c, s.closer = .sweep key.kind → s.pending.lookup key = some c →
      (s.chans c).value = none) ∧
    (∀ k, (s.calls k).pc = .returned .flow →
      ∃ flowID, (s.calls k).key = .tcp flowID ∧ (.tcp flowID, true) ∈ s.read) := by
  obtain ⟨howned, hanswered⟩ := path_sound hpath
  refine ⟨howned.running, howned.counts, ?_, ?_, hanswered.returned⟩
  · intro key c ok hread
    rw [(howned.sending key c ok hread).2]
    rfl
  · intro key c hsweep hlookup
    rw [(howned.waiting key c hlookup (by rw [hsweep]; exact nofun)).2]
    rfl

/-- Two opens and a probe: the first open gets its flow, the second one gives up while the
answer to it is being handed over, and the probe is swept. -/
def crossedRun : List PendingStep :=
  [.call (.tcp 1), .call (.tcp 2), .write 0 true, .write 1 true, .call (.ping [7]),
    .write 2 true, .read (.tcp 9) true, .reader, .read (.tcp 1) true, .reader, .reader, .reader,
    .receive 0, .read (.tcp 2) false, .timeout 1, .reader, .unregister 1, .reader, .reader,
    .closeStart, .closeLock, .sweepNext, .sweepNext, .sweepSend (.ping [7]), .receive 2,
    .sweepClose, .sweepNext]

theorem crossedRun_protocol :
    ∃ s, Path step anyLabel initial crossedRun s ∧ s.panicked = false ∧
      (s.calls 0).pc = .returned .flow ∧ (.tcp 1, true) ∈ s.read ∧
      (s.calls 1).pc = .returned .failure ∧ s.closer = .done := by
  refine Path.exists_of_run_imp (P := fun s => s.calls 0 = ⟨.tcp 1, .returned .flow⟩ ∧
      (s.calls 1).pc = .returned .failure ∧ s.closer = .done)
    (by decide +kernel) fun s hpath ⟨hcall, hfailure, hdone⟩ => ?_
  have hflow : (s.calls 0).pc = .returned .flow := by rw [hcall]
  obtain ⟨hrunning, -, -, -, hreturned⟩ := pending_protocol crossedRun s hpath
  obtain ⟨flowID, hkey, hconfirmed⟩ := hreturned 0 hflow
  rw [hcall] at hkey
  cases hkey
  exact ⟨hrunning, hflow, hconfirmed, hfailure, hdone⟩

end PendingState
end VlfProto.Client
