import VlfProto.Session.QUIC.CloseOwn

/-! # Runs of a QUIC session in which ids are used again in time -/

namespace VlfProto.Session
open Platform Transition Option

namespace QUICSession

variable {s s' : QUICSession} {label : QUICSessionStep} {g : SessionGoroutine} {f : FlowRef}
  {ok : Bool} {flowID : ℕ}

theorem OwnFlows.drifts (hs : s.OwnFlows) (h : s.Drifts s') : s'.OwnFlows where
  named kind id k hk := by
    obtain ⟨hlt, hid⟩ := hs.named kind id k (h.table kind id k hk)
    exact ⟨hlt.trans_le (h.created kind), (h.flowID ⟨kind, k⟩ hlt).trans hid⟩
  held f hf := (hs.lt_created (h.held f hf)).trans_le (h.created f.kind)
  about g f pc hclosing := by
    have hold : f.index < s.created f.kind ∧ pc.About f (s.flowID f) := by
      rcases h.closes g f pc hclosing with hsame | ⟨hheld, notify, rfl⟩ |
        ⟨before, ok, r, hbefore, hstep⟩
      · exact hs.about g f pc hsame
      · exact ⟨hs.held f hheld, rfl⟩
      · exact ⟨(hs.about g f before hbefore).1, hs.closeFlowStep hbefore hstep⟩
    rw [h.flowID f hold.1]
    exact ⟨hold.1.trans_le (h.created f.kind), hold.2⟩
  inserts f id hf := by
    rcases h.inserts f id hf with hsame | hnew
    · obtain ⟨hlt, hid⟩ := hs.inserts f id hsame
      exact ⟨hlt.trans_le (h.created f.kind), (h.flowID f hlt).trans hid⟩
    · exact hnew
  writes i k id payload hw := by
    rcases h.writes i k id payload hw with hsame | hlookup
    · have hlt := hs.held ⟨.udp, k⟩ (.inr (.inr ⟨i, by rw [hsame]; rfl⟩))
      exact (h.flowID ⟨.udp, k⟩ hlt).trans (hs.writes i k id payload hsame)
    · obtain ⟨hlt, hid⟩ := hs.named .udp id k hlookup
      exact (h.flowID ⟨.udp, k⟩ hlt).trans hid
  exclusive := by
    apply hs.exclusive.mono
    · exact fun f hf => h.flowID f (hs.lt_created hf.symm)
    · rintro f ⟨id, hlookup⟩
      exact ⟨id, h.table f.kind id f.index hlookup⟩
    · exact fun f hf => (h.held f hf).symm
  attached j k i hj hk := by
    rcases h.stream j i hj with hj | ⟨hj, -⟩ <;> rcases h.stream k i hk with hk | ⟨hk, -⟩
    · exact hs.attached j k i hj hk
    · have hearly := hs.early j i hj
      simp [hk, StreamPc.early] at hearly
    · have hearly := hs.early k i hk
      simp [hj, StreamPc.early] at hearly
    · exact StreamPc.attach.inj (hj.symm.trans hk)
  early k i hk := by
    rcases h.stream k i hk with hold | ⟨-, hnew⟩
    · by_contra hearly
      have hearly' := h.early i (by simpa using hearly)
      rw [hs.early k i hold] at hearly'
      cases hearly'
    · rw [hnew]
      rfl
  unaccepted i hi := (h.accepted i hi).2 (hs.unaccepted i (h.accepted i hi).1)

theorem step_ownFlows (hs : s.OwnFlows) (hreuse : s.ReusesEnded label)
    (h : s.step label = some s') : s'.OwnFlows := by
  cases label with
  | run frame ok => exact hs.drifts (runStep_drifts h)
  | control frame ok =>
    by_cases hfiles : ∃ f flowID, s.Files f flowID
    · obtain ⟨f, flowID, hfile⟩ := hfiles
      simp only [step, controlStep, hfile.1, hfile.2, isSome_none, Bool.false_eq_true,
        if_false, some.injEq] at h
      subst h
      exact hs.files hfile (hreuse f flowID hfile)
    · exact hs.drifts (controlStep_drifts (fun f flowID hf => hfiles ⟨f, flowID, hf⟩) h)
  | acceptor ok => exact hs.drifts (acceptorStep_drifts (hs.unaccepted _ le_rfl) h)
  | pinger ok => exact hs.drifts (pingerStep_still h).toQuiet.drifts
  | stream i flowID ok => exact hs.drifts (streamStep_drifts h)
  | copy i dir data readEnd ok n now => exact hs.drifts (copyStep_still h).toQuiet.drifts
  | udpReader k data failed ok now => exact hs.drifts (udpReadStep_drifts h)
  | datagramReader raw now => exact hs.drifts (datagramReadStep_quiet h).drifts
  | worker i ok now => exact hs.drifts (workerStep_drifts hs.writes h)
  | callClose i =>
    obtain ⟨-, rfl⟩ := of_guard h
    exact hs.drifts (Quiet.drifts (.of_eq rfl))
  | closer i => exact hs.drifts (closerStep_still h).toQuiet.drifts

theorem new_ownFlows (cfg : SessionConfig) (id : UInt64) (limits : Limits.Manager) :
    (new cfg id limits).OwnFlows := by
  have hfree : ∀ f, ¬(new cfg id limits).Held f := by
    rintro ⟨kind, k⟩ hf
    cases kind with
    | tcp =>
      obtain ⟨i, hi⟩ := hf
      cases hi
    | udp => rcases hf with hf | hf | ⟨i, hi⟩ <;> contradiction
  have hclosing : ∀ g, (new cfg id limits).closing g = none := by
    intro g
    cases g <;> rfl
  constructor
  · intro kind id k h
    cases kind <;> simp [new, table] at h
  · exact fun f hf => absurd hf (hfree f)
  · intro g f pc h
    rw [hclosing] at h
    cases h
  · rintro f id ⟨⟩
  · rintro i k id payload ⟨⟩
  · rintro f - ⟨kind, k⟩ ⟨id, h⟩
    cases kind <;> simp [new, table] at h
  · rintro j k i ⟨⟩
  · rintro k i ⟨⟩
  · exact fun _ _ => rfl

theorem OwnFlows.untouched {pc : SessionCloseFlowPc} {next : Option SessionCloseFlowPc}
    {f' : FlowRef} (hs : s.OwnFlows) (hclosing : s.closing g = some (f, pc))
    (h : s.closeFlowStep g ok pc = some (s', next)) (hne : f' ≠ f) : s.Untouched s' f' := by
  have habout := (hs.about g f pc hclosing).2
  have hsame : s.Untouched s f' := by
    refine ⟨fun _ hlookup => hlookup, ?_⟩
    split
    · exact ⟨rfl, fun _ _ => rfl⟩
    · rfl
  cases pc with
  | delete id notify =>
    obtain rfl : id = s.flowID f := habout
    have hheld := held_of_delete hclosing
    cases h
    refine ⟨fun id hlookup => ?_, hsame.2⟩
    have hid : id ≠ s.flowID f := by
      rintro rfl
      exact hne (hs.lookup hheld hlookup).symm
    obtain ⟨kind, k⟩ := f'
    cases kind <;> exact (Table.lookup_erase_eq _ _ _).trans ((if_neg hid).trans hlookup)
  | closeTCP k udp id notify =>
    obtain ⟨rfl, -⟩ := habout
    obtain ⟨r, hr, hpair⟩ := map_eq_some_iff.mp h
    cases hpair
    have hcloses := closeTCPFlow_closes hr
    obtain ⟨kind, j⟩ := f'
    refine ⟨fun id hlookup => ?_, ?_⟩
    · cases kind with
      | tcp =>
        change Finmap.lookup id r.1.tcpFlows = some j
        rw [hcloses.tables.1]
        exact hlookup
      | udp =>
        change Finmap.lookup id r.1.udpFlows = some j
        rw [hcloses.tables.2]
        exact hlookup
    · cases kind with
      | tcp =>
        have hjk : j ≠ k := by
          rintro rfl
          exact hne rfl
        refine ⟨hcloses.others j hjk, fun i hi => ?_⟩
        rw [hcloses.streams i fun hk => hjk (hs.attached j k i hi hk)]
      | udp => exact congrFun hcloses.udp j
  | closeUDP k id notify =>
    obtain rfl : f = ⟨.udp, k⟩ := habout
    cases h
    obtain ⟨kind, j⟩ := f'
    cases kind with
    | tcp => exact hsame
    | udp =>
      refine ⟨hsame.1, Function.update_of_ne ?_ _ _⟩
      rintro rfl
      exact hne rfl
  | notify id =>
    obtain ⟨s₁, hwrite, hpair⟩ := map_eq_some_iff.mp h
    cases hpair
    obtain rfl := writeFrame_eq hwrite
    exact hsame

theorem Untouched.congr {s₁ : QUICSession} (h : s.Untouched s₁ f)
    (htables : s'.tcpFlows = s₁.tcpFlows ∧ s'.udpFlows = s₁.udpFlows) (htcp : s'.tcp = s₁.tcp)
    (hudp : f.kind = .udp → s'.udp f.index = s₁.udp f.index)
    (hstreams : ∀ i, (s'.streams i).closed = (s₁.streams i).closed) : s.Untouched s' f := by
  obtain ⟨kind, k⟩ := f
  obtain ⟨hlookup, hflow⟩ := h
  cases kind with
  | tcp =>
    refine ⟨fun id hk => ?_, htcp ▸ hflow.1, fun i hi => (hstreams i).trans (hflow.2 i hi)⟩
    change Finmap.lookup id s'.tcpFlows = some k
    rw [htables.1]
    exact hlookup id hk
  | udp =>
    refine ⟨fun id hk => ?_, (hudp rfl).trans hflow⟩
    change Finmap.lookup id s'.udpFlows = some k
    rw [htables.2]
    exact hlookup id hk

theorem OwnFlows.closesOwnFlow (hs : s.OwnFlows) : s.ClosesOwnFlow := by
  intro label g f pc s' hg hclosing h f' hne
  rcases closing_cases hclosing with ⟨i, k, rfl, hpc, rfl⟩ | ⟨k, rfl, hpc, rfl⟩ |
    ⟨i, k, rfl, hpc, rfl⟩
  · cases label with
    | stream _ flowID ok =>
      cases hg
      simp only [step, streamStep, hpc, map_eq_some_iff] at h
      obtain ⟨⟨s₁, next⟩, hr, rfl⟩ := h
      refine (hs.untouched hclosing hr hne).congr ⟨rfl, rfl⟩ rfl (fun _ => rfl) fun j => ?_
      by_cases hj : j = i <;> simp [setHandler, QUICSession.setStream, hj]
    | _ => cases hg
  · cases label with
    | udpReader _ data failed ok now =>
      cases hg
      simp only [step, udpReadStep, hpc, map_eq_some_iff] at h
      obtain ⟨⟨s₁, next⟩, hr, rfl⟩ := h
      refine (hs.untouched hclosing hr hne).congr ⟨rfl, rfl⟩ rfl (fun hkind => ?_) fun _ => rfl
      apply Function.update_of_ne
      rintro rfl
      exact hne (by rw [← hkind])
    | _ => cases hg
  · cases label with
    | worker _ ok now =>
      cases hg
      simp only [step, workerStep, hpc, map_eq_some_iff] at h
      obtain ⟨⟨s₁, next⟩, hr, rfl⟩ := h
      exact (hs.untouched hclosing hr hne).congr ⟨rfl, rfl⟩ rfl (fun _ => rfl) fun _ => rfl
    | _ => cases hg

theorem path_closesOwnFlow {cfg : SessionConfig} {id : UInt64} {limits : Limits.Manager}
    {labels : List QUICSessionStep}
    (hpath : Path step ReusesEnded (new cfg id limits) labels s) : s.ClosesOwnFlow := by
  have hown : s.OwnFlows := Path.invariant (fun _ _ _ hs hreuse h => step_ownFlows hs hreuse h)
    hpath (new_ownFlows cfg id limits)
  exact hown.closesOwnFlow

end QUICSession
end VlfProto.Session
