import VlfProto.Session.TCP.Demultiplex

/-! # Every flow object gets its own payloads -/

namespace VlfProto.Session
open Platform Transition List

namespace RecordedSession

variable {r r' : RecordedSession} {s' : TCPSession} {k n : ℕ} {ok : Bool} {frame : Option Frame}
  {label : TCPSessionStep} {u : Upload} {data : Bytes} {flowID : ℕ}

theorem payloads_append (hu : r'.uploads = r.uploads ++ [u]) :
    r'.payloads k = r.payloads k ++ if u.found = some k then [u.data] else [] := by
  unfold payloads
  rw [hu, filter_append, map_append]
  by_cases h : u.found = some k <;> simp [h]

theorem payloads_congr (hu : r'.uploads = r.uploads) : r'.payloads k = r.payloads k := by
  rw [payloads, hu]
  rfl

theorem WrittenExactly.congr (h : r.WrittenExactly k) (hcut : r'.cut k = r.cut k)
    (hpayloads : r'.payloads k = r.payloads k)
    (hwritten : (r'.session.flows k).written = (r.session.flows k).written) :
    r'.WrittenExactly k := by
  unfold WrittenExactly at h ⊢
  rw [hcut, hpayloads, hwritten]
  exact h

structure Placed (r : RecordedSession) : Prop where
  consistent : r.session.Consistent
  exactly : ∀ k, r.WrittenExactly k
  found : ∀ u ∈ r.uploads, ∀ k, u.found = some k →
    k < r.session.created ∧ (r.session.flows k).id = u.flowID
  holds : ∀ k, r.session.run.Holds k → r.payloads k = []
  sending : ∀ flowID k data, r.session.run.sending = some (flowID, k, data) →
    (r.session.flows k).id = flowID ∧ k < r.session.created ∧ (r.payloads k).getLast? = some data
  parked : ∀ k n, r.stopped k = some n → r.session.Parked k

theorem new_placed (maxFlows : ℤ) : (new maxFlows).Placed where
  consistent := TCPSession.new_consistent maxFlows
  exactly _ := rfl
  found _ h := by cases h
  holds _ h := h.elim
  sending _ _ _ h := by cases h
  parked _ _ h := by cases h

theorem Placed.blank (h : r.Placed) (hk : r.payloads k = []) :
    r.stopped k = none ∧ (r.session.flows k).written = [] := by
  have hexact := h.exactly k
  unfold WrittenExactly at hexact
  cases hcut : r.cut k with
  | none =>
    rw [hcut, hk] at hexact
    refine ⟨?_, hexact⟩
    unfold cut at hcut
    split_ifs at hcut
    exact hcut
  | some n =>
    rw [hcut, hk] at hexact
    obtain ⟨done, last, hlast, -⟩ := hexact
    simp at hlast

theorem Placed.uncreated (h : r.Placed) (hk : r.session.created ≤ k) : r.payloads k = [] := by
  unfold payloads
  rw [map_eq_nil_iff, filter_eq_nil_iff]
  intro u hu hfound
  have hlt := (h.found u hu k (of_decide_eq_true hfound)).1
  omega

theorem Placed.not_holds (h : r.Placed) (hstopped : r.stopped k = some n) :
    ¬r.session.run.Holds k := by
  intro hholds
  rw [(h.blank (h.holds k hholds)).1] at hstopped
  cases hstopped

theorem cut_of_sending_none (h : r.session.run.sending = none) : r.cut k = r.stopped k := by
  simp [cut, TCPRunPc.sendsTo, h]

theorem Placed.beside (h : r.Placed) (hb : r.session.Beside s') (hs : s'.Consistent) :
    { r with session := s' }.Placed where
  consistent := hs
  exactly k := (h.exactly k).congr (by simp only [cut, hb.run]) rfl (hb.written k)
  found u hu k hk := by
    rw [hb.created, hb.id]
    exact h.found u hu k hk
  holds k hk := h.holds k (hb.run ▸ hk)
  sending flowID k data hk := by
    rw [hb.created, hb.id]
    exact h.sending flowID k data (hb.run ▸ hk)
  parked k n hk := hb.parked (h.parked k n hk)

theorem Placed.quiet (h : r.Placed) (read : List Frame) (hsend : r.session.run.sending = none)
    (hq : r.session.Quiet s') (hs : s'.Consistent)
    (hparked : ∀ k n, r.stopped k = some n → s'.Parked k) :
    { r with session := s', read }.Placed where
  consistent := hs
  exactly k := by
    refine (h.exactly k).congr ?_ rfl ?_
    · rw [cut_of_sending_none hsend, cut_of_sending_none hq.sending]
    · rcases hq.written k with hwritten | ⟨hk, hwritten⟩
      · exact hwritten
      · exact hwritten.trans (h.blank (h.uncreated hk)).2.symm
  found u hu k hk := by
    obtain ⟨hlt, hid⟩ := h.found u hu k hk
    exact ⟨hlt.trans_le hq.created, (hq.id k hlt).trans hid⟩
  holds k hk := (hq.holds k hk).elim (h.holds k) h.uncreated
  sending flowID k data hk := by
    rw [hq.sending] at hk
    cases hk
  parked := hparked

theorem Placed.missed (h : r.Placed) (hu : u.found = none) :
    { r with uploads := r.uploads ++ [u] }.Placed := by
  have hpayloads : ∀ k, payloads { r with uploads := r.uploads ++ [u] } k = r.payloads k :=
    fun k => (payloads_append rfl).trans (by simp [hu])
  refine ⟨h.consistent, fun k => ?_, fun w hw k hk => ?_, fun k hk => ?_, fun id k bytes hk => ?_,
    h.parked⟩
  · exact (h.exactly k).congr rfl (hpayloads k) rfl
  · rcases mem_append.mp hw with hw | hw
    · exact h.found w hw k hk
    · rw [mem_singleton.mp hw, hu] at hk
      cases hk
  · exact (hpayloads k).trans (h.holds k hk)
  · rw [hpayloads]
    exact h.sending id k bytes hk

theorem WrittenExactly.more (data : Bytes) (h : r.WrittenExactly k) (hcut : r.cut k = none)
    (hcut' : r'.cut k = if data = [] then none else some 0)
    (hpayloads : r'.payloads k = r.payloads k ++ [data])
    (hwritten : (r'.session.flows k).written = (r.session.flows k).written) :
    r'.WrittenExactly k := by
  unfold WrittenExactly at h ⊢
  rw [hcut] at h
  by_cases hdata : data = []
  · rw [hcut', if_pos hdata, hwritten, hpayloads, hdata]
    simpa using h
  · rw [hcut', if_neg hdata, hwritten, hpayloads]
    exact ⟨r.payloads k, data, rfl, by simpa using h⟩

theorem Placed.lookup (h : r.Placed) (hpc : r.session.run = .dataLookup flowID data)
    (hlookup : r.session.tcpFlows.lookup flowID = some k)
    (hsession : r'.session =
      { r.session with run := if data = [] then .readFrame else .dataLimit flowID k data })
    (huploads : r'.uploads = r.uploads ++ [⟨flowID, data, some k⟩])
    (hstopped : r'.stopped = r.stopped) (hs : r'.session.Consistent)
    (hparked : ∀ k n, r.stopped k = some n → r'.session.Parked k) : r'.Placed := by
  obtain ⟨hid, hlt⟩ := h.consistent.table flowID k hlookup
  have hold : r.session.run.sending = none := by rw [hpc]; rfl
  have hsending : r'.session.run.sending = if data = [] then none else some (flowID, k, data) := by
    rw [hsession]
    split_ifs <;> rfl
  have hunstopped : r.stopped k = none := by
    cases hn : r.stopped k with
    | none => rfl
    | some n =>
      have hout := (h.parked k n hn).out (by rw [hpc]; rfl) (by simp [hpc])
      exact absurd ⟨flowID, hlookup⟩ hout
  refine ⟨hs, fun j => ?_, fun w hw j hj => ?_, fun j hj => ?_, fun id j bytes hj => ?_, ?_⟩
  · by_cases hj : k = j
    · subst hj
      refine (h.exactly k).more data ?_ ?_ ?_ (by rw [hsession])
      · rw [cut_of_sending_none hold, hunstopped]
      · by_cases hdata : data = [] <;>
          simp [cut, TCPRunPc.sendsTo, hsending, hdata, hstopped, hunstopped]
      · simp [payloads_append huploads]
    · refine (h.exactly j).congr ?_ ?_ (by rw [hsession])
      · rw [cut_of_sending_none hold]
        by_cases hdata : data = [] <;> simp [cut, TCPRunPc.sendsTo, hsending, hdata, hj, hstopped]
      · simp [payloads_append huploads, hj]
  · rw [hsession]
    rw [huploads] at hw
    rcases mem_append.mp hw with hw | hw
    · exact h.found w hw j hj
    · rw [mem_singleton.mp hw] at hj ⊢
      cases hj
      exact ⟨hlt, hid⟩
  · rw [hsession] at hj
    by_cases hdata : data = [] <;> simp [hdata, TCPRunPc.Holds] at hj
  · rw [hsending] at hj
    split_ifs at hj
    cases hj
    rw [hsession, payloads_append huploads]
    exact ⟨hid, hlt, by simp⟩
  · rwa [hstopped]

/-- The payload in the hands of `Run` is written, or as much of it as the object gets before
it is stopped. -/
theorem WrittenExactly.finish {data : Bytes} (h : r.WrittenExactly k) (hcut : r.cut k = some 0)
    (hlast : (r.payloads k).getLast? = some data) (hpayloads : r'.payloads k = r.payloads k)
    (hwritten : (r'.session.flows k).written =
      (r.session.flows k).written ++ (r'.cut k).elim data data.take) : r'.WrittenExactly k := by
  unfold WrittenExactly at h ⊢
  rw [hcut] at h
  obtain ⟨done, last, hdone, hbefore⟩ := h
  obtain rfl : last = data := by
    rw [hdone, List.getLast?_append] at hlast
    simpa using hlast
  rw [hpayloads, hwritten, hbefore]
  cases r'.cut k with
  | none => simp [hdone]
  | some n => exact ⟨done, last, hdone, by simp⟩

theorem Placed.finish (h : r.Placed) (hsend : r.session.run.sending = some (flowID, k, data))
    (hid : ∀ j, (r'.session.flows j).id = (r.session.flows j).id)
    (hwritten : (r'.session.flows k).written = (r.session.flows k).written ++
      (r'.stopped k).elim data data.take)
    (hother : ∀ j, j ≠ k → r'.stopped j = r.stopped j ∧
      (r'.session.flows j).written = (r.session.flows j).written)
    (hcreated : r'.session.created = r.session.created) (hsend' : r'.session.run.sending = none)
    (hholds : ∀ j, ¬r'.session.run.Holds j) (huploads : r'.uploads = r.uploads)
    (hs : r'.session.Consistent) (hparked : ∀ j n, r'.stopped j = some n → r'.session.Parked j) :
    r'.Placed := by
  have hpayloads := fun j => payloads_congr (k := j) huploads
  refine ⟨hs, fun j => ?_, fun w hw j hj => ?_, fun j hj => absurd hj (hholds j),
    fun id j bytes hj => ?_, hparked⟩
  · by_cases hj : j = k
    · subst hj
      refine (h.exactly j).finish ?_ (h.sending _ _ _ hsend).2.2 (hpayloads j) ?_
      · simp [cut, TCPRunPc.sendsTo, hsend]
      · rw [cut_of_sending_none hsend', hwritten]
    · refine (h.exactly j).congr ?_ (hpayloads j) (hother j hj).2
      rw [cut_of_sending_none hsend', (hother j hj).1]
      simp [cut, TCPRunPc.sendsTo, hsend, Ne.symm hj]
  · rw [hid, hcreated]
    exact h.found w (huploads ▸ hw) j hj
  · rw [hsend'] at hj
    cases hj

theorem Placed.dataWrite {flowID : ℕ} {data : Bytes} {limiterEntry : Bool} (h : r.Placed)
    (hpc : r.session.run = .dataLimit flowID k data)
    (hs : { r.session with limiterEntry, run := .dataWrite flowID k data }.Consistent)
    (hparked : ∀ j n, r.stopped j = some n →
      { r.session with limiterEntry, run := .dataWrite flowID k data }.Parked j) :
    { r with session := { r.session with
      limiterEntry
      run := .dataWrite flowID k data } }.Placed where
  consistent := hs
  exactly j := by
    refine (h.exactly j).congr ?_ rfl rfl
    simp [cut, hpc, TCPRunPc.sendsTo, TCPRunPc.sending]
  found := h.found
  holds _ hj := hj.elim
  sending id j bytes hj := h.sending id j bytes (by rw [hpc]; exact hj)
  parked := hparked

theorem record_quiet (frame : Option Frame) (ok : Bool) (n : ℕ)
    (hlook : r.session.run.lookingUp = []) (hsend : r.session.run.sending = none) :
    ∃ read, r.record (.run frame ok n) = { r with read } := by
  cases hpc : r.session.run with
  | dataLookup flowID data => simp [hpc, TCPRunPc.lookingUp] at hlook
  | dataLimit flowID k data | dataWrite flowID k data => simp [hpc, TCPRunPc.sending] at hsend
  | _ =>
    simp only [record, hpc]
    exact ⟨_, rfl⟩

theorem lookupStep_placed (h : r.Placed) (hs : s'.Consistent)
    (hpc : r.session.run = .dataLookup flowID data)
    (hparked : ∀ k n, r.stopped k = some n → s'.Parked k)
    (hstep : r.session.runStep frame ok n = some s') :
    { r.record (.run frame ok n) with session := s' }.Placed := by
  have hrecord : r.record (.run frame ok n) =
      { r with uploads := r.uploads ++ [⟨flowID, data, r.session.tcpFlows.lookup flowID⟩] } := by
    simp only [record, hpc]
  rw [hrecord]
  simp only [TCPSession.runStep, hpc] at hstep
  split at hstep
  case h_1 hnone =>
    cases hstep
    have hquiet : r.session.Quiet { r.session with run := .closeFlow (.delete flowID true) } :=
      (TCPSession.Beside.refl r.session).quiet rfl rfl rfl fun k hk => hk.elim
    exact (h.quiet r.read (by rw [hpc]; rfl) hquiet hs hparked).missed hnone
  case h_2 k hlookup =>
    cases hstep
    exact h.lookup hpc hlookup rfl (by rw [hlookup]) rfl hs hparked

theorem parked_update (hparked : ∀ j n, r.stopped j = some n → s'.Parked j) (hk : s'.Parked k)
    {j m : ℕ} (hj : (r.stop k n).stopped j = some m) : s'.Parked j := by
  by_cases hjk : j = k
  · exact hjk ▸ hk
  · exact hparked j m (by simpa [stop, hjk] using hj)

theorem limitStep_placed (h : r.Placed) (hs : s'.Consistent)
    (hpc : r.session.run = .dataLimit flowID k data)
    (hparked : ∀ k n, r.stopped k = some n → s'.Parked k)
    (hstep : r.session.runStep frame ok n = some s') :
    { r.record (.run frame ok n) with session := s' }.Placed := by
  simp only [TCPSession.runStep, hpc] at hstep
  cases hstep
  cases ok with
  | true =>
    simp only [record, hpc, if_true]
    exact h.dataWrite hpc hs hparked
  | false =>
    simp only [record, hpc, Bool.false_eq_true, if_false]
    refine h.finish (by rw [hpc]; rfl) (fun _ => rfl) ?_ (fun j hj => ⟨?_, rfl⟩) rfl rfl
      (fun _ => id) rfl hs fun j m hj => ?_
    · simp [stop]
    · simp [stop, hj]
    · exact parked_update hparked (TCPSession.parked_of_ending rfl rfl) hj

theorem writeStep_placed (h : r.Placed) (hs : s'.Consistent)
    (hpc : r.session.run = .dataWrite flowID k data)
    (hparked : ∀ k n, r.stopped k = some n → s'.Parked k)
    (hstep : r.session.runStep frame ok n = some s') :
    { r.record (.run frame ok n) with session := s' }.Placed := by
  have hsend : r.session.run.sending = some (flowID, k, data) := by rw [hpc]; rfl
  have hunstopped : r.stopped k = none := by
    cases hn : r.stopped k with
    | none => rfl
    | some m => exact absurd hsend ((h.parked k m hn).1 flowID data)
  simp only [TCPSession.runStep, hpc] at hstep
  obtain ⟨-, rfl⟩ := of_guard_not hstep
  have hid : ∀ (written : Bytes) (pc : TCPRunPc) j, (({ r.session.setFlow k { r.session.flows k with
      written } with run := pc } : TCPSession).flows j).id = (r.session.flows j).id := by
    intro written pc j
    by_cases hj : j = k <;> simp [TCPSession.setFlow, hj]
  cases ok with
  | true =>
    simp only [record, hpc, if_true]
    refine h.finish hsend (hid _ _) ?_ (fun j hj => ⟨rfl, ?_⟩) rfl rfl (fun _ => id) rfl hs hparked
    · simp [TCPSession.setFlow, hunstopped]
    · simp [TCPSession.setFlow, hj]
  | false =>
    simp only [record, hpc, Bool.false_eq_true, if_false]
    refine h.finish hsend (hid _ _) ?_ (fun j hj => ⟨?_, ?_⟩) rfl rfl (fun _ => id) rfl hs
      fun j m hj => ?_
    · simp [TCPSession.setFlow, stop]
    · simp [stop, hj]
    · simp [TCPSession.setFlow, hj]
    · refine parked_update hparked ⟨by simp [TCPRunPc.sending], .inr (.inl ?_)⟩ hj
      rw [hid, (h.sending _ _ _ hsend).1]
      rfl

theorem runStep_placed (h : r.Placed) (hs : s'.Consistent)
    (hstep : r.session.runStep frame ok n = some s') :
    { r.record (.run frame ok n) with session := s' }.Placed := by
  have hparked : ∀ k n, r.stopped k = some n → s'.Parked k := fun k n hk =>
    TCPSession.runStep_parked h.consistent (h.not_holds hk) (h.parked k n hk) hstep
  by_cases hquiet : r.session.run.lookingUp = [] ∧ r.session.run.sending = none
  · obtain ⟨hlook, hsend⟩ := hquiet
    obtain ⟨read, hread⟩ := record_quiet frame ok n hlook hsend
    rw [hread]
    exact h.quiet read hsend (TCPSession.runStep_quiet hlook hsend hstep) hs hparked
  · cases hpc : r.session.run with
    | dataLookup flowID data => exact lookupStep_placed h hs hpc hparked hstep
    | dataLimit flowID k data => exact limitStep_placed h hs hpc hparked hstep
    | dataWrite flowID k data => exact writeStep_placed h hs hpc hparked hstep
    | _ => exact absurd (by rw [hpc]; exact ⟨rfl, rfl⟩) hquiet

theorem step_placed (h : r.Placed) (hstep : r.step label = some r') : r'.Placed := by
  obtain ⟨s', hs', rfl⟩ := Option.map_eq_some_iff.mp hstep
  have hs := TCPSession.step_consistent h.consistent hs'
  cases label with
  | run frame ok n => exact runStep_placed h hs hs'
  | loop k data failed ok | callClose i | closer i =>
    exact h.beside (TCPSession.step_beside (by simp) hs') hs

end RecordedSession
end VlfProto.Session
