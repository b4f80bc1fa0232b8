import VlfProto.Session.TCP.FlowLimit

/-! # A record of what a TCP session uploads -/

namespace VlfProto.Session
open Platform Transition

/-- A payload that `handleClientTCPData` has looked up the flow for. -/
structure Upload where
  flowID : ℕ
  data : Bytes
  found : Option ℕ

def tcpDataOf (f : Frame) : Option (ℕ × Bytes) :=
  if f.type = frameTCPDATA then (decodeTCPDataPayload f.payload).toOption else none

/-- The payload that `Run` is about to look up the flow for. -/
def TCPRunPc.lookingUp : TCPRunPc → List (ℕ × Bytes)
  | .dataLookup flowID data => [(flowID, data)]
  | _ => []

/-- The payload that `Run` has found the flow for and not written yet. -/
def TCPRunPc.sending : TCPRunPc → Option (ℕ × ℕ × Bytes)
  | .dataLimit flowID k data => some (flowID, k, data)
  | .dataWrite flowID k data => some (flowID, k, data)
  | _ => none

def TCPRunPc.sendsTo (pc : TCPRunPc) (k : ℕ) : Bool := pc.sending.any fun p => p.2.1 = k

structure RecordedSession where
  session : TCPSession
  read : List Frame
  uploads : List Upload
  stopped : ℕ → Option ℕ

namespace RecordedSession

def new (maxFlows : ℤ) : RecordedSession := ⟨.new maxFlows, [], [], fun _ => none⟩

/-- Nothing more is sent to object `k`, which got `n` bytes of the last payload. -/
def stop (r : RecordedSession) (k n : ℕ) : RecordedSession :=
  { r with stopped := Function.update r.stopped k (some n) }

def record (r : RecordedSession) : TCPSessionStep → RecordedSession
  | .run frame ok n =>
    match r.session.run with
    | .readFirst => { r with read := r.read ++ frame.toList }
    | .readFrame => { r with read := r.read ++ frame.toList }
    | .dataLookup flowID data =>
      { r with uploads := r.uploads ++ [⟨flowID, data, r.session.tcpFlows.lookup flowID⟩] }
    | .dataLimit _ k _ => if ok then r else r.stop k 0
    | .dataWrite _ k _ => if ok then r else r.stop k n
    | _ => r
  | _ => r

def step (r : RecordedSession) (label : TCPSessionStep) : Option RecordedSession :=
  (r.session.step label).map fun session => { r.record label with session }

def payloads (r : RecordedSession) (k : ℕ) : List Bytes :=
  (r.uploads.filter fun u => u.found = some k).map Upload.data

/-- How much of its last payload object `k` got, if not all: nothing while `Run` has it in hand,
and what the failed write got through after that. -/
def cut (r : RecordedSession) (k : ℕ) : Option ℕ :=
  if r.session.run.sendsTo k then some 0 else r.stopped k

/-- The target of object `k` got its payloads in order, and of the last one only a part if
it is cut. -/
def WrittenExactly (r : RecordedSession) (k : ℕ) : Prop :=
  match r.cut k with
  | none => (r.session.flows k).written = (r.payloads k).flatten
  | some n => ∃ done last, r.payloads k = done ++ [last] ∧
    (r.session.flows k).written = done.flatten ++ last.take n

end RecordedSession

/-- What `VerifySession` says about the first frame. -/
def verdict (v : Auth.Verifier) (now : ℤ) (f : Frame) : Bool :=
  match decodeAuthPayload f.payload with
  | .ok p => (v.verifySession now (sessionAuth p)).1.isOk
  | .error _ => false

/-- The first frame is checked by a verifier in state `v` at time `now`. -/
def RecordedSession.VerifiedBy (v : Auth.Verifier) (now : ℤ) (r : RecordedSession) :
    TCPSessionStep → Prop
  | .run (some f) ok _ => r.session.run = .readFirst → ok = verdict v now f
  | _ => True

instance (v : Auth.Verifier) (now : ℤ) (r : RecordedSession) :
    (label : TCPSessionStep) → Decidable (r.VerifiedBy v now label)
  | .run (some _) _ _ => inferInstanceAs (Decidable (_ → _))
  | .run none _ _ => isTrue trivial
  | .loop _ _ _ _ => isTrue trivial
  | .callClose _ => isTrue trivial
  | .closer _ => isTrue trivial

def Accepted (v : Auth.Verifier) (now : ℤ) (read : List Frame) : Prop :=
  ∃ f rest p, read = f :: rest ∧ f.type = frameAUTH ∧ decodeAuthPayload f.payload = .ok p ∧
    (v.verifySession now (sessionAuth p)).1 = .ok ()

theorem Accepted.append {v : Auth.Verifier} {now : ℤ} {read : List Frame}
    (h : Accepted v now read) (more : List Frame) : Accepted v now (read ++ more) := by
  obtain ⟨f, rest, p, rfl, hp⟩ := h
  exact ⟨f, rest ++ more, p, rfl, hp⟩

theorem accepted_of_verdict {v : Auth.Verifier} {now : ℤ} {f : Frame}
    (hauth : TCPSession.authenticate f (verdict v now f) = some .register) :
    Accepted v now [f] := by
  by_cases htype : f.type = frameAUTH
  · cases hp : decodeAuthPayload f.payload with
    | error e => cases e <;> simp [TCPSession.authenticate, htype, hp] at hauth
    | ok p =>
      refine ⟨f, [], p, rfl, htype, hp, ?_⟩
      cases hv : (v.verifySession now (sessionAuth p)).1 with
      | ok => rfl
      | error e =>
        simp [TCPSession.authenticate, verdict, htype, hp, hv, Except.isOk, Except.toBool] at hauth
  · simp [TCPSession.authenticate, htype] at hauth

/-! ### Uploads reach the flow they were sent for -/

/-- `Run` serves no more frames. -/
def TCPRunPc.ending : TCPRunPc → Bool
  | .closing => true
  | .unregister => true
  | .deferredClose => true
  | .returned => true
  | _ => false

theorem TCPRunPc.sending_of_handsOff {pc : TCPRunPc} (h : pc.handsOff) : pc.sending = none := by
  cases pc <;> first | rfl | cases h

namespace TCPSession

variable {s s' : TCPSession} {k flowID n : ℕ} {ok : Bool} {frame : Option Frame}
  {label : TCPSessionStep}

/-- No payload reaches object `k` any more. -/
def Parked (s : TCPSession) (k : ℕ) : Prop :=
  (∀ flowID data, s.run.sending ≠ some (flowID, k, data)) ∧
    (s.run.ending ∨ s.run = .closeFlow (.delete (s.flows k).id true) ∨ ¬s.InTable k)

theorem Beside.inTable (h : s.Beside s') (hk : s'.InTable k) : s.InTable k :=
  hk.imp fun flowID hlookup => h.lookup flowID k hlookup

theorem Beside.parked (h : s.Beside s') (hk : s.Parked k) : s'.Parked k := by
  obtain ⟨hsend, hout⟩ := hk
  refine ⟨h.run ▸ hsend, ?_⟩
  rw [h.run, h.id]
  exact hout.imp_right (Or.imp_right fun hnot hin => hnot (h.inTable hin))

theorem Parked.out (hk : s.Parked k) (hending : s.run.ending = false)
    (hpc : ∀ pc, s.run ≠ .closeFlow pc) : ¬s.InTable k := by
  rcases hk.2 with h | h | h
  · rw [hending] at h
    cases h
  · exact absurd h (hpc _)
  · exact h

/-- `Run` ends, or goes on without the object in hand while it is not in the table. -/
theorem parked_of_ending (hsend : s.run.sending = none) (h : s.run.ending) : s.Parked k :=
  ⟨by simp [hsend], .inl h⟩

theorem parked_of_out (hsend : s.run.sending = none) (h : ¬s.InTable k) : s.Parked k :=
  ⟨by simp [hsend], .inr (.inr h)⟩

theorem closeFlowStep_out {notify : Bool} {next : Option CloseFlowPc} (hs : s.Consistent)
    (h : s.closeFlowStep ok (.delete (s.flows k).id notify) = some (s', next)) :
    ¬s'.InTable k := by
  rintro ⟨flowID, hlookup⟩
  have hid := (hs.table flowID k ((closeFlowStep_beside h).lookup flowID k hlookup)).1
  subst hid
  cases closeFlowStep_cases h with
  | gone hnone => cases hnone.symm.trans hlookup
  | delete => simp at hlookup

theorem runClose_parked {pc : TCPRunPc} {r : TCPSession × Bool} (hk : s.Parked k)
    (hsend : pc.sending = none) (hending : pc.ending) (hr : s.closeStep .run = some r) :
    (if r.2 then { r.1 with run := pc } else r.1).Parked k := by
  split_ifs
  · exact parked_of_ending hsend hending
  · exact (closeStep_beside hr).parked hk

theorem runStep_parked (hs : s.Consistent) (hholds : ¬s.run.Holds k) (hk : s.Parked k)
    (h : s.runStep frame ok n = some s') : s'.Parked k := by
  cases runStep_cases h with
  | readFirst hpc _ hentry | readFrame hpc _ hentry =>
    exact parked_of_out (TCPRunPc.sending_of_handsOff (TCPRunPc.handsOff_of_entry hentry))
      (hk.out (by rw [hpc]; rfl) (by simp [hpc]))
  | openCheck hpc =>
    exact parked_of_out (TCPRunPc.sending_of_handsOff (s.openCheck_handsOff _))
      (hk.out (by rw [hpc]; rfl) (by simp [hpc]))
  | @insert flowID k' hpc hnone =>
    refine parked_of_out rfl ?_
    rintro ⟨id, hlookup⟩
    change (s.tcpFlows.insert flowID k').lookup id = some k at hlookup
    rw [Table.lookup_insert_eq] at hlookup
    split_ifs at hlookup
    · refine hholds ?_
      rw [hpc]
      exact Option.some.inj hlookup
    · exact hk.out (by rw [hpc]; rfl) (by simp [hpc]) ⟨id, hlookup⟩
  | @closeFlow pc r hpc hr =>
    have hsend : (r.2.elim TCPRunPc.readFrame .closeFlow).sending = none := by cases r.2 <;> rfl
    refine parked_of_out hsend ?_
    rcases hk.2 with hending | hdelete | hout
    · rw [hpc] at hending
      cases hending
    · rw [hpc] at hdelete
      cases hdelete
      have hout := closeFlowStep_out hs hr
      exact hout
    · exact fun hin => hout ((closeFlowStep_beside hr).inTable hin)
  | @lookup flowID k' data hpc hlookup =>
    have hout := hk.out (by rw [hpc]; rfl) (by simp [hpc])
    refine ⟨fun id bytes hsend => ?_, .inr (.inr hout)⟩
    split_ifs at hsend
    · cases hsend
    · cases hsend
      exact hout ⟨flowID, hlookup⟩
  | dataLimit hpc =>
    have hout := hk.out (by rw [hpc]; rfl) (by simp [hpc])
    have hsend := hk.1
    rw [hpc] at hsend
    cases ok
    · exact parked_of_ending rfl rfl
    · exact ⟨hsend, .inr (.inr hout)⟩
  | closing hpc hr | deferredClose hpc hr => exact runClose_parked hk rfl rfl hr
  | setDeadline hpc | writeAuthOK hpc =>
    have hout := hk.out (by rw [hpc]; rfl) (by simp [hpc])
    cases ok
    · exact parked_of_ending rfl rfl
    · exact parked_of_out rfl hout
  | dataWrite hpc | writeOpenOK hpc =>
    have hout := hk.out (by rw [hpc]; rfl) (by simp [hpc])
    cases ok
    · exact parked_of_out rfl hout
    · exact parked_of_out rfl hout
  | authFail | unregister => exact parked_of_ending rfl rfl
  | register hpc | reply hpc | dial hpc | dialFails hpc | duplicate hpc | closeDuplicate hpc
  | countStream hpc | spawn hpc | lookupFails hpc =>
    exact parked_of_out rfl (hk.out (by rw [hpc]; rfl) (by simp [hpc]))

/-- What a step of `Run` leaves alone that handles no TCP_DATA. -/
structure Quiet (s s' : TCPSession) : Prop where
  created : s.created ≤ s'.created
  id : ∀ k < s.created, (s'.flows k).id = (s.flows k).id
  written : ∀ k, (s'.flows k).written = (s.flows k).written ∨
    s.created ≤ k ∧ (s'.flows k).written = []
  sending : s'.run.sending = none
  holds : ∀ k, s'.run.Holds k → s.run.Holds k ∨ s.created ≤ k

theorem Beside.quiet {t : TCPSession} (h : s.Beside t) (hflows : s'.flows = t.flows)
    (hcreated : s'.created = t.created) (hsend : s'.run.sending = none)
    (hholds : ∀ k, s'.run.Holds k → s.run.Holds k) : s.Quiet s' where
  created := (hcreated.trans h.created).ge
  id k _ := hflows ▸ h.id k
  written k := .inl (hflows ▸ h.written k)
  sending := hsend
  holds k hk := .inl (hholds k hk)

theorem runClose_quiet {pc : TCPRunPc} {r : TCPSession × Bool} (hsend : s.run.sending = none)
    (hpc : pc.ending) (hr : s.closeStep .run = some r) :
    s.Quiet (if r.2 then { r.1 with run := pc } else r.1) := by
  have hb := closeStep_beside hr
  split_ifs
  · refine hb.quiet rfl rfl ?_ fun k hk => ?_
    · cases pc <;> first | rfl | cases hpc
    · cases pc <;> first | exact hk.elim | cases hpc
  · exact hb.quiet rfl rfl (hb.run ▸ hsend) fun k hk => hb.run ▸ hk

theorem runStep_quiet (hlook : s.run.lookingUp = []) (hsend : s.run.sending = none)
    (h : s.runStep frame ok n = some s') : s.Quiet s' := by
  have hb := Beside.refl s
  have hquiet {pc : TCPRunPc} (hpc : pc.handsOff) (hlight : pc.light) :
      s.Quiet { s with run := pc } :=
    hb.quiet rfl rfl (TCPRunPc.sending_of_handsOff hpc)
      fun k hk => absurd hk (TCPRunPc.not_holds_of_light hlight k)
  cases runStep_cases h with
  | setDeadline | writeAuthOK | writeOpenOK =>
    refine hb.quiet rfl rfl ?_ fun k hk => ?_
    · cases ok <;> rfl
    · cases ok <;> exact hk.elim
  | readFirst _ _ hentry | readFrame _ _ hentry =>
    exact hquiet (TCPRunPc.handsOff_of_entry hentry) (TCPRunPc.light_of_entry hentry)
  | openCheck => exact hquiet (s.openCheck_handsOff _) (s.openCheck_light _)
  | dial =>
    refine ⟨Nat.le_succ _, fun k hk => ?_, fun k => ?_, rfl, fun k hk => .inr (le_of_eq hk)⟩
    · exact congrArg TCPFlow.id (createFlow_flows s hk.ne)
    · by_cases hk : k = s.created
      · subst hk
        exact .inr ⟨le_rfl, by simp [createFlow, setFlow]⟩
      · exact .inl (congrArg TCPFlow.written (createFlow_flows s hk))
  | duplicate hpc => exact hb.quiet rfl rfl rfl fun k hk => by rw [hpc]; exact hk
  | closeDuplicate => exact hb.closeTarget.quiet rfl rfl rfl fun k hk => hk.elim
  | spawn => exact hb.setLoop.quiet rfl rfl rfl fun k hk => hk.elim
  | @closeFlow pc r hpc hr =>
    refine (closeFlowStep_beside hr).quiet rfl rfl ?_ fun k hk => ?_
    · cases r.2 <;> rfl
    · cases hnext : r.2 <;> simp [hnext, TCPRunPc.Holds] at hk
  | lookupFails hpc | lookup hpc => simp [hpc, TCPRunPc.lookingUp] at hlook
  | dataLimit hpc | dataWrite hpc => simp [hpc, TCPRunPc.sending] at hsend
  | closing hpc hr | deferredClose hpc hr => exact runClose_quiet hsend rfl hr
  | authFail | register | reply | dialFails | insert | countStream | unregister =>
    exact hb.quiet rfl rfl rfl fun k hk => hk.elim

end TCPSession
end VlfProto.Session
