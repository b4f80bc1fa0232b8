import VlfProto.Session.QUIC.StreamSteps

/-! # When a goroutine of a QUIC session closes its own flow only -/

namespace VlfProto.Session
open Platform Transition Option

/-- The goroutine that takes the step, if it may call `closeFlow` or `Close`. -/
def QUICSessionStep.goroutine : QUICSessionStep → Option SessionGoroutine
  | .run _ _ => some .run
  | .control _ _ => some .control
  | .acceptor _ => some .acceptor
  | .stream i _ _ => some (.stream i)
  | .udpReader k _ _ _ _ => some (.udpReader k)
  | .worker i _ _ => some (.worker i)
  | .closer i => some (.closer i)
  | _ => none

namespace QUICSession

variable {s s' : QUICSession} {label : QUICSessionStep} {g : SessionGoroutine} {f : FlowRef}
  {ok : Bool} {flowID : ℕ}

/-- The flow stays in its table if it is there, and neither its target nor its
stream is closed. -/
def Untouched (s s' : QUICSession) (f : FlowRef) : Prop :=
  (∀ flowID, (s.table f.kind).lookup flowID = some f.index →
    (s'.table f.kind).lookup flowID = some f.index) ∧
  match f.kind with
  | .tcp => s'.tcp f.index = s.tcp f.index ∧
    ∀ i, (s.tcp f.index).stream = some i → (s'.streams i).closed = (s.streams i).closed
  | .udp => s'.udp f.index = s.udp f.index

/-- In `closeFlow`, a goroutine that works for a flow leaves all other flows alone. -/
def ClosesOwnFlow (s : QUICSession) : Prop :=
  ∀ label g f pc s', label.goroutine = some g → s.closing g = some (f, pc) →
    s.step label = some s' → ∀ f' ≠ f, s.Untouched s' f'

/-- A flow is filed only under an id that no other flow has that is filed, as one of
the other kind may be, or that a goroutine may still close by that id. -/
def ReusesEnded (s : QUICSession) : QUICSessionStep → Prop
  | .control _ _ => ∀ f flowID, s.Files f flowID → ∀ f' : FlowRef, f' ≠ f →
    f'.index < s.created f'.kind → s.flowID f' = flowID → ¬s.Filed f' ∧ ¬s.Held f'
  | _ => True

theorem acceptorStep_drifts (hnew : (s.streams s.accepted).handler = .notAccepted)
    (h : s.acceptorStep ok = some s') : s.Drifts s' := by
  cases hpc : s.acceptor <;> simp only [acceptorStep, hpc, some.injEq,
    map_eq_some_iff, reduceCtorEq] at h
  case accept =>
    split_ifs at h <;> cases h
    · have hquiet : s.Quiet { s with wg := s.wg + 1 } := .of_eq rfl
      have hset : s.Drifts { { s with wg := s.wg + 1 }.setStream s.accepted
            { s.streams s.accepted with handler := .readID } with accepted := s.accepted + 1 } :=
        hquiet.setStream (Nat.le_succ _) (fun hle => by omega) (by rintro k ⟨⟩)
          (by rintro k pc ⟨⟩) (fun _ => by rw [hnew]; rfl)
      exact hset
    all_goals exact Quiet.drifts (.of_eq rfl)
  case closing =>
    obtain ⟨r, hr, rfl⟩ := h
    have hquiet := (closeStep_shuts hr).toQuiet
    split_ifs
    · exact Quiet.drifts (.of_view hquiet rfl)
    · exact hquiet.drifts
  case exiting =>
    subst h
    exact Quiet.drifts (.of_eq rfl)

structure OwnFlows (s : QUICSession) : Prop where
  named : ∀ kind id k, (s.table kind).lookup id = some k →
    k < s.created kind ∧ s.flowID ⟨kind, k⟩ = id
  held : ∀ f, s.Held f → f.index < s.created f.kind
  about : ∀ g f pc, s.closing g = some (f, pc) →
    f.index < s.created f.kind ∧ pc.About f (s.flowID f)
  inserts : ∀ f id, s.control = .insert f id → f.index < s.created f.kind ∧ s.flowID f = id
  writes : ∀ i k id payload, s.workers i = .write k id payload → s.flowID ⟨.udp, k⟩ = id
  exclusive : Exclusive s.flowID {f | s.Filed f} {f | s.Held f}
  attached : ∀ j k i, (s.tcp j).stream = some i → (s.tcp k).stream = some i → j = k
  early : ∀ k i, (s.tcp k).stream = some i → (s.streams i).handler.early = false
  unaccepted : ∀ i, s.accepted ≤ i → (s.streams i).handler = .notAccepted

theorem OwnFlows.lt_created (hs : s.OwnFlows) (hf : s.Held f ∨ s.Filed f) :
    f.index < s.created f.kind := by
  rcases hf with hheld | ⟨id, hlookup⟩
  · exact hs.held f hheld
  · exact (hs.named f.kind id f.index hlookup).1

theorem OwnFlows.lookup (hs : s.OwnFlows) {kind : FlowKind} {k : ℕ} (hf : s.Held f)
    (hk : (s.table kind).lookup (s.flowID f) = some k) : f = ⟨kind, k⟩ :=
  (hs.exclusive f (.inr hf) ⟨kind, k⟩ ⟨_, hk⟩ (hs.named kind _ k hk).2).symm

theorem closing_cases {pc : SessionCloseFlowPc} (h : s.closing g = some (f, pc)) :
    (∃ i k, g = .stream i ∧ (s.streams i).handler = .closeFlow k pc ∧ f = ⟨.tcp, k⟩) ∨
    (∃ k, g = .udpReader k ∧ (s.udp k).reader = .closeFlow pc ∧ f = ⟨.udp, k⟩) ∨
    ∃ i k, g = .worker i ∧ s.workers i = .closeFlow k pc ∧ f = ⟨.udp, k⟩ := by
  cases g with
  | stream i =>
    simp only [closing] at h
    split at h
    · rename_i k pc hpc
      cases h
      exact .inl ⟨i, k, rfl, hpc, rfl⟩
    · cases h
  | udpReader k =>
    simp only [closing] at h
    split at h
    · rename_i pc hpc
      cases h
      exact .inr (.inl ⟨k, rfl, hpc, rfl⟩)
    · cases h
  | worker i =>
    simp only [closing] at h
    split at h
    · rename_i k pc hpc
      cases h
      exact .inr (.inr ⟨i, k, rfl, hpc, rfl⟩)
    · cases h
  | _ => cases h

theorem held_of_delete {notify : Bool} (h : s.closing g = some (f, .delete flowID notify)) :
    s.Held f := by
  rcases closing_cases h with ⟨i, k, -, hpc, rfl⟩ | ⟨k, -, hpc, rfl⟩ | ⟨i, k, -, hpc, rfl⟩
  · exact ⟨i, by rw [hpc]; rfl⟩
  · exact .inl (by rw [hpc]; rfl)
  · exact .inr (.inr ⟨i, by rw [hpc]; rfl⟩)

theorem OwnFlows.closeFlowStep {pc next : SessionCloseFlowPc} (hs : s.OwnFlows)
    (hclosing : s.closing g = some (f, pc))
    (h : s.closeFlowStep g ok pc = some (s', some next)) : next.About f (s.flowID f) := by
  have habout := (hs.about g f pc hclosing).2
  cases pc with
  | delete id notify =>
    obtain rfl : id = s.flowID f := habout
    have hheld := held_of_delete hclosing
    have hnext := (Prod.mk.inj (some.inj h)).2
    cases htcp : s.tcpFlows.lookup (s.flowID f) with
    | some k =>
      have hf : f = ⟨.tcp, k⟩ := hs.lookup hheld htcp
      rw [htcp] at hnext
      cases hnext
      refine ⟨hf, ?_⟩
      rw [eq_none_iff_forall_ne_some]
      intro j hj
      have hudp : f = ⟨.udp, j⟩ := hs.lookup hheld hj
      rw [hf] at hudp
      cases hudp
    | none =>
      rw [htcp] at hnext
      cases hudp : s.udpFlows.lookup (s.flowID f) with
      | some k =>
        rw [hudp] at hnext
        cases hnext
        have hf : f = ⟨.udp, k⟩ := hs.lookup hheld hudp
        exact hf
      | none =>
        rw [hudp] at hnext
        cases hnext
  | closeTCP k udp id notify =>
    obtain ⟨hf, rfl⟩ := habout
    obtain ⟨r, -, hpair⟩ := map_eq_some_iff.mp h
    have hnext := (Prod.mk.inj hpair).2
    split_ifs at hnext
    · cases notify with
      | false => cases hnext
      | true =>
        cases hnext
        trivial
    · cases hnext
      exact ⟨hf, rfl⟩
  | closeUDP k id notify =>
    have hnext := (Prod.mk.inj (some.inj h)).2
    cases notify with
    | false => cases hnext
    | true =>
      cases hnext
      trivial
  | notify id =>
    obtain ⟨s₁, -, hpair⟩ := map_eq_some_iff.mp h
    cases (Prod.mk.inj hpair).2

theorem file_lookup (s : QUICSession) (f : FlowRef) (flowID : ℕ) (kind : FlowKind) (id : ℕ) :
    ((s.file f flowID).table kind).lookup id =
      if kind = f.kind ∧ id = flowID then some f.index else (s.table kind).lookup id := by
  obtain ⟨kind', k⟩ := f
  cases kind' <;> cases kind
  · exact (Table.lookup_insert_eq _ _ _ _).trans (by simp [table])
  · rfl
  · rfl
  · exact (Table.lookup_insert_eq _ _ _ _).trans (by simp [table])

theorem file_fields (s : QUICSession) (f : FlowRef) (flowID : ℕ) :
    (s.file f flowID).tcp = s.tcp ∧ (s.file f flowID).udp = s.udp ∧
    (s.file f flowID).streams = s.streams ∧ (s.file f flowID).workers = s.workers ∧
    (s.file f flowID).accepted = s.accepted ∧
    (s.file f flowID).tcpCreated = s.tcpCreated ∧ (s.file f flowID).udpCreated = s.udpCreated := by
  unfold file
  split <;> exact ⟨rfl, rfl, rfl, rfl, rfl, rfl, rfl⟩

def afterInsert (s : QUICSession) (f : FlowRef) (flowID : ℕ) : QUICSession :=
  { s.file f flowID with control := .writeOpenOK f flowID }

theorem afterInsert_flowID (s : QUICSession) (f : FlowRef) (flowID : ℕ) :
    (s.afterInsert f flowID).flowID = s.flowID := by
  obtain ⟨htcp, hudp, -⟩ := s.file_fields f flowID
  funext f'
  simp only [QUICSession.flowID, afterInsert, htcp, hudp]

theorem afterInsert_created (s : QUICSession) (f : FlowRef) (flowID : ℕ) (kind : FlowKind) :
    (s.afterInsert f flowID).created kind = s.created kind := by
  obtain ⟨-, -, -, -, -, htcp, hudp⟩ := s.file_fields f flowID
  cases kind <;> simp only [created, afterInsert, htcp, hudp]

theorem afterInsert_closing (s : QUICSession) (f : FlowRef) (flowID : ℕ) (g : SessionGoroutine) :
    (s.afterInsert f flowID).closing g = s.closing g := by
  obtain ⟨-, hudp, hstreams, hworkers, -⟩ := s.file_fields f flowID
  cases g <;> simp only [closing, afterInsert, hstreams, hudp, hworkers]

/-- The control loop holds the UDP flow that it has filed until its loop runs. -/
theorem held_of_afterInsert {f' : FlowRef} (h : (s.afterInsert f flowID).Held f') :
    f' = f ∨ s.Held f' := by
  obtain ⟨-, hudp, hstreams, hworkers, -⟩ := s.file_fields f flowID
  obtain ⟨kind, k⟩ := f'
  cases kind with
  | tcp =>
    simp only [Held, afterInsert, hstreams] at h
    exact .inr h
  | udp =>
    simp only [Held, afterInsert, hudp, hworkers] at h
    rcases h with hreader | hcontrol | hworker
    · exact .inr (.inl hreader)
    · obtain ⟨kind, j⟩ := f
      cases kind with
      | tcp => cases hcontrol
      | udp =>
        cases hcontrol
        exact .inl rfl
    · exact .inr (.inr (.inr hworker))

theorem filed_of_afterInsert {f' : FlowRef} (h : (s.afterInsert f flowID).Filed f') :
    f' = f ∨ s.Filed f' := by
  obtain ⟨kind, k⟩ := f'
  obtain ⟨id, hlookup⟩ := h
  change ((s.file f flowID).table kind).lookup id = some k at hlookup
  rw [file_lookup] at hlookup
  split_ifs at hlookup with hnew
  · cases hlookup
    exact .inl (by rw [hnew.1])
  · exact .inr ⟨id, hlookup⟩

theorem OwnFlows.files (hs : s.OwnFlows) (h : s.Files f flowID)
    (hended : ∀ f' : FlowRef, f' ≠ f → f'.index < s.created f'.kind → s.flowID f' = flowID →
      ¬s.Filed f' ∧ ¬s.Held f') : (s.afterInsert f flowID).OwnFlows := by
  obtain ⟨hlt, hid⟩ := hs.inserts f flowID h.1
  obtain ⟨htcp, -, hstreams, hworkers, haccepted, -⟩ := s.file_fields f flowID
  constructor
  · intro kind id k hlookup
    change ((s.file f flowID).table kind).lookup id = some k at hlookup
    rw [file_lookup] at hlookup
    rw [afterInsert_created, afterInsert_flowID]
    split_ifs at hlookup with hnew
    · cases hlookup
      obtain ⟨rfl, rfl⟩ := hnew
      exact ⟨hlt, hid⟩
    · exact hs.named kind id k hlookup
  · intro f' hf'
    rw [afterInsert_created]
    rcases held_of_afterInsert hf' with rfl | hold
    · exact hlt
    · exact hs.held f' hold
  · intro g f' pc hg
    rw [afterInsert_closing] at hg
    rw [afterInsert_created, afterInsert_flowID]
    exact hs.about g f' pc hg
  · rintro f' id ⟨⟩
  · intro i k id payload hw
    rw [afterInsert_flowID]
    exact hs.writes i k id payload (hworkers ▸ hw)
  · rw [afterInsert_flowID]
    apply hs.exclusive.file (f := f)
    · intro f' hf' hsame
      by_contra hne
      obtain ⟨hnotFiled, hnotHeld⟩ := hended f' hne (hs.lt_created hf'.symm) (hsame.trans hid)
      exact hf'.elim hnotFiled hnotHeld
    · exact fun f' hf' => filed_of_afterInsert hf'
    · exact fun f' hf' => (held_of_afterInsert hf').imp_right .inr
  · intro j k i hj hk
    exact hs.attached j k i (htcp ▸ hj) (htcp ▸ hk)
  · intro k i hk
    exact hstreams ▸ hs.early k i (htcp ▸ hk)
  · intro i hi
    exact hstreams ▸ hs.unaccepted i (haccepted ▸ hi)

end QUICSession
end VlfProto.Session
