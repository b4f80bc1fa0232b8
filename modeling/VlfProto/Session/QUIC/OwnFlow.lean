import VlfProto.Session.QUIC.BesideSteps
import VlfProto.Session.QUIC.ControlCases
import VlfProto.Platform.Names

/-! # What closing leaves alone -/

namespace VlfProto.Session
open Platform Transition Function

namespace QUICSession

variable {s s' s'' : QUICSession} {g : SessionGoroutine} {k : ℕ} {ok : Bool}

/-- What the `closeOnce` of a TCP flow can do: nothing but close the target and the
stream of that flow. -/
structure ClosesTCP (s s' : QUICSession) (k : ℕ) : Prop where
  quiet : s.Quiet s'
  tables : s'.tcpFlows = s.tcpFlows ∧ s'.udpFlows = s.udpFlows
  others : ∀ j, j ≠ k → s'.tcp j = s.tcp j
  udp : s'.udp = s.udp
  streams : ∀ i, (s.tcp k).stream ≠ some i → s'.streams i = s.streams i

theorem flowBodyStep_closes {stage : TCPFlowCloseStage} {next : Option TCPFlowCloseStage}
    (h : s.flowBodyStep k stage = some (s', next)) : s.ClosesTCP s' k := by
  have hquiet := (flowBodyStep_shuts h).toQuiet
  cases stage with
  | target =>
    cases h
    exact ⟨hquiet, ⟨rfl, rfl⟩, fun j hj => update_of_ne hj _ _, rfl, fun _ _ => rfl⟩
  | stream =>
    cases h
    cases hstream : (s.tcp k).stream with
    | none => exact ⟨.refl s, ⟨rfl, rfl⟩, fun _ _ => rfl, rfl, fun _ _ => rfl⟩
    | some i =>
      refine ⟨(Quiet.refl s).withStream rfl, ⟨rfl, rfl⟩, fun _ _ => rfl, rfl, fun j hj => ?_⟩
      apply update_of_ne
      rintro rfl
      exact hj hstream

theorem closeTCPFlow_closes {r : QUICSession × Bool} (h : s.closeTCPFlow g k = some r) :
    s.ClosesTCP r.1 k := by
  obtain ⟨r, hact, rfl⟩ := Option.map_eq_some_iff.mp h
  have hbody : s.ClosesTCP r.1 k := by
    rcases Once.act_cases hact with ⟨-, rfl⟩ | ⟨stage, s', next, -, hbody, rfl⟩ | ⟨-, rfl⟩
    · exact ⟨.refl s, ⟨rfl, rfl⟩, fun _ _ => rfl, rfl, fun _ _ => rfl⟩
    · exact flowBodyStep_closes hbody
    · exact ⟨.refl s, ⟨rfl, rfl⟩, fun _ _ => rfl, rfl, fun _ _ => rfl⟩
  refine ⟨hbody.quiet.withTCP rfl (fun h => h) rfl, hbody.tables, fun j hj => ?_, hbody.udp,
    hbody.streams⟩
  exact (update_of_ne hj _ _).trans (hbody.others j hj)

end QUICSession

/-! ### Whose flow a goroutine of a QUIC session closes

`closeFlow` looks an id up in both tables, so it may find a later flow with the same id, or one
of the other kind.
-/

open Option

/-- The flow that the handler of a stream may still close by its id. -/
def StreamPc.aim : StreamPc → Option ℕ
  | .attach k => some k
  | .pump k => some k
  | .await k => some k
  | .closeFlow k (.delete _ _) => some k
  | _ => none

/-- The handler has not come to attach its stream. -/
def StreamPc.early : StreamPc → Bool
  | .notAccepted => true
  | .readID => true
  | .lookup _ => true
  | .attach _ => true
  | _ => false

/-- The loop of a UDP flow may still close the flow by its id. -/
def UDPReadPc.mayClose : UDPReadPc → Bool
  | .read => true
  | .limit _ _ => true
  | .fragment _ _ => true
  | .send _ _ => true
  | .checkDone => true
  | .closeFlow (.delete _ _) => true
  | _ => false

def WorkerPc.aim : WorkerPc → Option ℕ
  | .write k _ _ => some k
  | .closeFlow k (.delete _ _) => some k
  | _ => none

def ControlPc.starts : ControlPc → Option ℕ
  | .writeOpenOK ⟨.udp, k⟩ _ => some k
  | .spawn k => some k
  | _ => none

def SessionCloseFlowPc.About (pc : SessionCloseFlowPc) (f : FlowRef) (flowID : ℕ) : Prop :=
  match pc with
  | .delete id _ => id = flowID
  | .closeTCP k udp _ _ => f = ⟨.tcp, k⟩ ∧ udp = none
  | .closeUDP k _ _ => f = ⟨.udp, k⟩
  | .notify _ => True

namespace QUICSession

variable {s s' s₁ : QUICSession} {g : SessionGoroutine} {f : FlowRef} {i k : ℕ} {ok : Bool}

/-- Some goroutine works for the flow and may still close it by its id. -/
def Held (s : QUICSession) (f : FlowRef) : Prop :=
  match f.kind with
  | .tcp => ∃ i, (s.streams i).handler.aim = some f.index
  | .udp => (s.udp f.index).reader.mayClose ∨ s.control.starts = some f.index ∨
      ∃ i, (s.workers i).aim = some f.index

def Filed (s : QUICSession) (f : FlowRef) : Prop :=
  ∃ flowID, (s.table f.kind).lookup flowID = some f.index

def closing (s : QUICSession) : SessionGoroutine → Option (FlowRef × SessionCloseFlowPc)
  | .stream i =>
    match (s.streams i).handler with
    | .closeFlow k pc => some (⟨.tcp, k⟩, pc)
    | _ => none
  | .udpReader k =>
    match (s.udp k).reader with
    | .closeFlow pc => some (⟨.udp, k⟩, pc)
    | _ => none
  | .worker i =>
    match s.workers i with
    | .closeFlow k pc => some (⟨.udp, k⟩, pc)
    | _ => none
  | _ => none

/-- A goroutine comes to this point of closing its flow in one step. -/
def Enters (s : QUICSession) (g : SessionGoroutine) (f : FlowRef) (pc : SessionCloseFlowPc) :
    Prop :=
  (s.Held f ∧ ∃ notify, pc = .delete (s.flowID f) notify) ∨
  ∃ before ok r, s.closing g = some (f, before) ∧
    s.closeFlowStep g ok before = some (r, some pc)

/-- What every step other than the filing of a flow keeps. -/
structure Drifts (s s' : QUICSession) : Prop where
  created : ∀ kind, s.created kind ≤ s'.created kind
  flowID : ∀ f : FlowRef, f.index < s.created f.kind → s'.flowID f = s.flowID f
  table : ∀ kind id k, (s'.table kind).lookup id = some k → (s.table kind).lookup id = some k
  held : ∀ f, s'.Held f → s.Held f ∨ s.Filed f
  closes : ∀ g f pc, s'.closing g = some (f, pc) → s.closing g = some (f, pc) ∨ s.Enters g f pc
  inserts : ∀ f id, s'.control = .insert f id →
    s.control = .insert f id ∨ f.index < s'.created f.kind ∧ s'.flowID f = id
  writes : ∀ i k id payload, s'.workers i = .write k id payload →
    s.workers i = .write k id payload ∨ s.udpFlows.lookup id = some k
  stream : ∀ k i, (s'.tcp k).stream = some i → (s.tcp k).stream = some i ∨
    (s.streams i).handler = .attach k ∧ (s'.streams i).handler = .pump k
  early : ∀ i, (s'.streams i).handler.early → (s.streams i).handler.early
  accepted : ∀ i, s'.accepted ≤ i → s.accepted ≤ i ∧
    ((s.streams i).handler = .notAccepted → (s'.streams i).handler = .notAccepted)

theorem Quiet.drifts (h : s.Quiet s') : s.Drifts s' where
  created kind := (h.created kind).ge
  flowID f _ := h.flowID f
  table := h.table
  held f hf := by
    obtain ⟨kind, k⟩ := f
    cases kind with
    | tcp =>
      obtain ⟨i, hi⟩ := hf
      exact .inl ⟨i, by rw [← h.handler, hi]⟩
    | udp =>
      simp only [Held, h.reader, h.control, h.workers] at hf
      exact .inl hf
  closes g f pc hg := by
    refine .inl ?_
    rw [← hg]
    cases g <;> simp only [closing, h.handler, h.reader, h.workers]
  inserts f id hf := .inl (h.control ▸ hf)
  writes i k id payload hw := .inl (h.workers ▸ hw)
  stream k i hk := .inl (h.stream k ▸ hk)
  early i hi := h.handler i ▸ hi
  accepted i hi := ⟨h.accepted ▸ hi, fun hnot => (h.handler i).trans hnot⟩

theorem Quiet.setStream {stream : FlowStream} {accepted : ℕ} (h : s.Quiet s₁)
    (hle : s.accepted ≤ accepted) (hstarted : accepted ≤ i → (s.streams i).handler ≠ .notAccepted)
    (haim : ∀ k, stream.handler.aim = some k → s.Held ⟨.tcp, k⟩ ∨ s.Filed ⟨.tcp, k⟩)
    (hcloses : ∀ k pc, stream.handler = .closeFlow k pc → s.Enters (.stream i) ⟨.tcp, k⟩ pc)
    (hearly : stream.handler.early → (s.streams i).handler.early) :
    s.Drifts { s₁.setStream i stream with accepted := accepted } := by
  have hd := h.drifts
  have hself : ((s₁.setStream i stream).streams i) = stream := update_self ..
  have hother : ∀ j, j ≠ i → (s₁.setStream i stream).streams j = s₁.streams j :=
    fun j hj => update_of_ne hj ..
  refine ⟨hd.created, hd.flowID, hd.table, ?_, ?_, hd.inserts, hd.writes,
    fun k j hk => .inl (h.stream k ▸ hk), ?_, ?_⟩
  · rintro ⟨kind, k⟩ hf
    cases kind with
    | tcp =>
      obtain ⟨j, hj⟩ := hf
      by_cases hji : j = i
      · rw [hji, hself] at hj
        exact haim k hj
      · rw [hother j hji] at hj
        exact hd.held ⟨.tcp, k⟩ ⟨j, hj⟩
    | udp => exact hd.held ⟨.udp, k⟩ hf
  · intro g f pc hg
    by_cases hgi : g = .stream i
    · subst hgi
      simp only [closing, hself] at hg
      split at hg
      · rename_i k pc' hpc
        obtain ⟨rfl, rfl⟩ := Prod.mk.inj (some.inj hg)
        exact .inr (hcloses k pc' hpc)
      · cases hg
    · apply hd.closes g f pc
      rw [← hg]
      cases g with
      | stream j =>
        have hj : j ≠ i := by
          rintro rfl
          exact hgi rfl
        simp only [closing, hother j hj]
      | _ => rfl
  · intro j hj
    by_cases hji : j = i
    · rw [hji, hself] at hj
      exact hji ▸ hearly hj
    · rw [hother j hji] at hj
      exact hd.early j hj
  · intro j hj
    refine ⟨hle.trans hj, fun hnot => ?_⟩
    by_cases hji : j = i
    · exact absurd (hji ▸ hnot) (hstarted (hji ▸ hj))
    · exact (congrArg FlowStream.handler (hother j hji)).trans ((h.handler j).trans hnot)

theorem Quiet.setUDP {flow : SessionUDPFlow} (h : s.Quiet s₁) (hid : flow.id = (s.udp k).id)
    (hmay : flow.reader.mayClose → s.Held ⟨.udp, k⟩)
    (hcloses : ∀ pc, flow.reader = .closeFlow pc → s.Enters (.udpReader k) ⟨.udp, k⟩ pc) :
    s.Drifts (s₁.setUDP k flow) := by
  have hd := h.drifts
  have hself : ((s₁.setUDP k flow).udp k) = flow := update_self ..
  have hother : ∀ j, j ≠ k → (s₁.setUDP k flow).udp j = s₁.udp j :=
    fun j hj => update_of_ne hj ..
  have hflowID : ∀ f, (s₁.setUDP k flow).flowID f = s₁.flowID f := by
    rintro ⟨kind, j⟩
    cases kind with
    | tcp => rfl
    | udp =>
      by_cases hjk : j = k
      · change ((s₁.setUDP k flow).udp j).id = (s₁.udp j).id
        rw [hjk, hself, hid]
        exact (h.flowID ⟨.udp, k⟩).symm
      · change ((s₁.setUDP k flow).udp j).id = (s₁.udp j).id
        rw [hother j hjk]
  refine ⟨hd.created, fun f hf => (hflowID f).trans (hd.flowID f hf), hd.table, ?_, ?_,
    fun f id hf => .inl (h.control ▸ hf), hd.writes, hd.stream, hd.early, hd.accepted⟩
  · rintro ⟨kind, j⟩ hf
    cases kind with
    | tcp => exact hd.held ⟨.tcp, j⟩ hf
    | udp =>
      rcases hf with hreader | hf
      · by_cases hjk : j = k
        · subst hjk
          rw [hself] at hreader
          exact .inl (hmay hreader)
        · rw [hother j hjk] at hreader
          exact hd.held ⟨.udp, j⟩ (.inl hreader)
      · exact hd.held ⟨.udp, j⟩ (.inr hf)
  · intro g f pc hg
    by_cases hgk : g = .udpReader k
    · subst hgk
      simp only [closing, hself] at hg
      split at hg
      · rename_i pc' hpc
        obtain ⟨rfl, rfl⟩ := Prod.mk.inj (some.inj hg)
        exact .inr (hcloses pc' hpc)
      · cases hg
    · apply hd.closes g f pc
      rw [← hg]
      cases g with
      | udpReader j =>
        have hj : j ≠ k := by
          rintro rfl
          exact hgk rfl
        simp only [closing, hother j hj]
      | _ => rfl

theorem Quiet.setWorker {pc : WorkerPc} (h : s.Quiet s₁)
    (haim : ∀ k, pc.aim = some k → s.Held ⟨.udp, k⟩ ∨ s.Filed ⟨.udp, k⟩)
    (hcloses : ∀ k flowPc, pc = .closeFlow k flowPc → s.Enters (.worker i) ⟨.udp, k⟩ flowPc)
    (hwrites : ∀ k id payload, pc = .write k id payload → s.udpFlows.lookup id = some k) :
    s.Drifts (s₁.setWorker i pc) := by
  have hd := h.drifts
  have hself : ((s₁.setWorker i pc).workers i) = pc := update_self ..
  have hother : ∀ j, j ≠ i → (s₁.setWorker i pc).workers j = s₁.workers j :=
    fun j hj => update_of_ne hj ..
  refine ⟨hd.created, hd.flowID, hd.table, ?_, ?_, hd.inserts, ?_, hd.stream, hd.early,
    hd.accepted⟩
  · rintro ⟨kind, k⟩ hf
    cases kind with
    | tcp => exact hd.held ⟨.tcp, k⟩ hf
    | udp =>
      rcases hf with hreader | hcontrol | ⟨j, hj⟩
      · exact hd.held ⟨.udp, k⟩ (.inl hreader)
      · exact hd.held ⟨.udp, k⟩ (.inr (.inl hcontrol))
      · by_cases hji : j = i
        · rw [hji, hself] at hj
          exact haim k hj
        · rw [hother j hji] at hj
          exact hd.held ⟨.udp, k⟩ (.inr (.inr ⟨j, hj⟩))
  · intro g f flowPc hg
    by_cases hgi : g = .worker i
    · subst hgi
      simp only [closing, hself] at hg
      cases pc with
      | closeFlow k pc' =>
        obtain ⟨rfl, rfl⟩ := Prod.mk.inj (some.inj hg)
        exact .inr (hcloses k pc' rfl)
      | _ => cases hg
    · apply hd.closes g f flowPc
      rw [← hg]
      cases g with
      | worker j =>
        have hj : j ≠ i := by
          rintro rfl
          exact hgi rfl
        simp only [closing, hother j hj]
      | _ => rfl
  · intro j k id payload hj
    by_cases hji : j = i
    · rw [hji, hself] at hj
      exact .inr (hwrites k id payload hj)
    · rw [hother j hji] at hj
      exact hd.writes j k id payload hj

theorem Drifts.setControl {pc : ControlPc} (hd : s.Drifts s₁)
    (hstarts : ∀ k, pc.starts = some k → s.Held ⟨.udp, k⟩)
    (hinserts : ∀ f id, pc ≠ .insert f id) : s.Drifts { s₁ with control := pc } := by
  refine ⟨hd.created, hd.flowID, hd.table, ?_, ?_, fun f id hf => absurd hf (hinserts f id),
    hd.writes, hd.stream, hd.early, hd.accepted⟩
  · rintro ⟨kind, k⟩ hf
    cases kind with
    | tcp => exact hd.held ⟨.tcp, k⟩ hf
    | udp =>
      rcases hf with hreader | hcontrol | hworker
      · exact hd.held ⟨.udp, k⟩ (.inl hreader)
      · exact .inl (hstarts k hcontrol)
      · exact hd.held ⟨.udp, k⟩ (.inr (.inr hworker))
  · intro g f flowPc hg
    apply hd.closes g f flowPc
    rw [← hg]
    cases g <;> rfl

end QUICSession
end VlfProto.Session
