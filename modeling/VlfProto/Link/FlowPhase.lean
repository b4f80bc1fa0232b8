import VlfProto.Client.UDPFlowMoves
import VlfProto.Link.QUICLink

/-! # The life of a UDP flow between client and session -/

namespace VlfProto.Link
open Platform Transition Client Session Function

inductive FlowPhase where
  | fresh
  | queued
  | handled
  | filed
  | granted
  | inserting
  | registered
  | refused
  | ended
  deriving DecidableEq

def ControlCall.flow : ControlCall → Option (FlowKind × UInt64)
  | .writeOpen kind flowID _ _ => some (kind, flowID)
  | .readOpen kind flowID => some (kind, flowID)
  | _ => none

def closeRequest (frame : Frame) : Option ℕ :=
  if frame.type = frameCLOSEFLOW then (decodeCloseFlowPayload frame.payload).toOption else none

/-- A frame that closes flow `id`, or gives the id to a TCP flow. -/
def endsFlow (id : ℕ) (frame : Frame) : Prop :=
  openRequest frame = some (.tcp, id) ∨ closeRequest frame = some id

namespace FlowPhase

structure AtCalls (phase : FlowPhase) (l : QUICLink) (id : UInt64) : Prop where
  unused : l.used id = none → phase = .fresh
  tcp : l.used id = some .tcp → phase = .ended
  opened : id ∈ l.tcpFlows → l.used id = some .tcp
  call : ∀ i kind, (l.calls i).flow = some (kind, id) → l.used id = some kind
  unique : ∀ i j kind, (l.calls i).flow = some (kind, id) → (l.calls j).flow = some (kind, id) →
    i = j
  unsent : ∀ i dstHost dstPort, l.calls i = .writeOpen .udp id dstHost dstPort → phase = .fresh
  waiting : ∀ i, l.calls i = .readOpen .udp id →
    phase ∈ [.queued, .handled, .filed, .granted, .refused]

/-- What the table and the flows of the client know of it. -/
structure AtTable (phase : FlowPhase) (c : QUICClient) (id : UInt64) : Prop where
  insert : ∀ i, c.users i = .insert id → phase = .inserting
  inserter : ∀ i j, c.users i = .insert id → c.users j = .insert id → i = j
  entered : (c.udpFlows.lookup id).isSome → phase = .registered
  object : ∀ k < c.created, (c.flows k).id = id → phase ∈ [.registered, .ended]
  left : ∀ k, leftTable (c.flows k).once → (c.flows k).id = id → phase = .ended

/-- The phase of a UDP flow whose request has got to `phase`; a TCP flow has its id for good. -/
def ofKind (kind : FlowKind) (phase : FlowPhase) : FlowPhase :=
  if kind = .udp then phase else .ended

def ofStage (id : ℕ) : OpenStage → Option FlowPhase
  | .checking kind flowID => if flowID = id then some (ofKind kind .handled) else none
  | .dialed kind flowID _ => if flowID = id then some (ofKind kind .handled) else none
  | .answering a =>
    if a.flowID = id then some (ofKind a.kind (if a.ok then .filed else .refused)) else none
  | .idle => none

/-- What the session knows of it, and what is on its way between the two; `wanted` tells that
the client still waits for the flow or has it. -/
structure AtServer (phase : FlowPhase) (wanted : Prop) (uplink : List Frame)
    (downlink : List SessionFrame) (s : QUICSession) (id : ℕ) : Prop where
  asked : (uplink.filterMap openRequest).count (.udp, id) = if phase = .queued then 1 else 0
  ends : ∀ frame ∈ uplink, endsFlow id frame → phase = .ended
  stage : ∀ p, ofStage id s.control.openStage = some p → phase = p
  table : wanted → phase ∈ [.filed, .granted, .inserting, .registered] →
    (s.udpFlows.lookup id).isSome
  closing : ∀ notify, s.control = .closeFlow (.delete id notify) → phase ∈ [.refused, .ended]
  answered : .openOK .udp id ∈ downlink → phase ∈ [.granted, .inserting, .registered, .ended]

variable {phase phase' : FlowPhase} {l : QUICLink} {c c' : QUICClient} {id flowID : UInt64} {i : ℕ}

theorem new_atCalls (cfg : SessionConfig) (session : UInt64) (limits : Limits.Manager)
    (id : UInt64) : fresh.AtCalls (.new cfg session limits) id where
  unused _ := rfl
  tcp h := by cases h
  opened h := by cases h
  call _ _ h := by cases h
  unique _ _ _ h := by cases h
  unsent _ _ _ h := by cases h
  waiting _ h := by cases h

theorem initial_atTable (id : UInt64) : fresh.AtTable .initial id where
  insert _ h := by cases h
  inserter _ _ h := by cases h
  entered h := by simp [QUICClient.initial] at h
  object _ h := by cases h
  left _ h := by cases h

theorem started_atServer (cfg : SessionConfig) (session : UInt64) (limits : Limits.Manager)
    (wanted : Prop) (id : ℕ) : fresh.AtServer wanted [] [] (started cfg session limits) id where
  asked := rfl
  ends _ h := by cases h
  stage p h := by cases h
  table _ h := by simp at h
  closing _ h := by cases h
  answered h := by cases h

theorem AtTable.early (h : phase.AtTable c id)
    (hphase : phase ∉ [.inserting, .registered, .ended]) :
    phase'.AtTable c id where
  insert i hi := absurd (h.insert i hi) fun hp => hphase (by simp [hp])
  inserter := h.inserter
  entered hin := absurd (h.entered hin) fun hp => hphase (by simp [hp])
  object k hk hid := by
    have hobject := h.object k hk hid
    revert hphase hobject
    cases phase <;> simp
  left k hk hid := absurd (h.left k hk hid) fun hp => hphase (by simp [hp])

theorem AtTable.still (h : phase.AtTable c id) (hstill : c.Still c') :
    phase.AtTable c' id ∨ phase = .registered ∧ ended.AtTable c' id := by
  have hentered : (c'.udpFlows.lookup id).isSome → (c.udpFlows.lookup id).isSome := by
    intro hin
    obtain ⟨k, hk⟩ := Option.isSome_iff_exists.mp hin
    exact Option.isSome_iff_exists.mpr ⟨k, hstill.table id k hk⟩
  by_cases hleft : ∃ k < c.created, (c.flows k).id = id ∧ leftTable (c'.flows k).once ∧
      c'.udpFlows.lookup id = none ∧ phase = .registered
  · obtain ⟨k, hk, hid, -, hnone, rfl⟩ := hleft
    refine .inr ⟨rfl, fun i hi => ?_, fun i j hi hj => h.inserter i j (hstill.insert i id hi)
      (hstill.insert j id hj), fun hin => ?_, fun _ _ _ => (by simp), fun _ _ _ => rfl⟩
    · cases h.insert i (hstill.insert i id hi)
    · rw [hnone] at hin
      cases hin
  · refine .inl ⟨fun i hi => h.insert i (hstill.insert i id hi), fun i j hi hj => h.inserter i j
      (hstill.insert i id hi) (hstill.insert j id hj), fun hin => h.entered (hentered hin),
      fun k hk hid => h.object k (hstill.created ▸ hk) (hstill.id k ▸ hid), fun k hk hid => ?_⟩
    rw [hstill.id] at hid
    rcases hstill.left k hk with hold | ⟨hlt, hnone⟩
    · exact h.left k hold hid
    · have hobject := h.object k hlt hid
      simp only [List.mem_cons, List.not_mem_nil, or_false] at hobject
      rcases hobject with hregistered | hover
      · exact absurd ⟨k, hlt, hid, hk, hid ▸ hnone, hregistered⟩ hleft
      · exact hover

theorem AtTable.insertFlow (h : phase.AtTable c id) (hi : c.users i = .insert flowID) :
    flowID ≠ id ∧ phase.AtTable ((c.insertFlow flowID).setUser i .idle) id ∨
      flowID = id ∧ phase = .inserting ∧
        registered.AtTable ((c.insertFlow flowID).setUser i .idle) id := by
  have huser (j : ℕ) (hj : ((c.insertFlow flowID).setUser i .idle).users j = .insert id) :
      j ≠ i ∧ c.users j = .insert id := by
    by_cases hji : j = i
    · simp [QUICClient.setUser, hji] at hj
    · simpa [QUICClient.setUser, QUICClient.insertFlow, QUICClient.setFlow, hji] using hj
  have hflow (k : ℕ) : ((c.insertFlow flowID).setUser i .idle).flows k =
      if k = c.created then .new flowID else c.flows k := by
    simp [QUICClient.setUser, QUICClient.insertFlow, QUICClient.setFlow, Function.update_apply]
  have hleft (k : ℕ) (hk : leftTable (((c.insertFlow flowID).setUser i .idle).flows k).once)
      (hid : (((c.insertFlow flowID).setUser i .idle).flows k).id = id) : phase = .ended := by
    rw [hflow] at hk hid
    split_ifs at hk hid
    · cases hk
    · exact h.left k hk hid
  by_cases hid : flowID = id
  · have hphase := h.insert i (hid ▸ hi)
    refine .inr ⟨hid, hphase, fun j hj => ?_, fun j _ hj => ?_, fun _ => rfl,
      fun _ _ _ => (by simp), fun k hk hid => ?_⟩
    · exact absurd (h.inserter j i (huser j hj).2 (hid ▸ hi)) (huser j hj).1
    · exact absurd (h.inserter j i (huser j hj).2 (hid ▸ hi)) (huser j hj).1
    · rw [hleft k hk hid] at hphase
      cases hphase
  · refine .inl ⟨hid, fun j hj => h.insert j (huser j hj).2, fun j j' hj hj' => h.inserter j j'
      (huser j hj).2 (huser j' hj').2, fun hin => h.entered ?_, fun k hk hkid => ?_, hleft⟩
    · change ((c.udpFlows.insert flowID c.created).lookup id).isSome at hin
      rwa [Finmap.lookup_insert_of_ne _ (Ne.symm hid)] at hin
    · rw [hflow] at hkid
      split_ifs at hkid with hnew
      · exact absurd hkid hid
      · exact h.object k (lt_of_le_of_ne (Nat.lt_succ_iff.mp hk) hnew) hkid

theorem AtTable.setInsert (h : phase.AtTable c id) (hphase : phase = .granted) :
    inserting.AtTable (c.setUser i (.insert id)) id := by
  have hnone (j : ℕ) : c.users j ≠ .insert id := fun hj => by
    have hinserting := h.insert j hj
    rw [hphase] at hinserting
    cases hinserting
  have huser (j : ℕ) (hj : (c.setUser i (.insert id)).users j = .insert id) : j = i := by
    by_contra hji
    exact hnone j (by simpa [QUICClient.setUser, hji] using hj)
  have hearly : inserting.AtTable c id := h.early (by simp [hphase])
  exact { hearly with
    insert := fun _ _ => rfl
    inserter := fun j j' hj hj' => (huser j hj).trans (huser j' hj').symm }

theorem AtTable.setOtherInsert (h : phase.AtTable c id) (hne : flowID ≠ id) :
    phase.AtTable (c.setUser i (.insert flowID)) id := by
  have huser (j : ℕ) (hj : (c.setUser i (.insert flowID)).users j = .insert id) :
      c.users j = .insert id := by
    by_cases hji : j = i
    · exact absurd (by simpa [QUICClient.setUser, hji] using hj) hne
    · simpa [QUICClient.setUser, hji] using hj
  exact { h with
    insert := fun j hj => h.insert j (huser j hj)
    inserter := fun j j' hj hj' => h.inserter j j' (huser j hj) (huser j' hj') }

/-! ### The control calls of the client and the ids of its flows -/

variable {call : ControlCall} {kind : FlowKind} {dstHost : Bytes} {dstPort : UInt16}

/-- A request that was sent goes on. -/
theorem AtCalls.goOn (h : phase.AtCalls l id) (hfresh : phase ≠ .fresh) (hended : phase ≠ .ended)
    (hwaiting : ∀ i, l.calls i = .readOpen .udp id →
      phase' ∈ [.queued, .handled, .filed, .granted, .refused]) : phase'.AtCalls l id :=
  { h with
    unused := fun hunused => absurd (h.unused hunused) hfresh
    tcp := fun htcp => absurd (h.tcp htcp) hended
    unsent := fun i dstHost dstPort hi => absurd (h.unsent i dstHost dstPort hi) hfresh
    waiting := hwaiting }

theorem AtCalls.late (h : phase.AtCalls l id) (hphase : phase = .inserting ∨ phase = .registered) :
    phase'.AtCalls l id := by
  rcases hphase with rfl | rfl <;>
    exact h.goOn (by simp) (by simp) fun i hi => absurd (h.waiting i hi) (by simp)

theorem AtCalls.setCall (h : phase.AtCalls l id)
    (hflow : ∀ kind, call.flow = some (kind, id) → (l.calls i).flow = some (kind, id))
    (hunsent : ∀ dstHost dstPort, call = .writeOpen .udp id dstHost dstPort → phase = .fresh)
    (hwaiting : call = .readOpen .udp id →
      phase ∈ [.queued, .handled, .filed, .granted, .refused]) :
    phase.AtCalls (l.setCall i call) id := by
  have hcalls (j : ℕ) : (l.setCall i call).calls j = if j = i then call else l.calls j := by
    simp [QUICLink.setCall, update_apply]
  have hold (j : ℕ) (kind : FlowKind)
      (hj : ((l.setCall i call).calls j).flow = some (kind, id)) :
      (l.calls j).flow = some (kind, id) := by
    rw [hcalls] at hj
    split_ifs at hj with hji
    · exact hji ▸ hflow kind hj
    · exact hj
  refine ⟨h.unused, h.tcp, h.opened, fun j kind hj => h.call j kind (hold j kind hj),
    fun j j' kind hj hj' => h.unique j j' kind (hold j kind hj) (hold j' kind hj'), ?_, ?_⟩
  · intro j dstHost dstPort hj
    rw [hcalls] at hj
    split_ifs at hj
    · exact hunsent dstHost dstPort hj
    · exact h.unsent j dstHost dstPort hj
  · intro j hj
    rw [hcalls] at hj
    split_ifs at hj
    · exact hwaiting hj
    · exact h.waiting j hj

theorem AtCalls.setOther (h : phase.AtCalls l id) (hcall : ∀ kind, call.flow ≠ some (kind, id)) :
    phase.AtCalls (l.setCall i call) id := by
  refine h.setCall (fun kind hkind => absurd hkind (hcall kind)) (fun dstHost dstPort hopen => ?_)
    fun hread => ?_
  · subst hopen
    exact absurd rfl (hcall .udp)
  · subst hread
    exact absurd rfl (hcall .udp)

theorem AtCalls.release (h : phase.AtCalls l id) : phase.AtCalls (l.release i) id :=
  AtCalls.setOther (l := { l with ctrlMu := none }) { h with } (by simp [ControlCall.flow])

theorem AtCalls.flow_ne (h : phase.AtCalls l id) (hunused : l.used id = none) (j : ℕ)
    (kind : FlowKind) : (l.calls j).flow ≠ some (kind, id) := by
  intro hj
  have hused := h.call j kind hj
  rw [hunused] at hused
  cases hused

/-- The counter hands out the id; if it is for a TCP flow, a UDP flow will never have it. -/
theorem AtCalls.openFlow (h : phase.AtCalls l id) (hunused : l.used id = none) :
    (if kind = .udp then fresh else ended).AtCalls
      ({ l with used := update l.used id (some kind) }.setCall i
        (.writeOpen kind id dstHost dstPort)) id := by
  have hused : update l.used id (some kind) id = some kind := update_self ..
  have hcall (j : ℕ) (kind' : FlowKind)
      (hj : (update l.calls i (.writeOpen kind id dstHost dstPort) j).flow = some (kind', id)) :
      j = i ∧ kind' = kind := by
    by_cases hji : j = i
    · rw [hji, update_self] at hj
      exact ⟨hji, (Prod.mk.inj (Option.some.inj hj)).1.symm⟩
    · rw [update_of_ne hji] at hj
      exact absurd hj (h.flow_ne hunused j kind')
  constructor
  · intro hnone
    cases hused.symm.trans hnone
  · intro htcp
    cases hused.symm.trans htcp
    rfl
  · intro hopened
    cases hunused.symm.trans (h.opened hopened)
  · intro j kind' hj
    rw [(hcall j kind' hj).2]
    exact hused
  · intro j j' kind' hj hj'
    exact (hcall j kind' hj).1.trans (hcall j' kind' hj').1.symm
  · intro j dstHost' dstPort' hj
    obtain ⟨-, rfl⟩ := hcall j .udp (by
      change update l.calls i _ j = _ at hj
      rw [hj]
      rfl)
    rfl
  · intro j hj
    change update l.calls i _ j = _ at hj
    obtain ⟨rfl, -⟩ := hcall j .udp (by rw [hj]; rfl)
    rw [update_self] at hj
    cases hj

theorem AtCalls.openOther (h : phase.AtCalls l id) (hne : flowID ≠ id) :
    phase.AtCalls ({ l with used := update l.used flowID (some kind) }.setCall i
      (.writeOpen kind flowID dstHost dstPort)) id := by
  have hused : update l.used flowID (some kind) id = l.used id :=
    update_of_ne hne.symm ..
  have hkeep : phase.AtCalls { l with used := update l.used flowID (some kind) } id :=
    ⟨fun hnone => h.unused (hused ▸ hnone), fun htcp => h.tcp (hused ▸ htcp),
      fun hopened => hused.trans (h.opened hopened),
        fun j kind' hj => hused.trans (h.call j kind' hj),
      h.unique, h.unsent, h.waiting⟩
  refine hkeep.setOther fun kind' hkind => hne ?_
  exact (Prod.mk.inj (Option.some.inj hkind)).2

theorem AtCalls.writeOpen (h : phase.AtCalls l id)
    (hcall : l.calls i = .writeOpen .udp id dstHost dstPort) :
    phase = .fresh ∧ queued.AtCalls (l.setCall i (.readOpen .udp id)) id := by
  have hflow : (l.calls i).flow = some (.udp, id) := by rw [hcall]; rfl
  have hused := h.call i .udp hflow
  have hold (j : ℕ) (kind : FlowKind)
      (hj : ((l.setCall i (.readOpen .udp id)).calls j).flow = some (kind, id)) :
      (l.calls j).flow = some (kind, id) := by
    by_cases hji : j = i
    · subst hji
      rw [hflow]
      simpa [QUICLink.setCall, ControlCall.flow] using hj
    · simpa [QUICLink.setCall, hji] using hj
  refine ⟨h.unsent i dstHost dstPort hcall, fun hnone => ?_, fun htcp => ?_, h.opened,
    fun j kind hj => h.call j kind (hold j kind hj),
    fun j j' kind hj hj' => h.unique j j' kind (hold j kind hj) (hold j' kind hj'),
    fun j dstHost' dstPort' hj => ?_, fun _ _ => (by simp)⟩
  · cases hused.symm.trans hnone
  · cases hused.symm.trans htcp
  · have hji : j = i := h.unique j i .udp (hold j .udp (by rw [hj]; rfl)) hflow
    simp [QUICLink.setCall, hji] at hj

theorem AtCalls.acceptTCP (h : phase.AtCalls l id) (hcall : l.calls i = .readOpen .tcp flowID) :
    phase.AtCalls (l.accept i .tcp flowID) id := by
  refine { h.release with opened := fun hopened => ?_ }
  rcases Finset.mem_insert.mp hopened with rfl | hopened
  · exact h.call i .tcp (by rw [hcall]; rfl)
  · exact h.opened hopened

theorem AtCalls.acceptUDP (h : phase.AtCalls l id) (hcall : l.calls i = .readOpen .udp id)
    (hphase : phase = .granted) : inserting.AtCalls (l.release i) id := by
  refine h.release.goOn (by simp [hphase]) (by simp [hphase]) fun j hj => ?_
  by_cases hji : j = i
  · simp [QUICLink.release, QUICLink.setCall, hji] at hj
  · have hold : l.calls j = .readOpen .udp id := by
      simpa [QUICLink.release, QUICLink.setCall, hji] using hj
    exact absurd (h.unique j i .udp (by rw [hold]; rfl) (by rw [hcall]; rfl)) hji

end FlowPhase
end VlfProto.Link
