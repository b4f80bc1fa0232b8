import Mathlib.Data.List.ModifyLast
import VlfProto.Session.Payloads
import VlfProto.Transition.Path

/-!
# Answering opens

A handler answers the opens one after the other and closes every socket that it has dialed and
not inserted. When decoding a payload panics, the deferred calls run and the process ends.
-/
namespace VlfProto.Session
open Platform List

inductive FlowKind where
  | tcp
  | udp
  deriving DecidableEq

structure FlowRef where
  kind : FlowKind
  index : ℕ
  deriving DecidableEq

/-- An open that was received: the object created for the socket that was dialed, and
whether it was inserted. -/
structure Opening where
  kind : FlowKind
  flowID : ℕ
  dialed : Option ℕ
  inserted : Bool
  deriving DecidableEq

structure OpenAnswer where
  kind : FlowKind
  flowID : ℕ
  ok : Bool
  deriving DecidableEq

def Opening.answer (o : Opening) : OpenAnswer := ⟨o.kind, o.flowID, o.inserted⟩

/-- An open that has just been received. -/
def Opening.received (request : FlowKind × ℕ) : Opening := ⟨request.1, request.2, none, false⟩

/-- The open that a payload asks for; the flow id is zero if the payload does not decode. -/
def requestOf (kind : FlowKind) (payload : Bytes) : FlowKind × ℕ :=
  match decodeOpenPayload payload with
  | .ok p => (kind, p.flowID)
  | .error _ => (kind, 0)

def openRequest (f : Frame) : Option (FlowKind × ℕ) :=
  if f.type = frameOPENTCP then some (requestOf .tcp f.payload)
  else if f.type = frameOPENUDP then some (requestOf .udp f.payload)
  else none

/-- The lengths that an open announces can be allocated. -/
def Frame.OpenFits (f : Frame) : Prop :=
  f.type = frameOPENTCP ∨ f.type = frameOPENUDP →
    ∀ n ∈ Field.lengths openLayout f.payload, n ≤ maxAlloc

instance (f : Frame) : Decidable f.OpenFits := by
  unfold Frame.OpenFits
  infer_instance

theorem not_openFits {f : Frame} (hopen : f.type = frameOPENTCP ∨ f.type = frameOPENUDP)
    (hpanic : decodeOpenPayload f.payload = .error .panic) : ¬f.OpenFits := by
  intro hfits
  have hreturns := (decodePayload_returns_iff readOpenPayload_follows f.payload).mpr (hfits hopen)
  exact returns_iff_ne_panic.mp hreturns hpanic

def openType : FlowKind → ℕ
  | .tcp => frameOPENTCP
  | .udp => frameOPENUDP

theorem openRequest_encode {p : OpenPayload} (kind : FlowKind) (hflow : p.flowID < 2 ^ 64)
    (hport : p.dstPort < 2 ^ 16) (halloc : (encodeOpenPayload p).length ≤ maxAlloc) :
    openRequest ⟨openType kind, encodeOpenPayload p⟩ = some (kind, p.flowID) := by
  have hdecode := decodeOpenPayload_encode hflow hport halloc
  cases kind with
  | tcp => rw [openRequest, openType, if_pos rfl, requestOf, hdecode]
  | udp =>
    have hne : frameOPENUDP ≠ frameOPENTCP := by decide
    rw [openRequest, openType, if_neg hne, if_pos rfl, requestOf, hdecode]

/-- What a handler does about the last open. -/
inductive OpenStage where
  | idle
  | checking (kind : FlowKind) (flowID : ℕ)
  | dialed (kind : FlowKind) (flowID k : ℕ)
  | answering (answer : OpenAnswer)
  deriving DecidableEq

/-- The answer that the handler still has to give. -/
def OpenStage.owed : OpenStage → List OpenAnswer
  | .idle => []
  | .checking kind flowID => [⟨kind, flowID, false⟩]
  | .dialed kind flowID _ => [⟨kind, flowID, false⟩]
  | .answering answer => [answer]

/-- Every socket that was dialed and not inserted is closed. -/
def SocketsClosed (closed : FlowRef → Prop) (openings : List Opening) : Prop :=
  ∀ o ∈ openings, o.inserted = false → ∀ k, o.dialed = some k → closed ⟨o.kind, k⟩

/-- Every socket but the one in the hands of the handler. -/
def OpenStage.Settled (closed : FlowRef → Prop) (openings : List Opening) : OpenStage → Prop
  | .checking kind flowID => ∃ earlier, openings = earlier ++ [⟨kind, flowID, none, false⟩] ∧
    SocketsClosed closed earlier
  | .dialed kind flowID k => ∃ earlier, openings = earlier ++ [⟨kind, flowID, some k, false⟩] ∧
    SocketsClosed closed earlier
  | _ => SocketsClosed closed openings

/-- The opens received so far have got their answers, in order, but for the one that the
handler still owes, and the sockets of those that failed are closed. -/
structure Disciplined (closed : FlowRef → Prop) (stage : OpenStage) (openings : List Opening)
    (answers : List OpenAnswer) : Prop where
  answered : openings.map Opening.answer = answers ++ stage.owed
  settled : stage.Settled closed openings

section Rules

variable {closed closed' : FlowRef → Prop} {stage : OpenStage} {openings earlier : List Opening}
  {answers : List OpenAnswer} {kind : FlowKind} {flowID k : ℕ} {a : OpenAnswer} {o : Opening}

theorem SocketsClosed.mono (h : SocketsClosed closed openings) (himp : ∀ f, closed f → closed' f) :
    SocketsClosed closed' openings :=
  fun o ho hinserted k hk => himp _ (h o ho hinserted k hk)

theorem SocketsClosed.concat (h : SocketsClosed closed earlier)
    (ho : o.inserted = false → ∀ k, o.dialed = some k → closed ⟨o.kind, k⟩) :
    SocketsClosed closed (earlier ++ [o]) := by
  intro o' ho'
  rcases mem_append.mp ho' with ho' | ho'
  · exact h o' ho'
  · rwa [mem_singleton.mp ho']

theorem Disciplined.mono (h : Disciplined closed stage openings answers)
    (himp : ∀ f, closed f → closed' f) : Disciplined closed' stage openings answers where
  answered := h.answered
  settled := by
    have hsettled := h.settled
    cases stage with
    | checking kind flowID | dialed kind flowID k =>
      obtain ⟨earlier, hopen, hclosed⟩ := hsettled
      exact ⟨earlier, hopen, hclosed.mono himp⟩
    | idle | answering a => exact SocketsClosed.mono hsettled himp

theorem Disciplined.nil : Disciplined closed .idle [] [] where
  answered := rfl
  settled _ ho := by cases ho

theorem Disciplined.receive (h : Disciplined closed .idle openings answers) :
    Disciplined closed (.checking kind flowID) (openings ++ [⟨kind, flowID, none, false⟩])
      answers where
  answered := by
    rw [map_append, h.answered]
    simp [OpenStage.owed, Opening.answer]
  settled := ⟨openings, rfl, h.settled⟩

theorem Disciplined.refuse (h : Disciplined closed (.checking kind flowID) openings answers) :
    Disciplined closed (.answering ⟨kind, flowID, false⟩) openings answers where
  answered := h.answered
  settled := by
    obtain ⟨earlier, rfl, hclosed⟩ := h.settled
    exact hclosed.concat fun _ k hk => by cases hk

theorem Disciplined.dial (h : Disciplined closed (.checking kind flowID) openings answers) :
    Disciplined closed (.dialed kind flowID k)
      (openings.modifyLast fun o => { o with dialed := some k }) answers := by
  obtain ⟨earlier, rfl, hclosed⟩ := h.settled
  rw [modifyLast_concat]
  refine ⟨?_, earlier, rfl, hclosed⟩
  have hanswered := h.answered
  rw [map_append] at hanswered ⊢
  exact hanswered

theorem Disciplined.drop (h : Disciplined closed (.dialed kind flowID k) openings answers)
    (hk : closed ⟨kind, k⟩) :
    Disciplined closed (.answering ⟨kind, flowID, false⟩) openings answers where
  answered := h.answered
  settled := by
    obtain ⟨earlier, rfl, hclosed⟩ := h.settled
    exact hclosed.concat fun _ k' hk' => by cases hk'; exact hk

theorem Disciplined.insert (h : Disciplined closed (.dialed kind flowID k) openings answers) :
    Disciplined closed (.answering ⟨kind, flowID, true⟩)
      (openings.modifyLast fun o => { o with inserted := true }) answers := by
  obtain ⟨earlier, rfl, hclosed⟩ := h.settled
  rw [modifyLast_concat]
  refine ⟨?_, hclosed.concat fun hinserted => by cases hinserted⟩
  have hanswered := h.answered
  rw [map_append] at hanswered ⊢
  obtain ⟨hearlier, -⟩ := append_inj' hanswered rfl
  rw [hearlier]
  rfl

theorem Disciplined.reply (h : Disciplined closed (.answering a) openings answers) :
    Disciplined closed .idle openings (answers ++ [a]) where
  answered := by
    rw [h.answered]
    simp [OpenStage.owed]
  settled := h.settled

/-- The handler goes on to answer an open exactly if it was asked for one. -/
def Asks (request : Option (FlowKind × ℕ)) (stage : OpenStage) : Prop :=
  (request = none ∧ stage = .idle) ∨ ∃ kind flowID, request = some (kind, flowID) ∧
    (stage = .checking kind flowID ∨ stage = .answering ⟨kind, flowID, false⟩)

theorem Asks.not_dialed {request : Option (FlowKind × ℕ)} (h : Asks request stage) :
    stage ≠ .dialed kind flowID k := by
  rcases h with ⟨-, rfl⟩ | ⟨_, _, -, rfl | rfl⟩ <;> nofun

theorem Disciplined.read {request : Option (FlowKind × ℕ)} (hasks : Asks request stage)
    (h : Disciplined closed .idle openings answers) :
    Disciplined closed stage (openings ++ request.toList.map Opening.received) answers := by
  rcases hasks with ⟨rfl, rfl⟩ | ⟨kind, flowID, rfl, rfl | rfl⟩
  · exact (append_nil openings).symm ▸ h
  · exact h.receive
  · exact h.receive.refuse

theorem requests_modifyLast {f : Opening → Opening}
    (hf : ∀ o, ((f o).kind, (f o).flowID) = (o.kind, o.flowID)) :
    (openings.modifyLast f).map (fun o => (o.kind, o.flowID)) =
      openings.map fun o => (o.kind, o.flowID) := by
  rcases eq_nil_or_concat openings with rfl | ⟨earlier, o, rfl⟩
  · rfl
  · rw [concat_eq_append, modifyLast_concat]
    simp [hf]

end Rules

/-! ### Servers that answer opens -/

/-- What a step of a server means for its opens. -/
inductive OpenEvent where
  | none
  | read (frame : Frame)
  | dial (k : ℕ)
  | insert

def OpenEvent.Fits : OpenEvent → Prop
  | .read frame => frame.OpenFits
  | _ => True

instance (event : OpenEvent) : Decidable event.Fits := by
  unfold OpenEvent.Fits
  split <;> infer_instance

/-- The frames that the handler has read, and the opens among them. -/
structure OpenRecord where
  read : List Frame
  openings : List Opening

def OpenRecord.add (r : OpenRecord) : OpenEvent → OpenRecord
  | .none => r
  | .read frame =>
    ⟨r.read ++ [frame], r.openings ++ (openRequest frame).toList.map Opening.received⟩
  | .dial k => { r with openings := r.openings.modifyLast fun o => { o with dialed := some k } }
  | .insert => { r with openings := r.openings.modifyLast fun o => { o with inserted := true } }

/-- What can be seen of the opens of a server. -/
structure OpenView where
  stage : OpenStage
  answers : List OpenAnswer
  closed : FlowRef → Prop
  created : FlowKind → ℕ

/-- What a step makes of the open in hand, with the answers that it attempts. -/
inductive OpenMove (closed : FlowRef → Prop) (created : FlowKind → ℕ) :
    OpenEvent → OpenStage → OpenStage → List OpenAnswer → Prop
  | keep {stage : OpenStage} : OpenMove closed created .none stage stage []
  | read {frame : Frame} {stage : OpenStage} (hasks : Asks (openRequest frame) stage) :
      OpenMove closed created (.read frame) .idle stage []
  | refuse {kind : FlowKind} {flowID : ℕ} :
      OpenMove closed created .none (.checking kind flowID) (.answering ⟨kind, flowID, false⟩) []
  | dial {kind : FlowKind} {flowID k : ℕ} (hk : k < created kind) :
      OpenMove closed created (.dial k) (.checking kind flowID) (.dialed kind flowID k) []
  | drop {kind : FlowKind} {flowID k : ℕ} (hk : k < created kind → closed ⟨kind, k⟩) :
      OpenMove closed created .none (.dialed kind flowID k) (.answering ⟨kind, flowID, false⟩) []
  | insert {kind : FlowKind} {flowID k : ℕ} :
      OpenMove closed created .insert (.dialed kind flowID k) (.answering ⟨kind, flowID, true⟩) []
  | reply {a : OpenAnswer} : OpenMove closed created .none (.answering a) .idle [a]

namespace OpenView

variable {v v' : OpenView} {r : OpenRecord} {event : OpenEvent}

structure Moves (v : OpenView) (event : OpenEvent) (v' : OpenView) : Prop where
  closed : ∀ f, v.closed f → v'.closed f
  created : ∀ kind, v.created kind ≤ v'.created kind
  move : ∃ sent, v'.answers = v.answers ++ sent ∧
    OpenMove v'.closed v'.created event v.stage v'.stage sent

/-- The handler does not go on, or not in a way that matters for the open. -/
theorem Moves.keep (hstage : v'.stage = v.stage) (hanswers : v'.answers = v.answers)
    (hcreated : ∀ kind, v'.created kind = v.created kind)
      (hclosed : ∀ f, v.closed f → v'.closed f) :
    v.Moves .none v' where
  closed := hclosed
  created kind := (hcreated kind).ge
  move := ⟨[], by rw [hanswers, append_nil], hstage ▸ .keep⟩

/-- The opens are answered, and are those of the frames read. -/
structure Answers (v : OpenView) (r : OpenRecord) : Prop where
  disciplined : Disciplined v.closed v.stage r.openings v.answers
  requests : r.openings.map (fun o => (o.kind, o.flowID)) = r.read.filterMap openRequest
  created : ∀ kind flowID k, v.stage = .dialed kind flowID k → k < v.created kind

theorem requests_add
    (h : r.openings.map (fun o => (o.kind, o.flowID)) = r.read.filterMap openRequest)
    (event : OpenEvent) : (r.add event).openings.map (fun o => (o.kind, o.flowID)) =
      (r.add event).read.filterMap openRequest := by
  cases event with
  | none => exact h
  | read frame =>
    rw [OpenRecord.add, map_append, h, filterMap_append]
    cases hf : openRequest frame <;> simp [hf, Opening.received]
  | dial k | insert =>
    refine Eq.trans (requests_modifyLast ?_) h
    exact fun _ => rfl

theorem Answers.add (h : v.Answers r) (hm : v.Moves event v') : v'.Answers (r.add event) := by
  obtain ⟨sent, hsent, hmove⟩ := hm.move
  obtain ⟨stage, answers, closed', created'⟩ := v'
  obtain ⟨stage₀, answers₀, closed₀, created₀⟩ := v
  have hd := h.disciplined.mono hm.closed
  have hcreated := h.created
  dsimp only at hsent hmove hd hcreated
  subst hsent
  refine ⟨?_, requests_add h.requests event, ?_⟩
  · cases hmove with
    | keep => rwa [append_nil]
    | read hasks => rw [append_nil]; exact .read hasks hd
    | refuse => rw [append_nil]; exact hd.refuse
    | dial => rw [append_nil]; exact hd.dial
    | drop hk => rw [append_nil]; exact hd.drop (hk ((hcreated _ _ _ rfl).trans_le (hm.created _)))
    | insert => rw [append_nil]; exact hd.insert
    | reply => exact hd.reply
  · rintro kind flowID k hk
    cases hmove with
    | keep => exact (hcreated kind flowID k hk).trans_le (hm.created kind)
    | read hasks => exact absurd hk hasks.not_dialed
    | dial hlt => cases hk; exact hlt
    | refuse | drop | insert | reply => cases hk

end OpenView

/-- A server that answers opens. A step that panics leads to `unwind`, from where the deferred
calls of the goroutine go on until they have `ended`. -/
structure OpenServer (σ α : Type) where
  step : σ → α → Option σ
  event : σ → α → OpenEvent
  unwind : σ → α → Option σ
  ended : σ → Bool

/-- Every step moves on with the open in hand and keeps `inv`. -/
structure OpenServer.Moves {σ α : Type} (server : OpenServer σ α) (view : σ → OpenView)
    (inv : σ → Prop) : Prop where
  step : ∀ {s label s'}, inv s → server.step s label = some s' →
    inv s' ∧ (view s).Moves (server.event s label) (view s')
  unwind : ∀ {s label s'}, inv s → (server.event s label).Fits →
    server.unwind s label = some s' → inv s' ∧ (view s).Moves (server.event s label) (view s')

/-- A session with the record of its opens, in a process that ends with a panic. -/
structure Opened (σ : Type) extends OpenRecord where
  session : σ
  panicked : Bool

namespace Opened

variable {σ α : Type} {server : OpenServer σ α} {view : σ → OpenView} {inv : σ → Prop}
  {r r' : Opened σ} {s : σ} {label : α} {labels : List α}

def new (s : σ) : Opened σ := ⟨⟨[], []⟩, s, false⟩

def step (server : OpenServer σ α) (r : Opened σ) (label : α) : Option (Opened σ) :=
  if r.panicked ∧ server.ended r.session then none
  else
    match server.unwind r.session label with
    | some session => some ⟨r.add (server.event r.session label), session, true⟩
    | none => (server.step r.session label).map fun session =>
      ⟨r.add (server.event r.session label), session, r.panicked⟩

/-- An open that is read announces no length beyond what can be allocated. -/
def OpensFit (server : OpenServer σ α) (r : Opened σ) (label : α) : Prop :=
  (server.event r.session label).Fits

instance (server : OpenServer σ α) (r : Opened σ) (label : α) :
    Decidable (OpensFit server r label) := inferInstanceAs (Decidable (OpenEvent.Fits _))

structure Sound (view : σ → OpenView) (inv : σ → Prop) (r : Opened σ) : Prop where
  inv : inv r.session
  answers : (view r.session).Answers r.toOpenRecord

theorem step_sound (hserver : server.Moves view inv) (h : r.Sound view inv)
    (hfits : OpensFit server r label) (hstep : step server r label = some r') :
    r'.Sound view inv := by
  obtain ⟨-, hstep⟩ := Option.ite_none_left_eq_some.mp hstep
  split at hstep
  case h_1 session hunwind =>
    cases hstep
    obtain ⟨hinv, hmoves⟩ := hserver.unwind h.inv hfits hunwind
    exact ⟨hinv, h.answers.add hmoves⟩
  case h_2 =>
    obtain ⟨session, hsession, rfl⟩ := Option.map_eq_some_iff.mp hstep
    obtain ⟨hinv, hmoves⟩ := hserver.step h.inv hsession
    exact ⟨hinv, h.answers.add hmoves⟩

theorem path_sound (hserver : server.Moves view inv) (hs : inv s) (hidle : (view s).stage = .idle)
    (hnone : (view s).answers = [])
    (hpath : Transition.Path (step server) (OpensFit server) (new s) labels r) :
    r.Sound view inv := by
  refine hpath.invariant (fun _ _ _ => step_sound hserver) ⟨hs, ?_, rfl, fun kind flowID k hk => ?_⟩
  · change Disciplined _ (view s).stage [] (view s).answers
    rw [hidle, hnone]
    exact .nil
  · rw [show (view (new s).session).stage = .idle from hidle] at hk
    cases hk

end Opened
end VlfProto.Session
