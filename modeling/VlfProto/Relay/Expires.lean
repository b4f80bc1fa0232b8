import VlfProto.Relay.Timers

/-! # Timers that have expired -/

namespace VlfProto.Relay
open Platform Transition Function Option

def Sweep.rest : Sweep → List Expiry
  | .next rest => rest
  | .await rest => rest

/-- The callbacks that the ticker has not called yet. -/
def TickerPc.queue : TickerPc → List Expiry
  | .sweeping sweep => sweep.rest
  | _ => []

/-- The ticker waits for a callback to return. -/
def TickerPc.awaits : TickerPc → Bool
  | .sweeping (.await _) => true
  | _ => false

/-- A step about one caller leaves the others alone, and so do the loops. -/
theorem Conn.step_callers {c c' : Conn} {label : ConnStep} {i : ℕ} (h : c.step label = some c')
    (hi : label.slot ≠ some i) : c'.callers i = c.callers i := by
  cases label with
  | start =>
    obtain ⟨-, rfl⟩ := of_guard h
    rfl
  | reader data err => rw [(readerStep_upload h).1]
  | writer ok n => rw [(writerStep_moves h).callers]
  | call j request =>
    obtain ⟨-, rfl⟩ := of_guard h
    have hne : i ≠ j := by
      rintro rfl
      exact hi rfl
    exact update_of_ne hne ..
  | caller j ok =>
    apply callerStep_other h
    rintro rfl
    exact hi rfl
  | collect j =>
    obtain ⟨-, rfl⟩ := collect_cases h
    have hne : i ≠ j := by
      rintro rfl
      exact hi rfl
    exact update_of_ne hne ..

/-- The steps of the ticker and of `Shutdown`. -/
def LaneStep.background : LaneStep → Bool
  | .tick _ => true
  | .ticker => true
  | .exit => true
  | .shutdown _ => true
  | .shutdowner => true
  | _ => false

namespace Lane

variable {l l' : Lane} {label : LaneStep} {i k : ℕ}

theorem step_added (h : l.step label = some l') (hlt : k < l.opened) (hk : (l.opens k).pc.added) :
    (l'.opens k).pc.added := by
  apply step_rule (P := fun _ opens _ => (opens k).pc.added) h hk
  · intro clientID request
    rwa [update_of_ne hlt.ne]
  · intro j ok raw now m pc _ hmove
    by_cases hj : k = j
    · subst hj
      rw [update_self]
      exact hmove.added hk
    · rwa [update_of_ne hj]
  · exact fun _ _ _ _ _ _ _ hm _ => hm
  · exact fun _ _ _ => hk
  · exact fun _ _ _ _ hm => hm
  · exact fun _ _ _ hm => hm
  · exact fun _ _ _ _ hm _ => hm
  · exact fun _ _ _ => hk

theorem step_callers (h : l.step label = some l') (hk : (l.opens k).pc.created)
    (hlabel : ∀ now, label ≠ .caller i now) :
    (l'.manager.relayConns k).conn.callers i = (l.manager.relayConns k).conn.callers i := by
  have hconn : ∀ (m₁ m₂ : Manager) (j : ℕ) g step, m₁.ConnMoves m₂ j g step →
      step.slot ≠ some i →
      (m₂.relayConns k).conn.callers i = (m₁.relayConns k).conn.callers i := by
    intro m₁ m₂ j g step hmoves hslot
    by_cases hj : k = j
    · subst hj
      exact Conn.step_callers hmoves.conn hslot
    · rw [hmoves.others k hj]
  apply step_rule (P := fun m _ _ => (m.relayConns k).conn.callers i =
    (l.manager.relayConns k).conn.callers i) h rfl
  · exact fun _ _ => rfl
  · intro j ok raw now m pc _ hmove
    cases hmove with
    | creates now hpc hok =>
      have hne : k ≠ j := by
        rintro rfl
        simp [hpc, OpenPc.created] at hk
      rw [Manager.setRelayConn_of_ne _ _ hne]
    | starts m' now response hpc hstart =>
      exact hconn _ _ j _ _ (Manager.connStep_moves hstart) (by simp [ConnStep.slot])
    | _ => rfl
  · intro j g step now m₁ m₂ hdrives hm hstep
    refine (hconn _ _ j g step (Manager.connStep_moves hstep) ?_).trans hm
    rcases hdrives with ⟨-, data, err, rfl⟩ | ⟨-, ok, n, rfl⟩ |
      ⟨i', now', call, hcaller, -, hslot, -⟩
    · simp [ConnStep.slot]
    · simp [ConnStep.slot]
    · rw [hslot]
      rintro ⟨⟩
      exact hlabel now' hcaller
  · intro j m hstep
    rcases Manager.onClosedStep_cases hstep with ⟨g, -, rfl⟩ | ⟨g, -, rfl⟩ <;> by_cases hj : k = j
    all_goals simp [Manager.setRelayConn, hj]
  · exact fun _ _ _ _ hm => hm
  · intro m j now hm
    rw [(m.note_fields j k now).2.2.1, hm]
  · intro m m' connID now hm htouch
    obtain ⟨r, -, rfl⟩ := map_eq_some_iff.mp htouch
    exact hm
  · exact fun _ _ _ => rfl

theorem step_ticker (h : l.step label = some l') (hlabel : label.background = false) :
    l'.ticker = l.ticker ∧ l'.shutdown = l.shutdown := by
  cases label with
  | openCall clientID request =>
    cases h
    exact ⟨rfl, rfl⟩
  | opener k ok raw now =>
    obtain ⟨r, -, rfl⟩ := map_eq_some_iff.mp h
    exact ⟨rfl, rfl⟩
  | reader k data err now | writer k ok n now | onClosed k =>
    obtain ⟨m, -, rfl⟩ := map_eq_some_iff.mp h
    exact ⟨rfl, rfl⟩
  | call i clientID connID operation =>
    obtain ⟨-, rfl⟩ := of_guard h
    exact ⟨rfl, rfl⟩
  | caller i now =>
    obtain ⟨call, -, h⟩ := bind_eq_some_iff.mp h
    obtain ⟨r, -, rfl⟩ := map_eq_some_iff.mp h
    exact ⟨rfl, rfl⟩
  | _ => cases hlabel

/-- The expiry callback of the connection is in the hands of the ticker and has not
come to the once-cell. -/
def Expiring (l : Lane) (k : ℕ) : Prop :=
  l.manager.expiry k ∈ l.ticker.queue ∨
  l.ticker.awaits ∧ ∃ call, l.calls tickerSlot = some call ∧
    call.connID = (l.manager.relayConns k).id ∧
    call.clientID = (l.manager.relayConns k).clientID ∧ call.operation = .close ∧
    (call.phase = .lookup ∨ call.phase = .within k ∧
      ∃ found, (l.manager.relayConns k).conn.callers tickerSlot = .closing found)

/-- A call of `Close` that is given its connection goes to the once-cell. -/
theorem enter_close {m m' : Manager} {phase : Phase} {now : ℤ}
    (hregistered : (m.relayConns k).conn.registered)
    (h : m.enter i k .close now = some (m', phase)) :
    phase = .within k ∧ ∃ found, (m'.relayConns k).conn.callers i = .closing found := by
  obtain ⟨m₂, hboth, hpair⟩ := map_eq_some_iff.mp h
  cases hpair
  obtain ⟨m₁, hcall, hcaller⟩ := bind_eq_some_iff.mp hboth
  have hfirst := (Manager.connStep_moves hcall).conn
  have hsecond := (Manager.connStep_moves hcaller).conn
  obtain ⟨-, hfirst⟩ := ite_none_right_eq_some.mp hfirst
  have hconn := some.inj hfirst
  rw [← hconn] at hsecond
  simp only [Conn.step, Conn.callerStep, Conn.setCaller, Conn.firstPc, update_self,
    hregistered, if_true, some.injEq] at hsecond
  refine ⟨rfl, .closed true, ?_⟩
  rw [← hsecond]
  exact update_self ..

/-- A step of the ticker's callback leads to the once-cell or through it. -/
theorem Expiring.caller {now : ℤ} {call : Call} {m : Manager} {phase : Phase}
    (hm : Sound l.manager l.opens l.opened) (hk : (l.opens k).pc.inserted)
    (hopen : (l.manager.relayConns k).onClosed = .notCalled)
    (hconnID : call.connID = (l.manager.relayConns k).id)
    (hclient : call.clientID = (l.manager.relayConns k).clientID)
    (hoperation : call.operation = .close)
    (hphase : call.phase = .lookup ∨ call.phase = .within k ∧
      ∃ found, (l.manager.relayConns k).conn.callers i = .closing found)
    (h : l.manager.callStep i call now = some (m, phase)) :
    (m.relayConns k).conn.once ≠ .idle ∨ phase = .within k ∧
      ∃ found, (m.relayConns k).conn.callers i = .closing found := by
  rcases hphase with hlookup | ⟨hwithin, found, hfound⟩
  · have howned : l.manager.getOwnedConn call.clientID call.connID = .ok k := by
      rw [Manager.getOwnedConn_ok, hconnID, hclient]
      exact ⟨hm.listed k hk hopen, rfl⟩
    simp only [Manager.callStep, hlookup, howned, hoperation] at h
    exact .inr (enter_close ((hm.registered k).mpr hopen) h)
  · simp only [Manager.callStep, hwithin, Manager.withinStep, hfound] at h
    split at h
    · cases h
    obtain ⟨m₁, hstep, hpair⟩ := map_eq_some_iff.mp h
    obtain ⟨rfl, rfl⟩ := Prod.mk.inj hpair
    left
    have hconn := (Manager.connStep_moves hstep).conn
    simp only [Conn.step, Conn.callerStep, hfound] at hconn
    obtain ⟨r, hclose, hr⟩ := map_eq_some_iff.mp hconn
    have honce : (m₁.relayConns k).conn.once = r.1.once := by
      rw [← hr]
      split_ifs <;> rfl
    rw [honce]
    rcases Conn.closeStep_cases hclose with ⟨-, rfl⟩ | ⟨stage, c, next, -, -, rfl⟩ | ⟨hdone, rfl⟩
    · simp
    · cases next <;> simp
    · simp [hdone]

theorem Expiring.step (hl : l.InOrder) (hlabel : label.background = false)
    (h : l.step label = some l') (hk : (l.opens k).pc.inserted)
    (hopen : (l.manager.relayConns k).onClosed = .notCalled)
    (hidle : (l'.manager.relayConns k).conn.once = .idle) (hexpiring : l.Expiring k) :
    l'.Expiring k := by
  have hcreated := OpenPc.created_of_inserted hk
  have hlt : k < l.opened := hl.sound.called k fun hnot => by simp [hnot, OpenPc.inserted] at hk
  obtain ⟨-, -, -, hid, hclientID⟩ := step_named h hlt hcreated
  have hticker := (step_ticker h hlabel).1
  rcases hexpiring with hqueued | ⟨hawaits, call, hcall, hconnID, hclient, hoperation, hphase⟩
  · left
    rw [Manager.expiry, hid, hclientID, hticker]
    exact hqueued
  right
  refine ⟨hticker ▸ hawaits, ?_⟩
  rw [hid, hclientID]
  by_cases hcaller : ∃ now, label = .caller tickerSlot now
  · obtain ⟨now, rfl⟩ := hcaller
    simp only [Lane.step, hcall, bind_some] at h
    obtain ⟨⟨m, phase⟩, hstep, rfl⟩ := map_eq_some_iff.mp h
    refine ⟨{ call with phase }, by simp, hconnID, hclient, hoperation, .inr ?_⟩
    exact (Expiring.caller hl.sound hk hopen hconnID hclient hoperation hphase hstep).resolve_left
      fun hnot => hnot hidle
  · rcases step_calls h tickerSlot with hsame | ⟨now, _, _, _, hlabel', -⟩ |
      ⟨_, _, _, -, hslot, -⟩ | ⟨hbackground, -⟩
    · rw [step_callers h hcreated (not_exists.mp hcaller)]
      exact ⟨call, hsame.trans hcall, hconnID, hclient, hoperation, hphase⟩
    · exact absurd ⟨now, hlabel'⟩ hcaller
    · exact absurd hslot (by decide)
    · rcases hbackground with rfl | rfl <;> cases hlabel

end Lane

/-! ### Every open connection will expire -/

namespace Manager

/-- The timer of the connection is armed, with the callback that closes it. -/
def Armed (m : Manager) (k : ℕ) : Prop :=
  m.ttlStore.wheel.armedFor (Store.relayKey (m.relayConns k).id) = some (some (m.expiry k))

theorem Armed.congr {m m' : Manager} {k : ℕ} (hnames : m.SameNames m' k)
    (hstore : m'.ttlStore.wheel.armedFor (Store.relayKey (m.relayConns k).id) =
      m.ttlStore.wheel.armedFor (Store.relayKey (m.relayConns k).id)) (h : m.Armed k) :
    m'.Armed k := by
  rw [Armed, expiry, hnames.1, hnames.2, hstore]
  exact h

end Manager

namespace Lane

variable {l l' : Lane} {label : LaneStep} {m m' : Manager} {opens : ℕ → OpenCall}
  {opened k : ℕ} {ok : Bool} {raw : Bytes} {pc : OpenPc} {E : ℕ → Prop}

/-- Where `E` holds of the connections whose callback the ticker has: every other
connection that is open and not closing has its timer. -/
def Expires (E : ℕ → Prop) (m : Manager) (opens : ℕ → OpenCall) : Prop :=
  ∀ k, (opens k).pc.added → (m.relayConns k).onClosed = .notCalled →
    (m.relayConns k).conn.once = .idle → m.Armed k ∨ E k

/-- The timers are the same and no connection is less closed than before. -/
theorem Expires.congr (he : Expires E m opens)
    (hnames : ∀ j, (opens j).pc.added → m.SameNames m' j)
    (harmed : ∀ key, m'.ttlStore.wheel.armedFor key = m.ttlStore.wheel.armedFor key)
    (hopen : ∀ j, (opens j).pc.added → (m'.relayConns j).onClosed = .notCalled →
      (m'.relayConns j).conn.once = .idle →
      (m.relayConns j).onClosed = .notCalled ∧ (m.relayConns j).conn.once = .idle) :
    Expires E m' opens := by
  intro j hj hclosed hidle
  obtain ⟨hclosed', hidle'⟩ := hopen j hj hclosed hidle
  rcases he j hj hclosed' hidle' with harmed' | hE
  · exact .inl (harmed'.congr (hnames j hj) (harmed _))
  · exact .inr hE

theorem Expires.connMoves {g : Goroutine} {step : ConnStep} (he : Expires E m opens)
    (ht : Timers m opens) (hm : Sound m opens opened) (h : m.ConnMoves m' k g step) :
    Expires E m' opens := by
  refine he.congr (fun j _ => h.sameNames j) (fun key => by rw [h.ttlStore]) ?_
  intro j _ hclosed hidle
  by_cases hjk : j = k
  · subst hjk
    have hidle' : (m.relayConns j).conn.once = .idle := by
      by_contra hbusy
      exact (Conn.step_registered h.conn (ht.once j)).2.1 hbusy hidle
    exact ⟨(hm.registered j).mp (ht.registered_of_idle hidle'), hidle'⟩
  · rw [h.others j hjk] at hclosed hidle
    exact ⟨hclosed, hidle⟩

theorem Expires.of_added {opens' : ℕ → OpenCall} (he : Expires E m opens)
    (h : ∀ j, (opens' j).pc.added = (opens j).pc.added) : Expires E m opens' := by
  intro j hj
  rw [h] at hj
  exact he j hj

theorem Expires.openMove (he : Expires E m opens) (ht : Timers m opens)
    (hm : Sound m opens opened) (h : m.OpenMove k (opens k) ok raw m' pc) :
    Expires E m' (Function.update opens k { opens k with pc }) := by
  cases h with
  | stays pc hcalled hreserved hbefore hafter =>
    exact he.of_added (added_update
      ((OpenPc.not_added hafter).trans (OpenPc.not_added hbefore).symm))
  | reserves limits hpc hlimits =>
    have he' : Expires E { m with limits } opens := he
    exact he'.of_added (added_update (by rw [hpc]; rfl))
  | creates now hpc hok =>
    have hsame : ∀ j, (opens j).pc.added →
        (m.setRelayConn k (.new (newConnID raw) (opens k).clientID m.cfg now)).relayConns j =
          m.relayConns j := by
      intro j hj
      apply Manager.setRelayConn_of_ne
      rintro rfl
      simp [hpc, OpenPc.added] at hj
    have he' : Expires E (m.setRelayConn k (.new (newConnID raw) (opens k).clientID m.cfg now))
        opens := by
      refine he.congr (fun j hj => ?_) (fun _ => rfl) fun j hj hclosed hidle => ?_
      · rw [Manager.SameNames, hsame j hj]
        exact ⟨rfl, rfl⟩
      · rw [hsame j hj] at hclosed hidle
        exact ⟨hclosed, hidle⟩
    exact he'.of_added (added_update (by rw [hpc]; rfl))
  | releases err hpc =>
    have he' : Expires E { m with limits := m.limits.releaseRelayConn (opens k).clientID } opens :=
      he
    exact he'.of_added (added_update (by rw [hpc]; rfl))
  | inserts hpc =>
    have he' : Expires E { m with conns := m.conns.insert (m.relayConns k).id k } opens := he
    exact he'.of_added (added_update (by rw [hpc]; rfl))
  | adds ttlStore now hpc hadd =>
    obtain ⟨-, harmed, -⟩ := Store.RelayStore.add_spec ht.wheel hadd
    have howner : (m.relayConns k).clientID = (opens k).clientID := hm.owner k (by rw [hpc]; rfl)
    intro j hj hclosed hidle
    by_cases hjk : j = k
    · left
      rw [hjk, Manager.Armed, harmed, if_pos rfl, Manager.expiry, howner]
    · rw [Function.update_of_ne hjk] at hj
      have hne : Store.relayKey (m.relayConns j).id ≠ Store.relayKey (m.relayConns k).id := by
        intro hkey
        exact hjk (hm.distinct j k (OpenPc.created_of_inserted (OpenPc.inserted_of_added hj))
          (by rw [hpc]; rfl) (Store.relayKey_inj.mp hkey))
      have hnames : m.SameNames { m with ttlStore } j := ⟨rfl, rfl⟩
      rcases he j hj hclosed hidle with harmed' | hE
      · exact .inl (harmed'.congr hnames ((harmed _).trans (if_neg hne)))
      · exact .inr hE
  | starts m' now response hpc hconn =>
    have he' := he.connMoves ht hm (Manager.connStep_moves hconn)
    exact he'.of_added (added_update (by rw [hpc]; rfl))

theorem Expires.onClosedStep (he : Expires E m opens) (ht : Timers m opens)
    (hm : Sound m opens opened) (hk : (opens k).pc.inserted) (h : m.onClosedStep k = some m') :
    Expires E m' opens := by
  have hnames := Manager.onClosedStep_sameNames h
  intro j hj hclosed hidle
  have hne : j ≠ k := by
    rintro rfl
    rcases Manager.onClosedStep_cases h with ⟨g, -, rfl⟩ | ⟨g, -, rfl⟩ <;>
      simp [Manager.setRelayConn] at hclosed
  have hsame : m'.relayConns j = m.relayConns j := by
    rcases Manager.onClosedStep_cases h with ⟨g, -, rfl⟩ | ⟨g, -, rfl⟩
    all_goals exact Manager.setRelayConn_of_ne _ _ hne
  have hkeys : Store.relayKey (m.relayConns j).id ≠ Store.relayKey (m.relayConns k).id := by
    intro hkey
    exact hne (hm.distinct j k (OpenPc.created_of_inserted (OpenPc.inserted_of_added hj))
      (OpenPc.created_of_inserted hk) (Store.relayKey_inj.mp hkey))
  rw [hsame] at hclosed hidle
  rcases he j hj hclosed hidle with harmed | hE
  · left
    apply harmed.congr (hnames j)
    rcases Manager.onClosedStep_cases h with ⟨g, -, rfl⟩ | ⟨g, -, rfl⟩
    · obtain ⟨-, hdelete, -⟩ := Store.RelayStore.delete_spec ht.wheel (m.relayConns k).id
      exact (hdelete _).trans (if_neg fun hboth => hkeys hboth.1)
    · rfl
  · exact .inr hE

end Lane
end VlfProto.Relay
