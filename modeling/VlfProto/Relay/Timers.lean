import VlfProto.Relay.RegistryRun

/-! # The timers of the connections -/

namespace VlfProto.Relay
open Platform Transition

/-- The timer of the connection has been armed. -/
def OpenPc.added : OpenPc → Bool
  | .start => true
  | .finished (.ok _) => true
  | _ => false

theorem OpenPc.not_added {pc : OpenPc} (h : pc.created = false) : pc.added = false := by
  cases pc with
  | finished result => cases result <;> exact h
  | _ => first | rfl | cases h

theorem OpenPc.inserted_of_added {pc : OpenPc} (h : pc.added) : pc.inserted := by
  cases pc with
  | finished result => cases result <;> exact h
  | _ => first | rfl | cases h

/-- `onConnClosed` has not dropped the timer. -/
def OnClosedPc.timed : OnClosedPc → Bool
  | .notCalled => true
  | .deleteTimer _ => true
  | _ => false

namespace Manager

/-- What the timer of the connection at position `k` calls. -/
def expiry (m : Manager) (k : ℕ) : Expiry :=
  ((m.relayConns k).id, (m.relayConns k).clientID)

theorem SameNames.expiry {m m' : Manager} {k : ℕ} (h : m.SameNames m' k) :
    m'.expiry k = m.expiry k := by
  rw [Manager.expiry, Manager.expiry, h.1, h.2]

theorem OpenMove.added {m m' : Manager} {k : ℕ} {o : OpenCall} {ok : Bool} {raw : Bytes}
    {pc : OpenPc} (h : m.OpenMove k o ok raw m' pc) (ha : o.pc.added) : pc.added := by
  cases h with
  | stays pc hcalled hreserved hbefore hafter =>
    simp [OpenPc.created_of_inserted (OpenPc.inserted_of_added ha)] at hbefore
  | reserves limits hpc hlimits | creates now hpc | releases err hpc | inserts hpc =>
    simp [hpc, OpenPc.added] at ha
  | adds ttlStore now hpc hadd | starts m' now response hpc hconn => rfl

end Manager

namespace Lane

variable {m m' : Manager} {opens : ℕ → OpenCall} {opened k : ℕ} {ok : Bool} {raw : Bytes}
  {pc : OpenPc} {now : ℤ}

structure Timers (m : Manager) (opens : ℕ → OpenCall) : Prop where
  wheel : m.ttlStore.wheel.WellFormed
  armed : ∀ key callback, m.ttlStore.wheel.armedFor key = some callback →
    ∃ k, (opens k).pc.added ∧ key = Store.relayKey (m.relayConns k).id ∧
      callback = some (m.expiry k) ∧ (m.ttlStore.byID.lookup (m.relayConns k).id).isSome
  filed : ∀ connID, (m.ttlStore.byID.lookup connID).isSome →
    ∃ k, (opens k).pc.added ∧ (m.relayConns k).id = connID ∧ (m.relayConns k).onClosed.timed
  once : ∀ k, (m.relayConns k).conn.registered = false ↔ (m.relayConns k).conn.once = .done
  early : ∀ k, (opens k).pc.added = false → (m.relayConns k).conn.once = .idle ∧
    (m.relayConns k).conn.reader = .notStarted ∧ (m.relayConns k).conn.writer = .notStarted

theorem Timers.registered_of_idle (ht : Timers m opens)
    (hidle : (m.relayConns k).conn.once = .idle) : (m.relayConns k).conn.registered := by
  by_contra hnot
  have hdone := (ht.once k).mp (by simpa using hnot)
  rw [hidle] at hdone
  cases hdone

theorem Timers.armed_of_sameNames (ht : Timers m opens) {key : Bytes} {callback : Option Expiry}
    (harmed : m.ttlStore.wheel.armedFor key = some callback)
    (h : ∀ j, (opens j).pc.added → key = Store.relayKey (m.relayConns j).id →
      (m.ttlStore.byID.lookup (m.relayConns j).id).isSome →
      m.SameNames m' j ∧ (m'.ttlStore.byID.lookup (m.relayConns j).id).isSome) :
    ∃ k, (opens k).pc.added ∧ key = Store.relayKey (m'.relayConns k).id ∧
      callback = some (m'.expiry k) ∧ (m'.ttlStore.byID.lookup (m'.relayConns k).id).isSome := by
  obtain ⟨k, hk, hkey, hcallback, hsome⟩ := ht.armed key callback harmed
  obtain ⟨hnames, hkept⟩ := h k hk hkey hsome
  exact ⟨k, hk, by rw [hnames.1, hkey], by rw [hcallback, hnames.expiry], by rw [hnames.1, hkept]⟩

theorem new_timers (cfg : ManagerConfig) (limits : Limits.Config) :
    Timers (new cfg limits).manager (new cfg limits).opens where
  wheel := Store.Wheel.newWheel_wellFormed _ _
  armed key callback h := by
    simp [new, Manager.new, Store.newRelayStore, Store.newWheel, Store.Wheel.armedFor] at h
  filed connID h := by simp [new, Manager.new, Store.newRelayStore] at h
  once k := by simp [new, Manager.new, RelayConn.new, Conn.new]
  early k _ := ⟨rfl, rfl, rfl⟩

/-- Everything the timers depend on is the same, but a touch may have moved them. -/
theorem Timers.congr (ht : Timers m opens) (hwheel : m'.ttlStore.wheel.WellFormed)
    (harmed : ∀ key, m'.ttlStore.wheel.armedFor key = m.ttlStore.wheel.armedFor key)
    (hbyID : ∀ id, (m'.ttlStore.byID.lookup id).isSome = (m.ttlStore.byID.lookup id).isSome)
    (hfields : ∀ j, m.SameNames m' j ∧ (m'.relayConns j).conn = (m.relayConns j).conn ∧
      (m'.relayConns j).onClosed = (m.relayConns j).onClosed) : Timers m' opens where
  wheel := hwheel
  armed key callback h := by
    rw [harmed] at h
    exact ht.armed_of_sameNames h fun j _ _ hsome => ⟨(hfields j).1, by rw [hbyID, hsome]⟩
  filed connID h := by
    rw [hbyID] at h
    obtain ⟨k, hk, hid, htimed⟩ := ht.filed connID h
    exact ⟨k, hk, (hfields k).1.1.trans hid, by rw [(hfields k).2.2, htimed]⟩
  once k := by
    rw [(hfields k).2.1]
    exact ht.once k
  early k hk := by
    rw [(hfields k).2.1]
    exact ht.early k hk

theorem Timers.note (ht : Timers m opens) (j : ℕ) (time : ℤ) :
    Timers (m.setRelayConn j { m.relayConns j with lastActive := time }) opens := by
  refine ht.congr ht.wheel (fun _ => rfl) (fun _ => rfl) fun k => ?_
  obtain ⟨hid, hclient, hconn, hclosed⟩ := m.note_fields j k time
  exact ⟨⟨hid, hclient⟩, hconn, hclosed⟩

theorem Timers.touch (ht : Timers m opens) {connID : Bytes}
    (h : m.touch connID now = some m') : Timers m' opens := by
  obtain ⟨r, htouch, rfl⟩ := Option.map_eq_some_iff.mp h
  obtain ⟨hwheel, harmed, hbyID⟩ := Store.RelayStore.touch_spec ht.wheel htouch
  exact ht.congr hwheel harmed hbyID fun j => ⟨⟨rfl, rfl⟩, rfl, rfl⟩

theorem Timers.tick (ht : Timers m opens) :
    Timers { m with ttlStore := m.ttlStore.tick } opens where
  wheel := Store.Wheel.tick_wellFormed ht.wheel
  armed key callback h := by
    rcases Store.Wheel.armedFor_tick ht.wheel key with hsame | ⟨hnone, -⟩
    · exact ht.armed key callback (hsame.symm.trans h)
    · cases hnone.symm.trans h
  filed := ht.filed
  once := ht.once
  early := ht.early

theorem Timers.connMoves {g : Goroutine} {step : ConnStep} (ht : Timers m opens)
    (hm : Sound m opens opened) (hk : (opens k).pc.added) (h : m.ConnMoves m' k g step) :
    Timers m' opens where
  wheel := h.ttlStore ▸ ht.wheel
  armed key callback harmed := by
    rw [h.ttlStore] at harmed
    exact ht.armed_of_sameNames harmed fun j _ _ hsome =>
      ⟨h.sameNames j, by rw [h.ttlStore, hsome]⟩
  filed connID hsome := by
    rw [h.ttlStore] at hsome
    obtain ⟨j, hj, hid, htimed⟩ := ht.filed connID hsome
    refine ⟨j, hj, (h.sameNames j).1.trans hid, ?_⟩
    by_cases hjk : j = k
    · subst hjk
      by_cases hstays : (m.relayConns j).conn.registered → (m'.relayConns j).conn.registered
      · rw [(h.stays hstays).2, htimed]
      · obtain ⟨hbefore, hafter⟩ := Classical.not_imp.mp hstays
        rw [(hm.leaves (OpenPc.inserted_of_added hj) h hbefore (by simpa using hafter)).2]
        rfl
    · rw [h.others j hjk, htimed]
  once j := by
    by_cases hjk : j = k
    · subst hjk
      exact (Conn.step_registered h.conn (ht.once j)).1
    · rw [h.others j hjk]
      exact ht.once j
  early j hj := by
    have hne : j ≠ k := by
      rintro rfl
      simp [hk] at hj
    rw [h.others j hne]
    exact ht.early j hj

/-! ### How timers come and go -/

open Function

theorem Timers.of_added {opens' : ℕ → OpenCall} (ht : Timers m opens)
    (h : ∀ j, (opens' j).pc.added = (opens j).pc.added) : Timers m opens' := by
  constructor
  · exact ht.wheel
  · simp only [h]
    exact ht.armed
  · simp only [h]
    exact ht.filed
  · exact ht.once
  · simp only [h]
    exact ht.early

theorem added_update (hadded : pc.added = (opens k).pc.added) (j : ℕ) :
    (update opens k { opens k with pc } j).pc.added = (opens j).pc.added := by
  by_cases hj : j = k
  · rw [hj, update_self, hadded]
  · rw [update_of_ne hj]

theorem Timers.creates {id clientID : Bytes} (ht : Timers m opens)
    (hk : (opens k).pc.added = false) :
    Timers (m.setRelayConn k (.new id clientID m.cfg now)) opens := by
  have hsame : ∀ j, (opens j).pc.added →
      (m.setRelayConn k (.new id clientID m.cfg now)).relayConns j = m.relayConns j := by
    intro j hj
    apply Manager.setRelayConn_of_ne
    rintro rfl
    simp [hk] at hj
  constructor
  · exact ht.wheel
  · intro key callback h
    refine ht.armed_of_sameNames h fun j hj _ hsome => ⟨?_, hsome⟩
    rw [Manager.SameNames, hsame j hj]
    exact ⟨rfl, rfl⟩
  · intro connID h
    obtain ⟨j, hj, hid, htimed⟩ := ht.filed connID h
    exact ⟨j, hj, by rw [hsame j hj, hid], by rw [hsame j hj, htimed]⟩
  · intro j
    by_cases hjk : j = k
    · rw [hjk, Manager.setRelayConn_self]
      simp [RelayConn.new, Conn.new]
    · rw [Manager.setRelayConn_of_ne _ _ hjk]
      exact ht.once j
  · intro j hj
    by_cases hjk : j = k
    · rw [hjk, Manager.setRelayConn_self]
      exact ⟨rfl, rfl, rfl⟩
    · rw [Manager.setRelayConn_of_ne _ _ hjk]
      exact ht.early j hj

theorem Timers.adds {ttlStore : Store.RelayStore Expiry} (ht : Timers m opens)
    (hm : Sound m opens opened) (hpc : (opens k).pc = .add)
    (hadd : m.ttlStore.add ⟨(m.relayConns k).id, (opens k).clientID, now⟩ m.cfg.idleTimeout
      ((m.relayConns k).id, (opens k).clientID) = some ttlStore) :
    Timers { m with ttlStore } (update opens k { opens k with pc := .start }) := by
  obtain ⟨hwheel, harmed, hbyID⟩ := Store.RelayStore.add_spec ht.wheel hadd
  have howner : (m.relayConns k).clientID = (opens k).clientID := hm.owner k (by rw [hpc]; rfl)
  have htimed : (m.relayConns k).onClosed.timed := by
    have hidle := (ht.early k (by rw [hpc]; rfl)).1
    rw [(hm.registered k).mp (ht.registered_of_idle hidle)]
    rfl
  have hold : ∀ j, (opens j).pc.added →
      (update opens k { opens k with pc := .start } j).pc.added := by
    intro j hj
    by_cases hjk : j = k
    · rw [hjk, update_self]
      rfl
    · rwa [update_of_ne hjk]
  have hnew : (update opens k { opens k with pc := .start } k).pc.added := by
    rw [update_self]
    rfl
  constructor
  · exact hwheel
  · intro key callback h
    rw [harmed] at h
    split_ifs at h with hkey
    · refine ⟨k, hnew, hkey, ?_, ?_⟩
      · rw [← Option.some.inj h, Manager.expiry, howner]
      · rw [hbyID, if_pos rfl]
        rfl
    · obtain ⟨j, hj, hkey', hcallback, hsome⟩ := ht.armed key callback h
      refine ⟨j, hold j hj, hkey', hcallback, ?_⟩
      rw [hbyID]
      split_ifs
      · rfl
      · exact hsome
  · intro connID h
    rw [hbyID] at h
    split_ifs at h with hid
    · exact ⟨k, hnew, hid.symm, htimed⟩
    · obtain ⟨j, hj, hid', htimed'⟩ := ht.filed connID h
      exact ⟨j, hold j hj, hid', htimed'⟩
  · exact ht.once
  · intro j hj
    by_cases hjk : j = k
    · rw [hjk, hnew] at hj
      cases hj
    · rw [update_of_ne hjk] at hj
      exact ht.early j hj

theorem Timers.openMove (ht : Timers m opens) (hm : Sound m opens opened)
    (h : m.OpenMove k (opens k) ok raw m' pc) :
    Timers m' (update opens k { opens k with pc }) := by
  cases h with
  | stays pc hcalled hreserved hbefore hafter =>
    exact ht.of_added (added_update
      ((OpenPc.not_added hafter).trans (OpenPc.not_added hbefore).symm))
  | reserves limits hpc hlimits =>
    have ht' : Timers { m with limits } opens :=
      ht.congr ht.wheel (fun _ => rfl) (fun _ => rfl) fun _ => ⟨⟨rfl, rfl⟩, rfl, rfl⟩
    exact ht'.of_added (added_update (by rw [hpc]; rfl))
  | creates now hpc hok =>
    exact (ht.creates (by rw [hpc]; rfl)).of_added (added_update (by rw [hpc]; rfl))
  | releases err hpc =>
    have ht' : Timers { m with limits := m.limits.releaseRelayConn (opens k).clientID } opens :=
      ht.congr ht.wheel (fun _ => rfl) (fun _ => rfl) fun _ => ⟨⟨rfl, rfl⟩, rfl, rfl⟩
    exact ht'.of_added (added_update (by rw [hpc]; rfl))
  | inserts hpc =>
    have ht' : Timers { m with conns := m.conns.insert (m.relayConns k).id k } opens :=
      ht.congr ht.wheel (fun _ => rfl) (fun _ => rfl) fun _ => ⟨⟨rfl, rfl⟩, rfl, rfl⟩
    exact ht'.of_added (added_update (by rw [hpc]; rfl))
  | adds ttlStore now hpc hadd => exact ht.adds hm hpc hadd
  | starts m' now response hpc hconn =>
    have ht' := ht.connMoves hm (by rw [hpc]; rfl) (Manager.connStep_moves hconn)
    exact ht'.of_added (added_update (by rw [hpc]; rfl))

theorem Timers.onClosedStep (ht : Timers m opens) (h : m.onClosedStep k = some m') :
    Timers m' opens := by
  have hconn : ∀ j, (m'.relayConns j).conn = (m.relayConns j).conn := by
    intro j
    rcases Manager.onClosedStep_cases h with ⟨g, -, rfl⟩ | ⟨g, -, rfl⟩ <;> by_cases hj : j = k
    all_goals simp [Manager.setRelayConn, hj]
  have hnames := Manager.onClosedStep_sameNames h
  have hothers : ∀ j, j ≠ k → m'.relayConns j = m.relayConns j := by
    intro j hj
    rcases Manager.onClosedStep_cases h with ⟨g, -, rfl⟩ | ⟨g, -, rfl⟩
    all_goals exact Manager.setRelayConn_of_ne _ _ hj
  have honce : ∀ j, (m'.relayConns j).conn.registered = false ↔
      (m'.relayConns j).conn.once = .done := by
    intro j
    rw [hconn]
    exact ht.once j
  have hearly : ∀ j, (opens j).pc.added = false → (m'.relayConns j).conn.once = .idle ∧
      (m'.relayConns j).conn.reader = .notStarted ∧
      (m'.relayConns j).conn.writer = .notStarted := by
    intro j hj
    rw [hconn]
    exact ht.early j hj
  rcases Manager.onClosedStep_cases h with ⟨g, hpc, heq⟩ | ⟨g, hpc, heq⟩
  · have hstore : m'.ttlStore = (m.ttlStore.delete (m.relayConns k).id).2 := by rw [heq]; rfl
    obtain ⟨hwheel, harmed, hbyID⟩ := Store.RelayStore.delete_spec ht.wheel (m.relayConns k).id
    rw [← hstore] at hwheel harmed hbyID
    refine ⟨hwheel, fun key callback hkey => ?_, fun connID hsome => ?_, honce, hearly⟩
    · rw [harmed] at hkey
      split_ifs at hkey with hdeleted
      refine ht.armed_of_sameNames hkey fun j _ hkey' hsome => ⟨hnames j, ?_⟩
      have hne : (m.relayConns j).id ≠ (m.relayConns k).id := by
        intro hid
        rw [hid] at hkey' hsome
        exact hdeleted ⟨hkey', hsome⟩
      rw [hbyID, if_neg hne, hsome]
    · rw [hbyID] at hsome
      split_ifs at hsome with hid
      · cases hsome
      obtain ⟨j, hj, hid', htimed⟩ := ht.filed connID hsome
      have hne : j ≠ k := by
        rintro rfl
        exact hid hid'.symm
      exact ⟨j, hj, (hnames j).1.trans hid', by rw [hothers j hne, htimed]⟩
  · have hstore : m'.ttlStore = m.ttlStore := by rw [heq]; rfl
    refine ⟨hstore ▸ ht.wheel, fun key callback hkey => ?_, fun connID hsome => ?_, honce, hearly⟩
    · rw [hstore] at hkey
      exact ht.armed_of_sameNames hkey fun j _ _ hsome => ⟨hnames j, by rw [hstore, hsome]⟩
    · rw [hstore] at hsome
      obtain ⟨j, hj, hid, htimed⟩ := ht.filed connID hsome
      have hne : j ≠ k := by
        rintro rfl
        simp [hpc, OnClosedPc.timed] at htimed
      exact ⟨j, hj, (hnames j).1.trans hid, by rw [hothers j hne, htimed]⟩

end Lane
end VlfProto.Relay
