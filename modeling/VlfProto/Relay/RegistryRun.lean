import VlfProto.Relay.Registry

/-! # `Open` keeps the table and the connections in agreement -/

namespace VlfProto.Relay
open Platform Transition Function

namespace Lane

variable {m m' : Manager} {opens : ℕ → OpenCall} {opened k : ℕ} {ok : Bool} {raw : Bytes}
  {pc : OpenPc}

/-- A step of `Open` that neither creates nor inserts: the manager has the same
registry, and whether the connection exists and is inserted is the same. -/
theorem Sound.setPc (hm : Sound m opens opened) (h : SameRegistry m m' opens)
    (hcalled : (opens k).pc ≠ .notCalled) (hcreated : pc.created = (opens k).pc.created)
    (hinserted : pc.inserted = (opens k).pc.inserted) :
    Sound m' (update opens k { opens k with pc }) opened := by
  have hc : ∀ j, (update opens k { opens k with pc } j).pc.created =
      (opens j).pc.created := by
    intro j
    by_cases hj : j = k
    · rw [hj, update_self, hcreated]
    · rw [update_of_ne hj]
  have hi : ∀ j, (update opens k { opens k with pc } j).pc.inserted =
      (opens j).pc.inserted := by
    intro j
    by_cases hj : j = k
    · rw [hj, update_self, hinserted]
    · rw [update_of_ne hj]
  have hclient : ∀ j, (update opens k { opens k with pc } j).clientID =
      (opens j).clientID := by
    intro j
    by_cases hj : j = k
    · rw [hj, update_self]
    · rw [update_of_ne hj]
  have hm' := h.sound hm
  constructor
  · constructor
    · intro j hj
      by_cases hjk : j = k
      · exact hjk ▸ hm.called k hcalled
      · rw [update_of_ne hjk] at hj
        exact hm.called j hj
    · simp only [hi]
      exact hm'.entry
  · simp only [hc]
    exact hm'.distinct
  · simp only [hc, hclient]
    exact hm'.owner
  · simp only [hi]
    exact hm'.listed
  · exact hm'.unlisted
  · exact hm'.registered
  · simp only [hi]
    exact hm'.untouched

theorem sameRegistry_of_eq (hconns : m'.conns = m.conns) (hrelay : m'.relayConns = m.relayConns) :
    SameRegistry m m' opens := by
  constructor
  · exact hconns
  all_goals simp [hrelay, Manager.SameNames]

theorem Sound.of_eq (hm : Sound m opens opened) (hconns : m'.conns = m.conns)
    (hrelay : m'.relayConns = m.relayConns) : Sound m' opens opened :=
  (sameRegistry_of_eq hconns hrelay).sound hm

theorem Sound.creates {now : ℤ} (hm : Sound m opens opened) (hpc : (opens k).pc = .newConnID)
    (hfresh : ∀ j < opened, (opens j).pc.created → (m.relayConns j).id ≠ newConnID raw) :
    Sound (m.setRelayConn k (.new (newConnID raw) (opens k).clientID m.cfg now))
      (update opens k { opens k with pc := .insert }) opened := by
  have hlt : k < opened := hm.called k (by simp [hpc])
  have hnew : ∀ j, j ≠ k → (opens j).pc.created → (m.relayConns j).id ≠ newConnID raw := by
    intro j _ hj
    refine hfresh j (hm.called j fun hnot => ?_) hj
    simp [hnot, OpenPc.created] at hj
  have hentry : ∀ connID j, m.conns.lookup connID = some j → j ≠ k := by
    rintro connID j hj rfl
    simpa [hpc, OpenPc.inserted] using (hm.entry connID j hj).1
  constructor
  · constructor
    · intro j hj
      by_cases hjk : j = k
      · exact hjk ▸ hlt
      · rw [update_of_ne hjk] at hj
        exact hm.called j hj
    · intro connID j hj
      have hne := hentry connID j hj
      rw [update_of_ne hne, Manager.setRelayConn_of_ne _ _ hne]
      exact hm.entry connID j hj
  · intro i j hi hj hid
    by_cases hik : i = k <;> by_cases hjk : j = k
    · rw [hik, hjk]
    · subst hik
      rw [update_of_ne hjk] at hj
      rw [Manager.setRelayConn_self, Manager.setRelayConn_of_ne _ _ hjk] at hid
      exact absurd hid.symm (hnew j hjk hj)
    · subst hjk
      rw [update_of_ne hik] at hi
      rw [Manager.setRelayConn_self, Manager.setRelayConn_of_ne _ _ hik] at hid
      exact absurd hid (hnew i hik hi)
    · rw [update_of_ne hik] at hi
      rw [update_of_ne hjk] at hj
      rw [Manager.setRelayConn_of_ne _ _ hik, Manager.setRelayConn_of_ne _ _ hjk] at hid
      exact hm.distinct i j hi hj hid
  · intro j hj
    by_cases hjk : j = k
    · rw [hjk, Manager.setRelayConn_self, update_self]
      rfl
    · rw [update_of_ne hjk] at hj ⊢
      rw [Manager.setRelayConn_of_ne _ _ hjk]
      exact hm.owner j hj
  · intro j hj hopen
    by_cases hjk : j = k
    · rw [hjk, update_self] at hj
      cases hj
    · rw [update_of_ne hjk] at hj
      rw [Manager.setRelayConn_of_ne _ _ hjk] at hopen ⊢
      exact hm.listed j hj hopen
  · intro connID j hj
    rw [Manager.setRelayConn_of_ne _ _ (hentry connID j hj)]
    exact hm.unlisted connID j hj
  · intro j
    by_cases hjk : j = k
    · rw [hjk, Manager.setRelayConn_self]
      simp [RelayConn.new, Conn.new]
    · rw [Manager.setRelayConn_of_ne _ _ hjk]
      exact hm.registered j
  · intro j hj
    by_cases hjk : j = k
    · rw [hjk, Manager.setRelayConn_self]
      exact ⟨rfl, rfl, rfl⟩
    · rw [update_of_ne hjk] at hj
      rw [Manager.setRelayConn_of_ne _ _ hjk]
      exact hm.untouched j hj

theorem Sound.inserts (hm : Sound m opens opened) (hpc : (opens k).pc = .insert) :
    Sound { m with conns := m.conns.insert (m.relayConns k).id k }
      (update opens k { opens k with pc := .add }) opened := by
  have hcreated : ∀ j, (update opens k { opens k with pc := .add } j).pc.created =
      (opens j).pc.created := by
    intro j
    by_cases hj : j = k
    · rw [hj, update_self, hpc]
      rfl
    · rw [update_of_ne hj]
  have hk : (opens k).pc.created := by rw [hpc]; rfl
  have hentry : ∀ connID j, (m.conns.insert (m.relayConns k).id k).lookup connID = some j →
      (j = k ∧ connID = (m.relayConns k).id) ∨ (j ≠ k ∧ m.conns.lookup connID = some j) := by
    intro connID j hj
    rw [Table.lookup_insert_eq] at hj
    split_ifs at hj with hid
    · exact .inl ⟨(Option.some.inj hj).symm, hid⟩
    · refine .inr ⟨?_, hj⟩
      rintro rfl
      exact hid (hm.entry connID j hj).2.symm
  constructor
  · constructor
    · intro j hj
      by_cases hjk : j = k
      · exact hjk ▸ hm.called k (by simp [hpc])
      · rw [update_of_ne hjk] at hj
        exact hm.called j hj
    · intro connID j hj
      rcases hentry connID j hj with ⟨rfl, rfl⟩ | ⟨hne, hlookup⟩
      · rw [update_self]
        exact ⟨rfl, rfl⟩
      · rw [update_of_ne hne]
        exact hm.entry connID j hlookup
  · simp only [hcreated]
    exact hm.distinct
  · intro j hj
    rw [hcreated] at hj
    by_cases hjk : j = k
    · rw [hjk, update_self]
      exact hm.owner k hk
    · rw [update_of_ne hjk]
      exact hm.owner j hj
  · intro j hj hopen
    dsimp only
    rw [Table.lookup_insert_eq]
    by_cases hjk : j = k
    · rw [hjk, if_pos rfl]
    · rw [update_of_ne hjk] at hj
      have hids : (m.relayConns j).id ≠ (m.relayConns k).id := fun hid =>
        hjk (hm.distinct j k (OpenPc.created_of_inserted hj) hk hid)
      rw [if_neg hids]
      exact hm.listed j hj hopen
  · intro connID j hj
    rcases hentry connID j hj with ⟨rfl, -⟩ | ⟨-, hlookup⟩
    · exact (hm.untouched j (by rw [hpc]; rfl)).2.2
    · exact hm.unlisted connID j hlookup
  · exact hm.registered
  · intro j hj
    by_cases hjk : j = k
    · rw [hjk, update_self] at hj
      cases hj
    · rw [update_of_ne hjk] at hj
      exact hm.untouched j hj

theorem Sound.openMove (hm : Sound m opens opened) (h : m.OpenMove k (opens k) ok raw m' pc)
    (hfresh : ok → (opens k).pc.draws →
      ∀ j < opened, (opens j).pc.created → (m.relayConns j).id ≠ newConnID raw) :
    Sound m' (update opens k { opens k with pc }) opened := by
  cases h with
  | stays pc hcalled hreserved hbefore hafter =>
    exact hm.setPc (sameRegistry_of_eq rfl rfl) hcalled (hafter.trans hbefore.symm)
      ((OpenPc.not_inserted hafter).trans (OpenPc.not_inserted hbefore).symm)
  | reserves limits hpc hlimits | releases err hpc | adds ttlStore now hpc hadd =>
    exact hm.setPc (sameRegistry_of_eq rfl rfl) (by simp [hpc]) (by rw [hpc]; rfl)
      (by rw [hpc]; rfl)
  | creates now hpc hok => exact hm.creates hpc (hfresh hok (by rw [hpc]; rfl))
  | inserts hpc => exact hm.inserts hpc
  | starts m' now response hpc hconn =>
    have hm' := hm.connMoves (by rw [hpc]; rfl) (Manager.connStep_moves hconn)
    exact hm'.setPc (sameRegistry_of_eq rfl rfl) (by simp [hpc]) (by rw [hpc]; rfl)
      (by rw [hpc]; rfl)

theorem Sound.openCall {clientID : Bytes} {request : OpenRequest} (hm : Sound m opens opened) :
    Sound m (update opens opened ⟨clientID, request, .check⟩) (opened + 1) := by
  have hnew : (opens opened).pc = .notCalled := by
    by_contra hcalled
    exact (hm.called opened hcalled).false
  have hold : ∀ j, (opens j).pc.created → j ≠ opened := by
    rintro j hj rfl
    simp [hnew, OpenPc.created] at hj
  have hc : ∀ j, (update opens opened ⟨clientID, request, .check⟩ j).pc.created =
      (opens j).pc.created := by
    intro j
    by_cases hj : j = opened
    · rw [hj, update_self, hnew]
      rfl
    · rw [update_of_ne hj]
  have hi : ∀ j, (update opens opened ⟨clientID, request, .check⟩ j).pc.inserted =
      (opens j).pc.inserted := by
    intro j
    by_cases hj : j = opened
    · rw [hj, update_self, hnew]
      rfl
    · rw [update_of_ne hj]
  constructor
  · constructor
    · intro j hj
      by_cases hjk : j = opened
      · omega
      · rw [update_of_ne hjk] at hj
        exact (hm.called j hj).trans (Nat.lt_succ_self _)
    · simp only [hi]
      exact hm.entry
  · simp only [hc]
    exact hm.distinct
  · intro j hj
    rw [hc] at hj
    rw [update_of_ne (hold j hj)]
    exact hm.owner j hj
  · simp only [hi]
    exact hm.listed
  · exact hm.unlisted
  · exact hm.registered
  · simp only [hi]
    exact hm.untouched

/-! ### The table and the connections agree along every run -/

open Option

variable {l l' : Lane} {label : LaneStep}

/-- The registry is sound, and calls work on inserted connections only. -/
structure InOrder (l : Lane) : Prop where
  sound : Sound l.manager l.opens l.opened
  within : ∀ i call k, l.calls i = some call → call.phase.position = some k →
    (l.opens k).pc.inserted

theorem InOrder.reaches (hl : l.InOrder) {i : ℕ} {call : Call} (hcall : l.calls i = some call)
    (hreach : l.manager.Reaches call k) : (l.opens k).pc.inserted := by
  rcases hreach with ⟨-, hk⟩ | hk
  · exact (hl.sound.entry _ k (Manager.getOwnedConn_ok.mp hk).1).1
  · exact hl.within i call k hcall hk

/-- A step in a connection is one of its loops, once they have been started, or one
of a call that has found it. -/
theorem Drives.started {g : Goroutine} {step : ConnStep} (hdrives : l.Drives label k g step)
    (h : m.ConnMoves m' k g step) :
    (m.relayConns k).conn.reader ≠ .notStarted ∨ (m.relayConns k).conn.writer ≠ .notStarted ∨
    ∃ i call, l.calls i = some call ∧ l.manager.Reaches call k := by
  have hstep := h.conn
  rcases hdrives with ⟨-, data, err, rfl⟩ | ⟨-, ok, n, rfl⟩ |
    ⟨i, now, call, -, -, -, hcall, hreach⟩
  · refine .inl fun hreader => ?_
    simp [Conn.step, Conn.readerStep, hreader] at hstep
  · refine .inr (.inl fun hwriter => ?_)
    simp [Conn.step, Conn.writerStep, hwriter] at hstep
  · exact .inr (.inr ⟨i, call, hcall, hreach⟩)

theorem InOrder.drives (hl : l.InOrder) {g : Goroutine} {step : ConnStep}
    (hdrives : l.Drives label k g step) (hm : Sound m l.opens l.opened)
    (h : m.ConnMoves m' k g step) : (l.opens k).pc.inserted := by
  by_contra hnot
  obtain ⟨hnoReader, hnoWriter, -⟩ := hm.untouched k (by simpa using hnot)
  rcases hdrives.started h with hreader | hwriter | ⟨i, call, hcall, hreach⟩
  · exact hreader hnoReader
  · exact hwriter hnoWriter
  · exact hnot (hl.reaches hcall hreach)

/-- The registry stays sound, and so does any further property of the manager and
the opens that the parts of a step keep while the registry is sound. -/
theorem InOrder.step_rule {P : Manager → (ℕ → OpenCall) → ℕ → Prop} (hl : l.InOrder)
    (hfresh : l.FreshIDs label) (h : l.step label = some l')
    (hP : P l.manager l.opens l.opened)
    (hopen : ∀ clientID request, P l.manager
      (Function.update l.opens l.opened ⟨clientID, request, .check⟩) (l.opened + 1))
    (hopener : ∀ k ok raw m pc, l.manager.OpenMove k (l.opens k) ok raw m pc →
      P m (Function.update l.opens k { l.opens k with pc }) l.opened)
    (hconn : ∀ k g step m₁ m₂, l.Drives label k g step → (l.opens k).pc.inserted →
      Sound m₁ l.opens l.opened → P m₁ l.opens l.opened → m₁.ConnMoves m₂ k g step →
      P m₂ l.opens l.opened)
    (honClosed : ∀ k m, l.manager.onClosedStep k = some m → P m l.opens l.opened)
    (hcharge : ∀ (m : Manager) clientID n now, P m l.opens l.opened →
      P { m with limits := (m.limits.allowRelayBytes clientID n now).1 } l.opens l.opened)
    (hnote : ∀ (m : Manager) k now, P m l.opens l.opened →
      P (m.setRelayConn k { m.relayConns k with lastActive := now }) l.opens l.opened)
    (htouch : ∀ (m m' : Manager) connID now, P m l.opens l.opened →
      m.touch connID now = some m' → P m' l.opens l.opened)
    (htick : ∀ order, label = .tick order → l.ticker = .waiting →
      P { l.manager with ttlStore := l.manager.ttlStore.tick } l.opens l.opened) :
    Sound l'.manager l'.opens l'.opened ∧ P l'.manager l'.opens l'.opened := by
  apply Lane.step_rule (P := fun m opens opened => Sound m opens opened ∧ P m opens opened) h
  · exact ⟨hl.sound, hP⟩
  · exact fun clientID request => ⟨hl.sound.openCall, hopen clientID request⟩
  · rintro k ok raw now m pc rfl hmove
    refine ⟨hl.sound.openMove hmove fun hok => ?_, hopener k ok raw m pc hmove⟩
    subst hok
    exact hfresh
  · rintro k g step now m₁ m₂ hdrives ⟨hm, hP₁⟩ hstep
    have hmoves := Manager.connStep_moves hstep
    have hinserted := hl.drives hdrives hm hmoves
    exact ⟨hm.connMoves hinserted hmoves, hconn k g step m₁ m₂ hdrives hinserted hm hP₁ hmoves⟩
  · exact fun k m hstep =>
      ⟨(sameRegistry_onClosedStep hstep).sound hl.sound, honClosed k m hstep⟩
  · exact fun m clientID n now hm => ⟨hm.1.of_eq rfl rfl, hcharge m clientID n now hm.2⟩
  · exact fun m k now hm => ⟨(sameRegistry_note m k now).sound hm.1, hnote m k now hm.2⟩
  · intro m m' connID now hm hstep
    refine ⟨?_, htouch m m' connID now hm.2 hstep⟩
    obtain ⟨r, -, rfl⟩ := map_eq_some_iff.mp hstep
    exact hm.1.of_eq rfl rfl
  · exact fun order hlabel hwaiting => ⟨hl.sound.of_eq rfl rfl, htick order hlabel hwaiting⟩

theorem step_inOrder (hl : l.InOrder) (hfresh : l.FreshIDs label) (h : l.step label = some l') :
    l'.InOrder := by
  constructor
  · have hsound := hl.step_rule (P := fun _ _ _ => True) hfresh h trivial
    simp only [implies_true, and_true, forall_const] at hsound
    exact hsound
  · intro i call k hcall hk
    have hinserted : (l.opens k).pc.inserted := by
      rcases step_calls h i with hsame | ⟨now, before, m, phase, -, hbefore, hstep, hnext⟩ |
        ⟨_, _, _, -, -, -, rfl⟩ | ⟨-, -, hlookup⟩
      · exact hl.within i call k (hsame ▸ hcall) hk
      · obtain rfl := some.inj (hcall.symm.trans hnext)
        exact hl.reaches hbefore (Manager.callStep_position hstep hk)
      · simp only [setCall_calls, if_true, some.injEq] at hcall
        simp [← hcall, Phase.position] at hk
      · simp [hlookup call hcall, Phase.position] at hk
    have hcreated := OpenPc.created_of_inserted hinserted
    have hlt : k < l.opened := hl.sound.called k fun hnot => by
      simp [hnot, OpenPc.created] at hcreated
    exact (step_named h hlt hcreated).2.2.1 hinserted

theorem new_inOrder (cfg : ManagerConfig) (limits : Limits.Config) : (new cfg limits).InOrder where
  sound := new_sound cfg limits
  within i call k hcall := by simp [new] at hcall

end Lane
end VlfProto.Relay
