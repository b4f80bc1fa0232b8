import VlfProto.Relay.Expires

/-! # The expiry of connections along every run -/

namespace VlfProto.Relay
open Platform Transition Function Option

def OpenPc.returned : OpenPc → Bool
  | .finished (.ok _) => true
  | _ => false

theorem OpenPc.added_of_returned {pc : OpenPc} (h : pc.returned) : pc.added := by
  cases pc with
  | finished result => cases result <;> exact h
  | _ => cases h

namespace Lane

variable {l l' : Lane} {label : LaneStep} {m m' : Manager} {k : ℕ}

/-- Ids are fresh, clients use an id only after `Open` has returned it, and nobody
shuts the manager down. -/
def Orderly (l : Lane) : LaneStep → Prop
  | .call _ _ connID _ => ∃ k < l.opened, (l.opens k).pc.returned ∧
      (l.manager.relayConns k).id = connID
  | .shutdown _ => False
  | label => l.FreshIDs label

instance (l : Lane) (label : LaneStep) : Decidable (l.Orderly label) := by
  unfold Orderly
  split <;> infer_instance

theorem Orderly.fresh (h : l.Orderly label) : l.FreshIDs label := by
  cases label <;> trivial

structure Timely (l : Lane) : Prop where
  inOrder : l.InOrder
  timers : Timers l.manager l.opens
  named : ∀ i call, l.calls i = some call →
    ∃ k, (l.opens k).pc.added ∧ (l.manager.relayConns k).id = call.connID
  position : ∀ i call k, l.calls i = some call → call.phase.position = some k →
    (l.manager.relayConns k).id = call.connID
  queued : ∀ e ∈ l.ticker.queue, ∃ k, (l.opens k).pc.added ∧ e = l.manager.expiry k
  running : l.shutdown = .notCalled
  expires : Expires l.Expiring l.manager l.opens

theorem Timely.reaches (hl : l.Timely) {i : ℕ} {call : Call} (hcall : l.calls i = some call)
    (hreach : l.manager.Reaches call k) :
    (l.opens k).pc.added ∧ (l.manager.relayConns k).id = call.connID := by
  have hid : (l.manager.relayConns k).id = call.connID := by
    rcases hreach with ⟨-, hk⟩ | hk
    · exact (hl.inOrder.sound.entry _ k (Manager.getOwnedConn_ok.mp hk).1).2
    · exact hl.position i call k hcall hk
  obtain ⟨j, hj, hid'⟩ := hl.named i call hcall
  have hjk : j = k := hl.inOrder.sound.distinct j k
    (OpenPc.created_of_inserted (OpenPc.inserted_of_added hj))
    (OpenPc.created_of_inserted (hl.inOrder.reaches hcall hreach)) (hid'.trans hid.symm)
  exact ⟨hjk ▸ hj, hid⟩

/-- A goroutine that takes a step in a connection finds its timer armed before. -/
theorem Timely.drives (hl : l.Timely) {g : Goroutine} {step : ConnStep}
    (hdrives : l.Drives label k g step) (ht : Timers m l.opens)
    (h : m.ConnMoves m' k g step) : (l.opens k).pc.added := by
  by_contra hnot
  obtain ⟨-, hnoReader, hnoWriter⟩ := ht.early k (by simpa using hnot)
  rcases hdrives.started h with hreader | hwriter | ⟨i, call, hcall, hreach⟩
  · exact hreader hnoReader
  · exact hwriter hnoWriter
  · exact hnot (hl.reaches hcall hreach).1

/-- What happens to the timers in a step other than a tick, for any set of
connections whose callbacks the ticker has. -/
theorem Timely.step_timers (hl : l.Timely) (hfresh : l.FreshIDs label)
    (hlabel : ∀ order, label ≠ .tick order) (h : l.step label = some l') :
    Timers l'.manager l'.opens ∧ Expires l.Expiring l'.manager l'.opens := by
  have hrule := hl.inOrder.step_rule
    (P := fun m opens _ => Timers m opens ∧ Expires l.Expiring m opens) hfresh h
    ⟨hl.timers, hl.expires⟩
  refine (hrule ?_ ?_ ?_ ?_ ?_ ?_ ?_ ?_).2
  · intro clientID request
    have hadded : ∀ j, (update l.opens l.opened ⟨clientID, request, .check⟩ j).pc.added =
        (l.opens j).pc.added := by
      intro j
      by_cases hj : j = l.opened
      · have hnew : (l.opens j).pc = .notCalled := by
          by_contra hcalled
          exact (hl.inOrder.sound.called j hcalled).ne hj
        rw [hnew, hj, update_self]
        rfl
      · rw [update_of_ne hj]
    exact ⟨hl.timers.of_added hadded, hl.expires.of_added hadded⟩
  · intro k ok raw m pc hmove
    exact ⟨hl.timers.openMove hl.inOrder.sound hmove,
      hl.expires.openMove hl.timers hl.inOrder.sound hmove⟩
  · rintro k g step m₁ m₂ hdrives - hm ⟨ht, he⟩ hmoves
    exact ⟨ht.connMoves hm (hl.drives hdrives ht hmoves) hmoves, he.connMoves ht hm hmoves⟩
  · intro k m hstep
    have hk := hl.inOrder.sound.inserted_of_onClosedStep hstep
    exact ⟨hl.timers.onClosedStep hstep,
      hl.expires.onClosedStep hl.timers hl.inOrder.sound hk hstep⟩
  · rintro m clientID n now ⟨ht, he⟩
    exact ⟨ht.congr ht.wheel (fun _ => rfl) (fun _ => rfl) fun _ => ⟨⟨rfl, rfl⟩, rfl, rfl⟩, he⟩
  · rintro m k now ⟨ht, he⟩
    refine ⟨ht.note k now, he.congr (fun j _ => ?_) (fun _ => rfl) fun j _ hclosed hidle => ?_⟩
    · exact ⟨(m.note_fields k j now).1, (m.note_fields k j now).2.1⟩
    · rw [(m.note_fields k j now).2.2.2] at hclosed
      rw [(m.note_fields k j now).2.2.1] at hidle
      exact ⟨hclosed, hidle⟩
  · rintro m m' connID now ⟨ht, he⟩ htouch
    refine ⟨ht.touch htouch, ?_⟩
    obtain ⟨r, htouch', rfl⟩ := Option.map_eq_some_iff.mp htouch
    obtain ⟨-, harmed, -⟩ := Store.RelayStore.touch_spec ht.wheel htouch'
    exact he.congr (fun _ _ => ⟨rfl, rfl⟩) harmed fun _ _ hclosed hidle => ⟨hclosed, hidle⟩
  · exact fun order heq _ => absurd heq (hlabel order)

theorem inserted_of_step_added (h : l.step label = some l') (hk : (l'.opens k).pc.added) :
    (l.opens k).pc.inserted := by
  refine step_rule (P := fun _ opens _ => (opens k).pc.added → (l.opens k).pc.inserted) h
    OpenPc.inserted_of_added ?_ ?_ ?_ ?_ ?_ ?_ ?_ ?_ hk
  · intro clientID request hadded
    by_cases hj : k = l.opened
    · rw [hj, update_self] at hadded
      cases hadded
    · rw [update_of_ne hj] at hadded
      exact OpenPc.inserted_of_added hadded
  · intro j ok raw now m pc _ hmove hadded
    by_cases hj : k = j
    · subst hj
      rw [update_self] at hadded
      cases hmove with
      | stays pc hcalled hreserved hbefore hafter => simp [OpenPc.not_added hafter] at hadded
      | adds ttlStore now hpc hadd | starts m' now response hpc hconn => rw [hpc]; rfl
      | _ => cases hadded
    · rw [update_of_ne hj] at hadded
      exact OpenPc.inserted_of_added hadded
  · exact fun _ _ _ _ _ _ _ hm _ => hm
  · exact fun _ _ _ => OpenPc.inserted_of_added
  · exact fun _ _ _ _ hm => hm
  · exact fun _ _ _ hm => hm
  · exact fun _ _ _ _ hm _ => hm
  · exact fun _ _ _ => OpenPc.inserted_of_added

theorem notCalled_of_step (h : l.step label = some l') (hk : (l.opens k).pc.created)
    (hclosed : (l'.manager.relayConns k).onClosed = .notCalled) :
    (l.manager.relayConns k).onClosed = .notCalled := by
  have hconn : ∀ (m₁ m₂ : Manager) j g step, m₁.ConnMoves m₂ j g step →
      (m₂.relayConns k).onClosed = .notCalled → (m₁.relayConns k).onClosed = .notCalled := by
    intro m₁ m₂ j g step hmoves hopen
    by_cases hj : k = j
    · subst hj
      by_cases hstays : (m₁.relayConns k).conn.registered → (m₂.relayConns k).conn.registered
      · rwa [(hmoves.stays hstays).2] at hopen
      · obtain ⟨hbefore, hafter⟩ := Classical.not_imp.mp hstays
        rcases hmoves.leaves hbefore (by simpa using hafter) with ⟨-, -, hnot⟩ | ⟨-, -, hnot⟩ <;>
          cases hopen.symm.trans hnot
    · rwa [hmoves.others k hj] at hopen
  refine step_rule (P := fun m _ _ => (m.relayConns k).onClosed = .notCalled →
    (l.manager.relayConns k).onClosed = .notCalled) h id ?_ ?_ ?_ ?_ ?_ ?_ ?_ ?_ hclosed
  · exact fun _ _ => id
  · intro j ok raw now m pc _ hmove hopen
    cases hmove with
    | creates now hpc hok =>
      have hne : k ≠ j := by
        rintro rfl
        simp [hpc, OpenPc.created] at hk
      rwa [Manager.setRelayConn_of_ne _ _ hne] at hopen
    | starts m' now response hpc hstart =>
      exact hconn _ _ j _ _ (Manager.connStep_moves hstart) hopen
    | _ => exact hopen
  · intro j g step now m₁ m₂ _ hm hstep hopen
    exact hm (hconn _ _ j g step (Manager.connStep_moves hstep) hopen)
  · intro j m hstep hopen
    have hsame : SameRegistry l.manager m l.opens := sameRegistry_onClosedStep hstep
    exact (hsame.onClosed k).mp hopen
  · exact fun _ _ _ _ hm => hm
  · intro m j now hm hopen
    rw [(m.note_fields j k now).2.2.2] at hopen
    exact hm hopen
  · intro m m' connID now hm htouch
    obtain ⟨r, -, rfl⟩ := map_eq_some_iff.mp htouch
    exact hm
  · exact fun _ _ _ => id

theorem InOrder.added_lt (hl : l.InOrder) (hk : (l.opens k).pc.added) : k < l.opened :=
  hl.sound.called k fun hnot => by simp [hnot, OpenPc.added] at hk

/-- A connection whose timer has been armed stays so and keeps its names. -/
theorem InOrder.added_step (hl : l.InOrder) (h : l.step label = some l')
    (hk : (l.opens k).pc.added) :
    (l'.opens k).pc.added ∧ l.manager.SameNames l'.manager k := by
  have hcreated := OpenPc.created_of_inserted (OpenPc.inserted_of_added hk)
  exact ⟨step_added h (hl.added_lt hk) hk, (step_named h (hl.added_lt hk) hcreated).2.2.2⟩

theorem Timely.foreground (hl : l.Timely) (horderly : l.Orderly label)
    (hlabel : label.background = false) (h : l.step label = some l') : l'.Timely := by
  have hnotick : ∀ order, label ≠ .tick order := by
    rintro order rfl
    cases hlabel
  obtain ⟨htimers, hexpires⟩ := hl.step_timers horderly.fresh hnotick h
  obtain ⟨hticker, hshutdown⟩ := step_ticker h hlabel
  have hkeep : ∀ k, (l.opens k).pc.added →
      (l'.opens k).pc.added ∧ l.manager.SameNames l'.manager k :=
    fun k hk => hl.inOrder.added_step h hk
  constructor
  · exact step_inOrder hl.inOrder horderly.fresh h
  · exact htimers
  · intro i call hcall
    have hnamed : ∃ k, (l.opens k).pc.added ∧
        (l.manager.relayConns k).id = call.connID := by
      rcases step_calls h i with hsame | ⟨now, before, m, phase, -, hbefore, -, hnext⟩ |
        ⟨clientID, connID, operation, rfl, -, -, rfl⟩ | ⟨hbackground, -⟩
      · exact hl.named i call (hsame ▸ hcall)
      · obtain rfl := some.inj (hcall.symm.trans hnext)
        exact hl.named i before hbefore
      · simp only [setCall_calls, if_true, some.injEq] at hcall
        obtain ⟨k, -, hreturned, hid⟩ := horderly
        exact ⟨k, OpenPc.added_of_returned hreturned, by rw [← hcall, hid]⟩
      · rcases hbackground with rfl | rfl <;> cases hlabel
    obtain ⟨k, hk, hid⟩ := hnamed
    exact ⟨k, (hkeep k hk).1, (hkeep k hk).2.1.trans hid⟩
  · intro i call k hcall hk
    have hposition : (l.opens k).pc.added ∧ (l.manager.relayConns k).id = call.connID := by
      rcases step_calls h i with hsame | ⟨now, before, m, phase, -, hbefore, hstep, hnext⟩ |
        ⟨clientID, connID, operation, rfl, -, -, rfl⟩ | ⟨hbackground, -⟩
      · exact hl.reaches (hsame ▸ hcall) (.inr hk)
      · obtain rfl := some.inj (hcall.symm.trans hnext)
        have hreached := hl.reaches hbefore (Manager.callStep_position hstep hk)
        exact hreached
      · simp only [setCall_calls, if_true, some.injEq] at hcall
        simp [← hcall, Phase.position] at hk
      · rcases hbackground with rfl | rfl <;> cases hlabel
    exact (hkeep k hposition.1).2.1.trans hposition.2
  · intro e he
    rw [hticker] at he
    obtain ⟨k, hk, rfl⟩ := hl.queued e he
    exact ⟨k, (hkeep k hk).1, (hkeep k hk).2.expiry.symm⟩
  · rw [hshutdown]
    exact hl.running
  · intro k hk hclosed hidle
    rcases hexpires k hk hclosed hidle with harmed | hexpiring
    · exact .inl harmed
    · have hinserted := inserted_of_step_added h hk
      have hopen := notCalled_of_step h (OpenPc.created_of_inserted hinserted) hclosed
      exact .inr (hexpiring.step hl.inOrder hlabel h hinserted hopen hidle)

theorem not_expiring (h : l.ticker.queue = []) (h' : l.ticker.awaits = false) :
    ¬l.Expiring k := by
  rintro (hqueued | ⟨hawaits, -⟩)
  · simp [h] at hqueued
  · simp [h'] at hawaits

/-- A tick hands the callbacks of the timers it takes off to the ticker. -/
theorem Timely.tick {order : List Expiry} (hl : l.Timely) (h : l.step (.tick order) = some l') :
    l'.Timely := by
  have hfresh : l.FreshIDs (.tick order) := trivial
  have hinOrder := step_inOrder hl.inOrder hfresh h
  obtain ⟨⟨hwaiting, horder⟩, rfl⟩ := of_guard h
  refine ⟨hinOrder, hl.timers.tick, hl.named, hl.position, fun e he => ?_, hl.running, ?_⟩
  · have hmem : e ∈ l.manager.ttlStore.wheel.callbacks := by
      rw [← horder]
      exact he
    obtain ⟨key, hkey⟩ := Store.Wheel.exists_armedFor_of_mem_callbacks hl.timers.wheel hmem
    obtain ⟨k, hk, -, hcallback, -⟩ := hl.timers.armed key _ hkey
    exact ⟨k, hk, some.inj hcallback⟩
  · intro k hk hclosed hidle
    rcases hl.expires k hk hclosed hidle with harmed | hexpiring
    · rcases Store.Wheel.armedFor_tick hl.timers.wheel
        (Store.relayKey (l.manager.relayConns k).id) with hsame | ⟨-, htaken⟩
      · exact .inl (hsame.trans harmed)
      · have hmem := htaken _ harmed
        rw [← horder] at hmem
        exact .inr (.inl hmem)
    · exact absurd hexpiring (not_expiring (by simp [hwaiting, TickerPc.queue])
        (by simp [hwaiting, TickerPc.awaits]))

theorem Timely.idles {ticker : TickerPc} (hl : l.Timely) (hqueue : l.ticker.queue = [])
    (hawaits : l.ticker.awaits = false) (hticker : ticker.queue = []) :
    { l with ticker }.Timely where
  inOrder := ⟨hl.inOrder.sound, hl.inOrder.within⟩
  timers := hl.timers
  named := hl.named
  position := hl.position
  queued e he := by simp [hticker] at he
  running := hl.running
  expires k hk hclosed hidle :=
    .inl ((hl.expires k hk hclosed hidle).resolve_right (not_expiring hqueue hawaits))

theorem Timely.callsBack {e : Expiry} {rest : List Expiry} (hl : l.Timely)
    (hticker : l.ticker = .sweeping (.next (e :: rest))) :
    { l.setCall tickerSlot (some ⟨e.2, e.1, .close, .lookup⟩) with
      ticker := .sweeping (.await rest) }.Timely where
  inOrder := by
    refine ⟨hl.inOrder.sound, fun i call k hcall hk => ?_⟩
    rw [setCall_calls] at hcall
    split_ifs at hcall with hi
    · simp [← some.inj hcall, Phase.position] at hk
    · exact hl.inOrder.within i call k hcall hk
  timers := hl.timers
  named i call hcall := by
    rw [setCall_calls] at hcall
    split_ifs at hcall with hi
    · obtain ⟨k, hk, rfl⟩ := hl.queued e (by simp [hticker, TickerPc.queue, Sweep.rest])
      exact ⟨k, hk, by rw [← some.inj hcall]; rfl⟩
    · exact hl.named i call hcall
  position i call k hcall hk := by
    rw [setCall_calls] at hcall
    split_ifs at hcall with hi
    · simp [← some.inj hcall, Phase.position] at hk
    · exact hl.position i call k hcall hk
  queued e' he' := hl.queued e' (by
    rw [hticker]
    exact List.mem_cons_of_mem _ he')
  running := hl.running
  expires k hk hclosed hidle := by
    rcases hl.expires k hk hclosed hidle with harmed | hqueued | ⟨hawaits, -⟩
    · exact .inl harmed
    · rw [hticker] at hqueued
      rcases List.mem_cons.mp hqueued with hhead | hrest
      · refine .inr (.inr ⟨rfl, ⟨e.2, e.1, .close, .lookup⟩, ?_, ?_, ?_, rfl, .inl rfl⟩)
        · rw [setCall_calls, if_pos rfl]
        · exact (congrArg Prod.fst hhead).symm
        · exact (congrArg Prod.snd hhead).symm
      · exact .inr (.inl hrest)
    · simp [hticker, TickerPc.awaits] at hawaits

theorem Timely.goesOn {rest : List Expiry} (hl : l.Timely)
    (hticker : l.ticker = .sweeping (.await rest)) (hfinished : l.callFinished tickerSlot) :
    { l.setCall tickerSlot none with ticker := .sweeping (.next rest) }.Timely where
  inOrder := by
    refine ⟨hl.inOrder.sound, fun i call k hcall hk => ?_⟩
    rw [setCall_calls] at hcall
    split_ifs at hcall with hi
    exact hl.inOrder.within i call k hcall hk
  timers := hl.timers
  named i call hcall := by
    rw [setCall_calls] at hcall
    split_ifs at hcall with hi
    exact hl.named i call hcall
  position i call k hcall hk := by
    rw [setCall_calls] at hcall
    split_ifs at hcall with hi
    exact hl.position i call k hcall hk
  queued e he := hl.queued e (by
    rw [hticker]
    exact he)
  running := hl.running
  expires k hk hclosed hidle := by
    rcases hl.expires k hk hclosed hidle with harmed | hqueued |
      ⟨-, ⟨clientID, connID, operation, phase⟩, hcall, -, -, -, hphase⟩
    · exact .inl harmed
    · rw [hticker] at hqueued
      exact .inr (.inl hqueued)
    · rcases hphase with rfl | ⟨rfl, -⟩ <;> simp [callFinished, hcall] at hfinished

theorem step_timely (hl : l.Timely) (horderly : l.Orderly label) (h : l.step label = some l') :
    l'.Timely := by
  cases hlabel : label.background with
  | false => exact hl.foreground horderly hlabel h
  | true =>
    cases label with
    | tick order => exact hl.tick h
    | ticker =>
      replace h : l.tickerStep = some l' := h
      unfold tickerStep at h
      split at h
      · rename_i sweep hticker
        obtain ⟨r, hsweep, rfl⟩ := map_eq_some_iff.mp h
        match sweep with
        | .next [] =>
          cases hsweep
          exact hl.idles (by rw [hticker]; rfl) (by rw [hticker]; rfl) rfl
        | .next (e :: rest) =>
          cases hsweep
          exact hl.callsBack hticker
        | .await rest =>
          obtain ⟨hfinished, rfl⟩ := of_guard hsweep
          exact hl.goesOn hticker hfinished
      · cases h
    | exit =>
      obtain ⟨⟨hwaiting, -⟩, rfl⟩ := of_guard h
      exact hl.idles (by rw [hwaiting]; rfl) (by rw [hwaiting]; rfl) rfl
    | shutdown order => exact horderly.elim
    | shutdowner =>
      replace h : l.shutdownStep = some l' := h
      simp [shutdownStep, hl.running] at h
    | _ => cases hlabel

theorem new_timely (cfg : ManagerConfig) (limits : Limits.Config) : (new cfg limits).Timely where
  inOrder := new_inOrder cfg limits
  timers := new_timers cfg limits
  named i call hcall := by cases hcall
  position i call k hcall := by cases hcall
  queued e he := by cases he
  running := rfl
  expires k hk := by cases hk

theorem path_timely {cfg : ManagerConfig} {limits : Limits.Config} {labels : List LaneStep}
    (hpath : Path step Orderly (new cfg limits) labels l) : l.Timely :=
  Path.invariant (fun _ _ _ hl horderly h => step_timely hl horderly h) hpath
    (new_timely cfg limits)

end Lane
end VlfProto.Relay
