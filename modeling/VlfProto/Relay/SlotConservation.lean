import VlfProto.Platform.Counting
import VlfProto.Relay.RegistryRun

/-! # The slots of the limits and who holds them -/

namespace VlfProto.Relay
open Platform Transition Finset

namespace Lane

variable {l l' : Lane} {m m' : Manager} {opens opens' : ℕ → OpenCall} {opened k : ℕ}
  {limits : Limits.Config} {ok : Bool} {raw : Bytes} {pc : OpenPc}

def holdsSlot (m : Manager) (opens : ℕ → OpenCall) (k : ℕ) : Bool :=
  (opens k).pc.reserved || ((opens k).pc.inserted && (m.relayConns k).onClosed ≠ .returned)

def weight (b : Bool) : ℤ := if b then 1 else 0

def held (m : Manager) (opens : ℕ → OpenCall) (opened : ℕ) (client : Bytes) : ℤ :=
  ∑ k ∈ Finset.range opened, weight ((opens k).clientID = client && holdsSlot m opens k)

def heldTotal (m : Manager) (opens : ℕ → OpenCall) (opened : ℕ) : ℤ :=
  ∑ k ∈ Finset.range opened, weight (holdsSlot m opens k)

/-- The counters of the limits agree with the holders and respect the maxima. -/
structure Balanced (limits : Limits.Config) (m : Manager) (opens : ℕ → OpenCall) (opened : ℕ) :
    Prop where
  cfg : m.limits.cfg = limits
  total : m.limits.totalRelayConns = heldTotal m opens opened
  client : ∀ c, m.limits.relayConns c = held m opens opened c
  maxTotal : 0 < limits.maxTotalConns → m.limits.totalRelayConns ≤ limits.maxTotalConns
  maxClient : ∀ c, 0 < limits.maxConnsPerClient →
    m.limits.relayConns c ≤ limits.maxConnsPerClient

theorem new_balanced (cfg : ManagerConfig) (limits : Limits.Config) :
    Balanced limits (new cfg limits).manager (new cfg limits).opens (new cfg limits).opened where
  cfg := rfl
  total := rfl
  client _ := rfl
  maxTotal h := h.le
  maxClient _ h := h.le

/-- All slots but one have the same holders. -/
structure SameElsewhere (m m' : Manager) (opens opens' : ℕ → OpenCall) (k : ℕ) : Prop where
  client : ∀ j, (opens' j).clientID = (opens j).clientID
  holds : ∀ j, j ≠ k → holdsSlot m' opens' j = holdsSlot m opens j

theorem SameElsewhere.heldTotal_eq (h : SameElsewhere m m' opens opens' k) (hk : k < opened) :
    heldTotal m' opens' opened = heldTotal m opens opened +
      (weight (holdsSlot m' opens' k) - weight (holdsSlot m opens k)) := by
  have hsum := sum_range_exchange (f := fun j => weight (holdsSlot m' opens' j))
    (g := fun j => weight (holdsSlot m opens j)) hk fun j hj => by simp only [h.holds j hj]
  unfold heldTotal
  omega

theorem SameElsewhere.held_eq (h : SameElsewhere m m' opens opens' k) (hk : k < opened)
    (c : Bytes) :
    held m' opens' opened c = held m opens opened c + if c = (opens k).clientID then
      weight (holdsSlot m' opens' k) - weight (holdsSlot m opens k) else 0 := by
  have hsame : ∀ j, j ≠ k → weight ((opens' j).clientID = c && holdsSlot m' opens' j) =
      weight ((opens j).clientID = c && holdsSlot m opens j) := by
    intro j hj
    simp only [h.holds j hj, h.client j]
  have hsum := sum_range_exchange hk hsame
  unfold held
  by_cases hc : c = (opens k).clientID
  · simp only [h.client k, hc, decide_true, Bool.true_and, if_true] at hsum ⊢
    omega
  · simpa [h.client k, hc, Ne.symm hc, weight] using hsum

theorem Balanced.same (hb : Balanced limits m opens opened) (hlimits : m'.limits = m.limits)
    (h : SameElsewhere m m' opens opens' k) (hk : k < opened)
    (hsame : holdsSlot m' opens' k = holdsSlot m opens k) : Balanced limits m' opens' opened where
  cfg := hlimits ▸ hb.cfg
  total := by
    rw [hlimits, h.heldTotal_eq hk, hsame, sub_self, add_zero]
    exact hb.total
  client c := by
    rw [hlimits, h.held_eq hk, hsame, sub_self, ite_self, add_zero]
    exact hb.client c
  maxTotal := hlimits ▸ hb.maxTotal
  maxClient := hlimits ▸ hb.maxClient

theorem Balanced.takes {after : Limits.Manager} (hb : Balanced limits m opens opened)
    (hlimits : m'.limits = after)
    (hreserve : m.limits.reserveRelayConn (opens k).clientID = .ok after)
    (h : SameElsewhere m m' opens opens' k) (hk : k < opened)
    (hbefore : holdsSlot m opens k = false) (hafter : holdsSlot m' opens' k) :
    Balanced limits m' opens' opened := by
  obtain ⟨hmaxTotal, hmaxClient, hcfg, htotal, hclient⟩ :=
    Limits.Manager.reserveRelayConn_ok hreserve
  rw [hb.cfg] at hmaxTotal hmaxClient
  constructor
  · rw [hlimits, hcfg, hb.cfg]
  · rw [hlimits, htotal, h.heldTotal_eq hk, hbefore, hafter, hb.total]
    rfl
  · intro c
    rw [hlimits, hclient, h.held_eq hk, hbefore, hafter, hb.client]
    rfl
  · intro hpos
    rw [hlimits, htotal]
    have := hmaxTotal hpos
    omega
  · intro c hpos
    rw [hlimits, hclient]
    have := hmaxClient hpos
    have := hb.maxClient c hpos
    split_ifs with hc
    · subst hc
      omega
    · omega

theorem heldTotal_pos (hk : k < opened) (hholds : holdsSlot m opens k) :
    0 < heldTotal m opens opened := by
  refine sum_pos' (fun j _ => ?_) ⟨k, mem_range.mpr hk, ?_⟩
  · unfold weight
    split_ifs <;> simp
  · simp [weight, hholds]

theorem held_pos (hk : k < opened) (hholds : holdsSlot m opens k) :
    0 < held m opens opened (opens k).clientID := by
  refine sum_pos' (fun j _ => ?_) ⟨k, mem_range.mpr hk, ?_⟩
  · unfold weight
    split_ifs <;> simp
  · simp [weight, hholds]

/-- A holder gives its slot back; the clamps of the limits do not act. -/
theorem Balanced.gives (hb : Balanced limits m opens opened)
    (hlimits : m'.limits = m.limits.releaseRelayConn (opens k).clientID)
    (h : SameElsewhere m m' opens opens' k) (hk : k < opened)
    (hbefore : holdsSlot m opens k) (hafter : holdsSlot m' opens' k = false) :
    Balanced limits m' opens' opened := by
  have htotalPos := heldTotal_pos hk hbefore
  have hclientPos := held_pos hk hbefore
  rw [← hb.total] at htotalPos
  rw [← hb.client] at hclientPos
  obtain ⟨htotal, hclient⟩ := Limits.Manager.releaseRelayConn_eq htotalPos hclientPos
  constructor
  · rw [hlimits]
    exact hb.cfg
  · rw [hlimits, htotal, h.heldTotal_eq hk, hbefore, hafter, hb.total]
    rfl
  · intro c
    rw [hlimits, hclient, h.held_eq hk, hbefore, hafter, hb.client]
    split_ifs <;> rfl
  · intro hpos
    rw [hlimits, htotal]
    have := hb.maxTotal hpos
    omega
  · intro c hpos
    rw [hlimits, hclient]
    have := hb.maxClient c hpos
    split_ifs <;> omega

/-! ### Every step keeps the slots balanced -/

open Function

variable {label : LaneStep}

theorem holdsSlot_congr {opens' : ℕ → OpenCall} {j : ℕ}
    (hreserved : (opens' j).pc.reserved = (opens j).pc.reserved)
    (hinserted : (opens' j).pc.inserted = (opens j).pc.inserted)
    (hclosed : (m'.relayConns j).onClosed = .returned ↔ (m.relayConns j).onClosed = .returned) :
    holdsSlot m' opens' j = holdsSlot m opens j := by
  unfold holdsSlot
  rw [hreserved, hinserted]
  simp only [ne_eq, hclosed]

theorem sameElsewhere (hrelay : ∀ j, j ≠ k → m'.relayConns j = m.relayConns j) :
    SameElsewhere m m' opens (update opens k { opens k with pc }) k where
  client j := by
    by_cases hj : j = k
    · rw [hj, update_self]
    · rw [update_of_ne hj]
  holds j hj := by
    rw [holdsSlot, holdsSlot, update_of_ne hj, hrelay j hj]

theorem sameElsewhere_self (hrelay : ∀ j, j ≠ k → m'.relayConns j = m.relayConns j) :
    SameElsewhere m m' opens opens k where
  client _ := rfl
  holds j hj := by rw [holdsSlot, holdsSlot, hrelay j hj]

theorem Balanced.of_onClosed (hb : Balanced limits m opens opened)
    (hlimits : m'.limits = m.limits)
    (hclosed : ∀ j, (m'.relayConns j).onClosed = (m.relayConns j).onClosed) :
    Balanced limits m' opens opened := by
  have hholds : holdsSlot m' opens = holdsSlot m opens := by
    funext j
    rw [holdsSlot, holdsSlot, hclosed j]
  constructor
  · rw [hlimits]
    exact hb.cfg
  · rw [hlimits, heldTotal, hholds]
    exact hb.total
  · intro c
    rw [hlimits, held, hholds]
    exact hb.client c
  · rw [hlimits]
    exact hb.maxTotal
  · rw [hlimits]
    exact hb.maxClient

theorem Balanced.connMoves {g : Goroutine} {step : ConnStep}
    (hb : Balanced limits m opens opened) (hm : Sound m opens opened)
    (hk : (opens k).pc.inserted) (h : m.ConnMoves m' k g step) :
    Balanced limits m' opens opened := by
  have hlt : k < opened := hm.called k fun hnot => by simp [hnot, OpenPc.inserted] at hk
  refine hb.same h.limits (sameElsewhere_self h.others) hlt (holdsSlot_congr rfl rfl ?_)
  by_cases hstays : (m.relayConns k).conn.registered → (m'.relayConns k).conn.registered
  · rw [(h.stays hstays).2]
  · obtain ⟨hbefore, hafter⟩ := Classical.not_imp.mp hstays
    rw [(hm.leaves hk h hbefore (by simpa using hafter)).2, (hm.registered k).mp hbefore]
    simp

theorem Balanced.openMove (hb : Balanced limits m opens opened) (hm : Sound m opens opened)
    (h : m.OpenMove k (opens k) ok raw m' pc) :
    Balanced limits m' (update opens k { opens k with pc }) opened := by
  have hlt : k < opened := hm.called k h.called
  have hself : update opens k { opens k with pc } k = { opens k with pc } :=
    update_self ..
  cases h with
  | stays pc hcalled hreserved hbefore hafter =>
    refine hb.same ?_ (sameElsewhere ?_) hlt (holdsSlot_congr ?_ ?_ Iff.rfl)
    · rfl
    · exact fun _ _ => rfl
    · rw [hself, hreserved]
    · rw [hself, OpenPc.not_inserted hafter, OpenPc.not_inserted hbefore]
  | reserves after hpc hlimits =>
    refine hb.takes ?_ hlimits (sameElsewhere ?_) hlt ?_ ?_
    · rfl
    · exact fun _ _ => rfl
    · simp [holdsSlot, hpc, OpenPc.reserved, OpenPc.inserted]
    · simp [holdsSlot, OpenPc.reserved]
  | creates now hpc hok =>
    refine hb.same ?_ (sameElsewhere ?_) hlt ?_
    · rfl
    · exact fun j hj => Manager.setRelayConn_of_ne _ _ hj
    · simp [holdsSlot, hpc, OpenPc.reserved]
  | releases err hpc =>
    refine hb.gives ?_ (sameElsewhere ?_) hlt ?_ ?_
    · rfl
    · exact fun _ _ => rfl
    · simp [holdsSlot, hpc, OpenPc.reserved]
    · simp [holdsSlot, OpenPc.reserved, OpenPc.inserted]
  | inserts hpc =>
    have huntouched := (hm.untouched k (by rw [hpc]; rfl)).2.2
    refine hb.same ?_ (sameElsewhere ?_) hlt ?_
    · rfl
    · exact fun _ _ => rfl
    · simp [holdsSlot, hpc, OpenPc.reserved, OpenPc.inserted, huntouched]
  | adds ttlStore now hpc hadd =>
    refine hb.same ?_ (sameElsewhere ?_) hlt ?_
    · rfl
    · exact fun _ _ => rfl
    · simp [holdsSlot, hpc, OpenPc.reserved, OpenPc.inserted]
  | starts m' now response hpc hconn =>
    have hb' := hb.connMoves hm (by rw [hpc]; rfl) (Manager.connStep_moves hconn)
    refine hb'.same ?_ (sameElsewhere ?_) hlt ?_
    · rfl
    · exact fun _ _ => rfl
    · simp [holdsSlot, hpc, OpenPc.reserved, OpenPc.inserted]

theorem Balanced.onClosedStep (hb : Balanced limits m opens opened) (hm : Sound m opens opened)
    (h : m.onClosedStep k = some m') : Balanced limits m' opens opened := by
  have hk := hm.inserted_of_onClosedStep h
  have hlt : k < opened := hm.called k fun hnot => by simp [hnot, OpenPc.inserted] at hk
  rcases Manager.onClosedStep_cases h with ⟨g, hpc, rfl⟩ | ⟨g, hpc, rfl⟩
  · refine hb.same ?_ (sameElsewhere_self ?_) hlt ?_
    · rfl
    · exact fun j hj => Manager.setRelayConn_of_ne _ _ hj
    · simp [holdsSlot, hpc, Manager.setRelayConn]
  · have howner := hm.owner k (OpenPc.created_of_inserted hk)
    have hnot : (opens k).pc.reserved = false := by
      cases hopen : (opens k).pc <;> simp_all [OpenPc.inserted, OpenPc.reserved]
    refine hb.gives ?_ (sameElsewhere_self ?_) hlt ?_ ?_
    · rw [← howner]
      rfl
    · exact fun j hj => Manager.setRelayConn_of_ne _ _ hj
    · simp [holdsSlot, hpc, hk]
    · simp [holdsSlot, hnot, Manager.setRelayConn]

theorem Balanced.openCall {clientID : Bytes} {request : OpenRequest}
    (hb : Balanced limits m opens opened) :
    Balanced limits m (update opens opened ⟨clientID, request, .check⟩)
      (opened + 1) := by
  have hold : ∀ j ∈ Finset.range opened,
      update opens opened ⟨clientID, request, .check⟩ j = opens j := by
    intro j hj
    exact update_of_ne (mem_range.mp hj).ne ..
  have hnew : holdsSlot m (update opens opened ⟨clientID, request, .check⟩) opened =
      false := by
    simp [holdsSlot, OpenPc.reserved, OpenPc.inserted]
  constructor
  · exact hb.cfg
  · rw [hb.total, heldTotal, heldTotal, sum_range_succ, hnew]
    have hsum : ∀ j ∈ Finset.range opened, weight (holdsSlot m opens j) = weight
        (holdsSlot m (update opens opened ⟨clientID, request, .check⟩) j) :=
      fun j hj => by simp only [holdsSlot, hold j hj]
    rw [sum_congr rfl hsum]
    simp [weight]
  · intro c
    rw [hb.client, held, held, sum_range_succ, hnew]
    have hsum : ∀ j ∈ Finset.range opened, weight ((opens j).clientID = c && holdsSlot m opens j) =
        weight ((update opens opened ⟨clientID, request, .check⟩ j).clientID = c &&
          holdsSlot m (update opens opened ⟨clientID, request, .check⟩) j) :=
      fun j hj => by simp only [holdsSlot, hold j hj]
    rw [sum_congr rfl hsum]
    simp [weight]
  · exact hb.maxTotal
  · exact hb.maxClient

theorem step_balanced (hl : l.InOrder) (hfresh : l.FreshIDs label) (h : l.step label = some l')
    (hb : Balanced limits l.manager l.opens l.opened) :
    Balanced limits l'.manager l'.opens l'.opened := by
  have hrule := hl.step_rule (P := Balanced limits) hfresh h hb
  refine (hrule ?_ ?_ ?_ ?_ ?_ ?_ ?_ ?_).2
  · exact fun clientID request => hb.openCall
  · exact fun k ok raw m pc hmove => hb.openMove hl.sound hmove
  · exact fun k g step m₁ m₂ _ hk hm hb₁ hmoves => hb₁.connMoves hm hk hmoves
  · exact fun k m hstep => hb.onClosedStep hl.sound hstep
  · exact fun m clientID n now hb₁ => ⟨hb₁.cfg, hb₁.total, hb₁.client, hb₁.maxTotal, hb₁.maxClient⟩
  · exact fun m k now hb₁ => hb₁.of_onClosed rfl fun j => (m.note_fields k j now).2.2.2
  · intro m m' connID now hb₁ htouch
    obtain ⟨r, -, rfl⟩ := Option.map_eq_some_iff.mp htouch
    exact ⟨hb₁.cfg, hb₁.total, hb₁.client, hb₁.maxTotal, hb₁.maxClient⟩
  · exact fun _ _ _ => ⟨hb.cfg, hb.total, hb.client, hb.maxTotal, hb.maxClient⟩

theorem path_balanced {cfg : ManagerConfig} {labels : List LaneStep}
    (hpath : Path step FreshIDs (new cfg limits) labels l) :
    l.InOrder ∧ Balanced limits l.manager l.opens l.opened := by
  have hkeep : ∀ (s : Lane) a t, (s.InOrder ∧ Balanced limits s.manager s.opens s.opened) →
      s.FreshIDs a → s.step a = some t →
      t.InOrder ∧ Balanced limits t.manager t.opens t.opened :=
    fun s a t hs hfresh hstep =>
      ⟨step_inOrder hs.1 hfresh hstep, step_balanced hs.1 hfresh hstep hs.2⟩
  have hinv := Path.invariant hkeep hpath ⟨new_inOrder cfg limits, new_balanced cfg limits⟩
  exact hinv

end Lane
end VlfProto.Relay
