import VlfProto.TunClient.Holders

/-! # The references of shared clients -/

namespace VlfProto.TunClient
open Platform Transition

theorem PolicyController.setClient_self {c : PolicyController} {i : ℕ} {mc : ManagedClient} :
    (c.setClient i mc).managed i = mc :=
  Function.update_self _ _ _

theorem PolicyController.setClient_of_ne {c : PolicyController} {i j : ℕ} {mc : ManagedClient}
    (h : j ≠ i) : (c.setClient i mc).managed j = c.managed j :=
  Function.update_of_ne h _ _

namespace ClientUse
open PolicyController

variable {s s' : ClientUse} {k i : ℕ} {pc : FlowPc} {close : Option ℕ} {key : String}

theorem Counted.move {flows : Table ℕ String} {nextFlowID : ℕ} (hs : s.Counted)
    (hk : k < s.flowCount) (hsame : ∀ i, FlowPc.SameFor i (s.flows k) pc)
    (hplain : pc.Plain := by simp [FlowPc.Plain]) :
    (s.goOn k { s.controller with flows := flows, nextFlowID := nextFlowID } none pc).Counted where
  unused := hs.unused_goOn hk
  plain := forall_goOn hs.plain hplain
  settled i := by
    refine SameFor.settled ?_ (hs.settled i)
    exact goOn_sameFor le_rfl rfl (fun _ => Iff.rfl) (hsame i)

theorem Counted.setRefs {mc : ManagedClient} (hs : s.Counted) (hk : k < s.flowCount)
    (hlookup : s.controller.clients.lookup key = some i)
    (hsame : ∀ l, l ≠ i → FlowPc.SameFor l (s.flows k) (close.elim pc (.close · pc)))
    (hkey : mc.key = key) (hopened : mc.closed = false) (hused : mc.broken → mc.refCount ≠ 0)
    (hrefs : mc.refCount + (s.flows k).holds i =
      (s.controller.managed i).refCount + pc.holds i)
    (hheld : ∀ key', pc.held = some (key', i) → key' = key)
    (haside : ¬(close.elim pc (.close · pc)).Aside i)
    (hplain : (close.elim pc (.close · pc)).Plain) :
    (s.goOn k (s.controller.setClient i mc) close pc).Counted := by
  have hi := hs.settled i
  have hself : (s.controller.setClient i mc).managed i = mc := setClient_self
  refine hs.goOn hk i le_rfl (fun l hl => setClient_of_ne hl) (fun _ _ _ => Iff.rfl) hsame
    hplain ?_
  refine settled_of_lookup (hi.lookup_iff hlookup) ?_ (hi.key key hlookup).2 ?_ ?_ ?_
    (fun j key' => ?_) (forall_goOn (P := fun pc => ¬pc.Aside i) (hi.not_aside hlookup) haside)
  · exact (congrArg ManagedClient.key hself).trans hkey
  · have hsum : (s.goOn k (s.controller.setClient i mc) close pc).holders i +
        (s.flows k).holds i = s.holders i + pc.holds i := holders_goOn hk i
    rw [hi.refs key hlookup] at hrefs
    have hcount := congrArg ManagedClient.refCount hself
    change ((s.controller.setClient i mc).managed i).refCount = _
    omega
  · exact (congrArg ManagedClient.closed hself).trans hopened
  · change ((s.controller.setClient i mc).managed i).broken →
      ((s.controller.setClient i mc).managed i).refCount ≠ 0
    rw [hself]
    exact hused
  · revert key'
    refine forall_goOn (P := fun pc => ∀ key', pc.held = some (key', i) → key' = key)
      (fun j => hi.held_key hlookup j) ?_ j
    rw [FlowPc.held_elim]
    exact hheld

theorem Counted.dial (hs : s.Counted) (hk : k < s.flowCount) (hpc : s.flows k = .dial key) :
    (s.goOn k (s.controller.dial key) none (.store key s.controller.dialed)).Counted := by
  have hi := hs.settled s.controller.dialed
  have hgone : s.Gone s.controller.dialed := fun key h => (hi.key key h).2.false
  have hnone : ∀ j, ¬(s.flows j).Aside s.controller.dialed := fun j h => (hi.aside j h).1.false
  have hself : (s.controller.dial key).managed s.controller.dialed = ⟨key, 0, false, false⟩ :=
    setClient_self
  have haside : ∀ j, ((s.goOn k (s.controller.dial key) none
      (.store key s.controller.dialed)).flows j).Aside s.controller.dialed → j = k := by
    intro j h
    by_contra hj
    rw [goOn_flows_of_ne hj] at h
    exact hnone j h
  refine hs.goOn hk s.controller.dialed (Nat.le_succ _) (fun l hl => setClient_of_ne hl)
    (fun _ _ _ => Iff.rfl) (fun l hl => ?_) nofun ?_
  · rw [hpc]
    simpa [FlowPc.sameFor_iff, FlowPc.held, FlowPc.Closes, FlowPc.Aside] using hl.symm
  · refine settled_of_gone hgone (congrArg ManagedClient.refCount hself) (fun h => ?_)
      (forall_goOn (P := fun pc => ∀ key, pc.held ≠ some (key, s.controller.dialed))
        (hi.not_held hgone) nofun)
      (fun _ _ => Nat.lt_succ_self _) (fun j l hj hl => (haside j hj).trans (haside l hl).symm)
      fun j key' h => ?_
    · have hbroken := congrArg ManagedClient.broken hself
      exact absurd (h.symm.trans hbroken) (by simp)
    · obtain rfl := haside j (by rw [h]; rfl)
      rw [goOn_flows_self] at h
      cases h
      exact hself

theorem Counted.store (hs : s.Counted) (hk : k < s.flowCount) (hpc : s.flows k = .store key i)
    (hnone : s.controller.clients.lookup key = none) :
    (s.goOn k (s.controller.store key i) none (.holding key i)).Counted := by
  have hi := hs.settled i
  have haside : (s.flows k).Aside i := by rw [hpc]; rfl
  obtain ⟨hlt, hgone⟩ := hi.aside k haside
  have hself : (s.controller.store key i).managed i = ⟨key, 1, false, false⟩ := by
    refine setClient_self.trans ?_
    rw [hi.storing k key hpc]
  have hlookup : ∀ key', (s.controller.store key i).clients.lookup key' =
      if key' = key then some i else s.controller.clients.lookup key' :=
    fun key' => Table.lookup_insert_eq _ _ _ _
  refine hs.goOn hk i le_rfl (fun l hl => setClient_of_ne hl) (fun l hl key' => ?_)
    (fun l hl => ?_) nofun ?_
  · by_cases heq : key' = key
    · rw [hlookup, if_pos heq, heq, hnone]
      simp [hl.symm]
    · rw [hlookup, if_neg heq]
  · rw [hpc]
    simpa [FlowPc.sameFor_iff, FlowPc.held, FlowPc.Closes, FlowPc.Aside] using hl.symm
  · have hholds : (FlowPc.holding key i).holds i = 1 := FlowPc.holds_eq_one rfl
    have hsum : (s.goOn k (s.controller.store key i) none (.holding key i)).holders i +
        (s.flows k).holds i = s.holders i + (FlowPc.holding key i).holds i := holders_goOn hk i
    rw [holders_eq_zero (hi.not_held hgone), hpc, FlowPc.holds_eq_zero rfl, hholds] at hsum
    refine settled_of_lookup (fun key' => ?_) (congrArg ManagedClient.key hself) hlt
      ((congrArg ManagedClient.refCount hself).trans hsum.symm)
      (congrArg ManagedClient.closed hself) (fun hbroken => ?_) ?_ fun j h => ?_
    · change (s.controller.store key i).clients.lookup key' = some i ↔ key' = key
      by_cases heq : key' = key
      · rw [hlookup, if_pos heq]
        simp [heq]
      · rw [hlookup, if_neg heq]
        simp [heq, hgone key']
    · exact absurd (hbroken.symm.trans (congrArg ManagedClient.broken hself)) (by simp)
    · refine forall_goOn (P := fun pc => ∀ key', pc.held = some (key', i) → key' = key)
        (fun j key' h => absurd h (hi.not_held hgone j key')) ?_
      rintro key' ⟨⟩
      rfl
    · by_cases hj : j = k
      · rw [hj, goOn_flows_self] at h
        cases h
      · rw [goOn_flows_of_ne hj] at h
        exact hj (hi.apart j k h haside)

/-- The controller gives up a client that nobody holds, and the flow goes on to close it. -/
theorem Counted.retire {mc : ManagedClient} (hs : s.Counted) (hk : k < s.flowCount)
    (hlookup : s.controller.clients.lookup key = some i)
    (hsame : ∀ l, l ≠ i → FlowPc.SameFor l (s.flows k) (.close i pc))
    (hfree : mc.refCount = 0)
    (hrefs : (s.flows k).holds i = (s.controller.managed i).refCount + pc.holds i)
    (hplain : ∀ l, ¬pc.Aside l) :
    (s.goOn k ((s.controller.setClient i mc).drop key) (some i) pc).Counted := by
  have hi := hs.settled i
  have hself : ((s.controller.setClient i mc).drop key).managed i = mc := setClient_self
  have herase : ∀ key', ((s.controller.setClient i mc).drop key).clients.lookup key' =
      if key' = key then none else s.controller.clients.lookup key' :=
    fun key' => Table.lookup_erase_eq _ _ _
  have haside : ∀ j, ((s.goOn k ((s.controller.setClient i mc).drop key) (some i) pc).flows
      j).Aside i → j = k := by
    intro j h
    by_contra hj
    rw [goOn_flows_of_ne hj] at h
    exact hi.not_aside hlookup j h
  have hsum : (s.goOn k ((s.controller.setClient i mc).drop key) (some i) pc).holders i +
      (s.flows k).holds i = s.holders i + pc.holds i := holders_goOn hk i
  rw [hrefs, hi.refs key hlookup] at hsum
  refine hs.goOn hk i le_rfl (fun l hl => setClient_of_ne hl) (fun l hl key' => ?_) hsame ?_ ?_
  · by_cases heq : key' = key
    · rw [herase, if_pos heq, heq, hlookup]
      simp [hl.symm]
    · rw [herase, if_neg heq]
  · rintro j next ⟨⟩
    exact hplain
  · refine settled_of_gone (fun key' h => ?_) ((congrArg ManagedClient.refCount hself).trans hfree)
      (fun _ => .inr ⟨k, hk, ?_⟩) (fun j key' h => ?_) (fun _ _ => (hi.key key hlookup).2)
      (fun j l hj hl => (haside j hj).trans (haside l hl).symm) fun j key' h => ?_
    · change ((s.controller.setClient i mc).drop key).clients.lookup key' = some i at h
      rw [herase] at h
      split_ifs at h with heq
      exact heq ((hi.lookup_iff hlookup key').mp h)
    · rw [goOn_flows_self]
      exact .inl rfl
    · rcases Nat.lt_or_ge j s.flowCount with hlt | hge
      · have hpos : 0 < (s.goOn k ((s.controller.setClient i mc).drop key) (some i) pc).holders i :=
          holders_pos hlt h
        omega
      · rw [hs.unused_goOn hk j hge] at h
        cases h
    · obtain rfl := haside j (by rw [h]; rfl)
      rw [goOn_flows_self] at h
      cases h

theorem Counted.closeAside (hs : s.Counted) (hk : k < s.flowCount) (hpc : s.flows k = .close i pc) :
    (s.goOn k (s.controller.closeClient i) none pc).Counted := by
  have hi := hs.settled i
  have hplain := hs.plain k i pc hpc
  have haside : (s.flows k).Aside i := by rw [hpc]; exact .inl rfl
  obtain ⟨hlt, hgone⟩ := hi.aside k haside
  have hself : (s.controller.closeClient i).managed i =
      { s.controller.managed i with closed := true } := setClient_self
  have hnone : ∀ j, ¬((s.goOn k (s.controller.closeClient i) none pc).flows j).Aside i := by
    intro j h
    by_cases hj : j = k
    · rw [hj, goOn_flows_self] at h
      exact hplain i h
    · rw [goOn_flows_of_ne hj] at h
      exact hj (hi.apart j k h haside)
  refine hs.goOn hk i le_rfl (fun l hl => setClient_of_ne hl) (fun _ _ _ => Iff.rfl)
    (fun l hl => ?_) ?_ ?_
  · rw [hpc]
    refine ⟨fun _ => Iff.rfl, ?_, .inr, fun key (h : pc = .store key l) => ?_⟩
    · rintro (h | h)
      · exact absurd h.symm hl
      · exact h
    · exact absurd (h ▸ rfl) (hplain l)
  · rintro j next rfl
    exact absurd (.inl rfl) (hplain j)
  · refine settled_of_gone hgone ?_ (fun _ => .inl (congrArg ManagedClient.closed hself))
      (forall_goOn (P := fun pc => ∀ key, pc.held ≠ some (key, i)) (hi.not_held hgone) ?_)
      (fun j h => absurd h (hnone j)) (fun j _ h => absurd h (hnone j))
      fun j key' h => absurd (by rw [h]; rfl) (hnone j)
    · exact (congrArg ManagedClient.refCount hself).trans (hi.free hgone)
    · have hheld := hi.not_held hgone k
      rw [hpc] at hheld
      exact hheld

end ClientUse
end VlfProto.TunClient
