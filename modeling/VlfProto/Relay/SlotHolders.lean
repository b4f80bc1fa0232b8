import VlfProto.Relay.SlotConservation

/-! # No relay slot is leaked or released twice -/

namespace VlfProto.Relay
open Platform Transition Finset Finmap

namespace Lane

variable {l : Lane} {limits : Limits.Config} {client : Bytes}

def tabled (l : Lane) (client : Bytes) : Finset Bytes :=
  l.manager.conns.keys.filter fun connID =>
    (l.manager.conns.lookup connID).any fun k => (l.manager.relayConns k).clientID = client

/-- The `Open` calls of a client that have reserved a slot and neither inserted
their connection nor released the slot. -/
def reserving (l : Lane) (client : Bytes) : Finset ℕ :=
  (Finset.range l.opened).filter fun k =>
    (l.opens k).clientID = client ∧ (l.opens k).pc.reserved

/-- The connections of a client that have been taken out of the table and have not
released their slot. -/
def removing (l : Lane) (client : Bytes) : Finset ℕ :=
  (Finset.range l.opened).filter fun k => (l.opens k).clientID = client ∧
    (l.opens k).pc.inserted ∧ (l.manager.relayConns k).onClosed.running.isSome

/-- The positions of the connections of a client in the table. -/
def listed (l : Lane) (client : Bytes) : Finset ℕ :=
  (Finset.range l.opened).filter fun k => (l.opens k).clientID = client ∧
    (l.opens k).pc.inserted ∧ (l.manager.relayConns k).onClosed = .notCalled

theorem mem_tabled {connID : Bytes} : connID ∈ l.tabled client ↔ ∃ k,
    l.manager.conns.lookup connID = some k ∧ (l.manager.relayConns k).clientID = client := by
  simp only [tabled, mem_filter, mem_keys, Option.any_eq_true, decide_eq_true_eq]
  constructor
  · exact fun h => h.2
  · rintro ⟨k, hk, hclient⟩
    exact ⟨mem_of_lookup_eq_some hk, k, hk, hclient⟩

theorem tabled_eq_image (hm : Sound l.manager l.opens l.opened) (client : Bytes) :
    l.tabled client = (l.listed client).image fun k => (l.manager.relayConns k).id := by
  ext connID
  simp only [mem_tabled, listed, mem_image, mem_filter, mem_range]
  constructor
  · rintro ⟨k, hk, hclient⟩
    obtain ⟨hinserted, hid⟩ := hm.entry connID k hk
    have hlt : k < l.opened := hm.called k fun hnot => by
      simp [hnot, OpenPc.inserted] at hinserted
    have howner := hm.owner k (OpenPc.created_of_inserted hinserted)
    exact ⟨k, ⟨hlt, howner.symm.trans hclient, hinserted, hm.unlisted connID k hk⟩, hid⟩
  · rintro ⟨k, ⟨-, hclient, hinserted, hclosed⟩, rfl⟩
    exact ⟨k, hm.listed k hinserted hclosed,
      (hm.owner k (OpenPc.created_of_inserted hinserted)).trans hclient⟩

theorem card_tabled (hm : Sound l.manager l.opens l.opened) (client : Bytes) :
    (l.tabled client).card = (l.listed client).card := by
  rw [tabled_eq_image hm]
  apply card_image_of_injOn
  intro j hj k hk hid
  simp only [listed, coe_filter, Set.mem_ofPred_eq] at hj hk
  exact hm.distinct j k (OpenPc.created_of_inserted hj.2.2.1)
    (OpenPc.created_of_inserted hk.2.2.1) hid

theorem weight_holdsSlot (m : Manager) (opens : ℕ → OpenCall) (k : ℕ) (client : Bytes) :
    weight ((opens k).clientID = client && holdsSlot m opens k) =
      (if (opens k).clientID = client ∧ (opens k).pc.inserted ∧
        (m.relayConns k).onClosed = .notCalled then 1 else 0) +
      (if (opens k).clientID = client ∧ (opens k).pc.reserved then 1 else 0) +
      (if (opens k).clientID = client ∧ (opens k).pc.inserted ∧
        (m.relayConns k).onClosed.running.isSome then 1 else 0) := by
  by_cases hclient : (opens k).clientID = client
  · have hexclusive : (opens k).pc.reserved → (opens k).pc.inserted = false := by
      cases hpc : (opens k).pc <;> simp [OpenPc.reserved, OpenPc.inserted]
    cases hreserved : (opens k).pc.reserved with
    | true => simp [weight, holdsSlot, hclient, hreserved, hexclusive hreserved]
    | false =>
      cases hinserted : (opens k).pc.inserted with
      | false => simp [weight, holdsSlot, hclient, hreserved, hinserted]
      | true =>
        cases hclosed : (m.relayConns k).onClosed <;>
          simp [weight, holdsSlot, hclient, hreserved, hinserted, hclosed, OnClosedPc.running]
  · simp [weight, hclient]

theorem held_eq_holders (hm : Sound l.manager l.opens l.opened) (client : Bytes) :
    held l.manager l.opens l.opened client = (l.tabled client).card +
      (l.reserving client).card + (l.removing client).card := by
  rw [card_tabled hm, held, sum_congr rfl fun k _ => weight_holdsSlot _ _ k client,
    sum_add_distrib, sum_add_distrib, sum_boole, sum_boole,
    sum_boole]
  rfl

theorem heldTotal_eq_sum (hb : Balanced limits l.manager l.opens l.opened) :
    heldTotal l.manager l.opens l.opened =
      ∑ client ∈ l.manager.limits.relayConnsByClient.keys,
        held l.manager l.opens l.opened client := by
  unfold heldTotal held
  rw [sum_comm]
  apply sum_congr rfl
  intro k hk
  cases hholds : holdsSlot l.manager l.opens k with
  | false => simp [weight]
  | true =>
    have hpos := held_pos (mem_range.mp hk) hholds
    have hmem : (l.opens k).clientID ∈ l.manager.limits.relayConnsByClient.keys := by
      rw [← hb.client, Limits.Manager.relayConns] at hpos
      rw [mem_keys]
      by_contra hnot
      simp [lookup_eq_none.mpr hnot] at hpos
    simp [weight, hmem]

/-- The slots counted for a client are its connections in the table, its `Open` calls between
reservation and insertion, and its connections between removal and release; the total is the sum
over the clients; and neither exceeds a positive maximum. -/
theorem slots_conserved {cfg : ManagerConfig} {labels : List LaneStep}
    (hpath : Path step FreshIDs (new cfg limits) labels l) :
    (∀ client, l.manager.limits.relayConns client = (l.tabled client).card +
      (l.reserving client).card + (l.removing client).card) ∧
    l.manager.limits.totalRelayConns =
      ∑ client ∈ l.manager.limits.relayConnsByClient.keys, l.manager.limits.relayConns client ∧
    (0 < limits.maxTotalConns → l.manager.limits.totalRelayConns ≤ limits.maxTotalConns) ∧
    (0 < limits.maxConnsPerClient →
      ∀ client, l.manager.limits.relayConns client ≤ limits.maxConnsPerClient) := by
  obtain ⟨hl, hb⟩ := path_balanced hpath
  refine ⟨fun client => ?_, ?_, hb.maxTotal, fun hpos client => hb.maxClient client hpos⟩
  · rw [hb.client, held_eq_holders hl.sound]
  · rw [hb.total, heldTotal_eq_sum hb]
    exact sum_congr rfl fun client _ => (hb.client client).symm

/-- At most one connection for each client and two in total. -/
def twoSlots : Limits.Config := ⟨1, 2, 0, 0, 0⟩

/-- A client closes its connection, which has just been taken out of the table;
another client is about to dial. -/
def closingRun : List LaneStep :=
  openRun 0 (ascii "a") 0 ++ [.call 2 (ascii "a") (plainID 0) .close] ++
    List.replicate 8 (.caller 2 0) ++ List.replicate 2 (.reader 0 [] none 0) ++
    List.replicate 2 (.writer 0 false 0 0) ++ List.replicate 2 (.caller 2 0) ++
    (openRun 1 (ascii "b") 1).take 3

theorem closingRun_conserved : ∃ l, Path step FreshIDs (new plainConfig twoSlots) closingRun l ∧
    (l.removing (ascii "a")).card = 1 ∧ (l.reserving (ascii "b")).card = 1 ∧
    l.manager.limits.relayConns (ascii "a") = (l.tabled (ascii "a")).card +
      (l.reserving (ascii "a")).card + (l.removing (ascii "a")).card ∧
    l.manager.limits.totalRelayConns = 2 ∧
    l.manager.limits.totalRelayConns ≤ twoSlots.maxTotalConns := by
  refine Path.exists_of_run_imp (P := fun l => (l.removing (ascii "a")).card = 1 ∧
      (l.reserving (ascii "b")).card = 1 ∧ l.manager.limits.totalRelayConns = 2)
    (by decide +kernel) fun l hpath ⟨hremoving, hreserving, htotal⟩ => ?_
  obtain ⟨hclient, -, hmax, -⟩ := slots_conserved hpath
  exact ⟨hremoving, hreserving, hclient (ascii "a"), htotal, hmax (by decide)⟩

end Lane
end VlfProto.Relay
