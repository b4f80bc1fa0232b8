import VlfProto.Platform.Counting
import VlfProto.TunClient.SharedClients

/-! # Who holds a shared client -/

namespace VlfProto.TunClient
open Platform Transition Finset

namespace FlowPc

def held : FlowPc → Option (String × ℕ)
  | .holding key i => some (key, i)
  | .registered _ key i => some (key, i)
  | .unregister _ key i => some (key, i)
  | .release key i => some (key, i)
  | .close _ next => next.held
  | _ => none

def holds (pc : FlowPc) (i : ℕ) : ℕ := if pc.held.map Prod.snd = some i then 1 else 0

/-- The flow is about to close client `i`. -/
def Closes : FlowPc → ℕ → Prop
  | .close j next, i => j = i ∨ next.Closes i
  | _, _ => False

/-- Client `i` is with the flow and not with the controller. -/
def Aside : FlowPc → ℕ → Prop
  | .store _ j, i => j = i
  | .close j next, i => j = i ∨ next.Aside i
  | _, _ => False

/-- A flow that is about to close a client has nothing else aside. -/
def Plain (pc : FlowPc) : Prop := ∀ j next, pc = .close j next → ∀ i, ¬next.Aside i

theorem holds_eq_one {pc : FlowPc} {key : String} {i : ℕ} (h : pc.held = some (key, i)) :
    pc.holds i = 1 := by
  simp [holds, h]

theorem holds_eq_zero {pc : FlowPc} (h : pc.held = none) (i : ℕ) : pc.holds i = 0 := by
  simp [holds, h]

theorem held_elim (close : Option ℕ) (pc : FlowPc) :
    (close.elim pc (.close · pc)).held = pc.held := by
  cases close <;> rfl

/-- A flow goes on as it was as far as client `i` is concerned, or turns from storing the
client to closing it. -/
@[mk_iff]
structure SameFor (i : ℕ) (pc pc' : FlowPc) : Prop where
  held : ∀ key, pc'.held = some (key, i) ↔ pc.held = some (key, i)
  closes : pc.Closes i → pc'.Closes i
  aside : pc'.Aside i → pc.Aside i
  store : ∀ key, pc' = .store key i → pc = .store key i

theorem SameFor.holds {i : ℕ} {pc pc' : FlowPc} (h : SameFor i pc pc') :
    pc'.holds i = pc.holds i := by
  have hiff : pc'.held.map Prod.snd = some i ↔ pc.held.map Prod.snd = some i := by
    simp only [Option.map_eq_some_iff, Prod.exists, exists_eq_right]
    exact exists_congr h.held
  simp only [FlowPc.holds, hiff]

end FlowPc

namespace ClientUse

variable {s : ClientUse} {c : PolicyController} {k j i : ℕ} {pc : FlowPc} {close : Option ℕ}
  {key : String}

def holders (s : ClientUse) (i : ℕ) : ℕ := ∑ k ∈ Finset.range s.flowCount, (s.flows k).holds i

theorem holders_goOn (hk : k < s.flowCount) (i : ℕ) :
    (s.goOn k c close pc).holders i + (s.flows k).holds i = s.holders i + pc.holds i := by
  have hsum := sum_range_update (fun pc : FlowPc => pc.holds i) s.flows
    (close.elim pc (.close · pc)) hk
  have hheld : (close.elim pc (.close · pc)).holds i = pc.holds i := by
    rw [FlowPc.holds, FlowPc.held_elim]
    rfl
  rwa [hheld] at hsum

theorem holders_pos (hk : k < s.flowCount) (h : (s.flows k).held = some (key, i)) :
    0 < s.holders i := by
  have hle := single_le_sum (f := fun k => (s.flows k).holds i)
    (fun _ _ => Nat.zero_le _) (mem_range.mpr hk)
  rw [FlowPc.holds_eq_one h] at hle
  exact hle

theorem holders_eq_zero (h : ∀ k key, (s.flows k).held ≠ some (key, i)) : s.holders i = 0 := by
  refine sum_eq_zero fun k _ => if_neg fun hheld => ?_
  obtain ⟨⟨key, j⟩, hj, rfl⟩ := Option.map_eq_some_iff.mp hheld
  exact h k key hj

theorem goOn_flows_self : (s.goOn k c close pc).flows k = close.elim pc (.close · pc) :=
  Function.update_self _ _ _

theorem goOn_flows_of_ne (h : j ≠ k) : (s.goOn k c close pc).flows j = s.flows j :=
  Function.update_of_ne h _ _

theorem forall_goOn {P : FlowPc → Prop} (hs : ∀ j, P (s.flows j))
    (hk : P (close.elim pc (.close · pc))) (j : ℕ) : P ((s.goOn k c close pc).flows j) := by
  by_cases hj : j = k
  · subst hj
    rwa [goOn_flows_self]
  · rw [goOn_flows_of_ne hj]
    exact hs j

def Gone (s : ClientUse) (i : ℕ) : Prop := ∀ key, s.controller.clients.lookup key ≠ some i

/-- While the controller has client `i`, it is open, its references are the flows that hold it,
and a broken one has some; when the controller has it no more, it has no references and is
closed if it was broken, or about to be. -/
structure Settled (s : ClientUse) (i : ℕ) : Prop where
  key : ∀ key, s.controller.clients.lookup key = some i →
    (s.controller.managed i).key = key ∧ i < s.controller.dialed
  refs : ∀ key, s.controller.clients.lookup key = some i →
    (s.controller.managed i).refCount = s.holders i
  opened : ∀ key, s.controller.clients.lookup key = some i →
    (s.controller.managed i).closed = false
  used : ∀ key, s.controller.clients.lookup key = some i →
    (s.controller.managed i).broken → (s.controller.managed i).refCount ≠ 0
  held : ∀ k key, (s.flows k).held = some (key, i) → s.controller.clients.lookup key = some i
  free : s.Gone i → (s.controller.managed i).refCount = 0
  closed : s.Gone i → (s.controller.managed i).broken →
    (s.controller.managed i).closed ∨ ∃ k < s.flowCount, (s.flows k).Closes i
  aside : ∀ k, (s.flows k).Aside i → i < s.controller.dialed ∧ s.Gone i
  apart : ∀ j k, (s.flows j).Aside i → (s.flows k).Aside i → j = k
  storing : ∀ k key, s.flows k = .store key i →
    s.controller.managed i = ⟨key, 0, false, false⟩

structure Counted (s : ClientUse) : Prop where
  unused : ∀ k, s.flowCount ≤ k → s.flows k = .idle
  plain : ∀ k, (s.flows k).Plain
  settled : ∀ i, s.Settled i

theorem new_counted (flowCount : ℕ) : (new flowCount).Counted where
  unused _ _ := rfl
  plain _ _ _ h := by cases h
  settled i := by
    have hnone : ∀ key, (new flowCount).controller.clients.lookup key ≠ some i := by
      simp [new, PolicyController.new]
    exact ⟨fun key h => absurd h (hnone key), fun key h => absurd h (hnone key),
      fun key h => absurd h (hnone key), fun key h => absurd h (hnone key), nofun, fun _ => rfl,
      nofun, nofun, nofun, nofun⟩

theorem Settled.lookup_iff (hs : s.Settled i)
    (h : s.controller.clients.lookup key = some i) (key' : String) :
    s.controller.clients.lookup key' = some i ↔ key' = key :=
  ⟨fun h' => (hs.key key' h').1.symm.trans (hs.key key h).1, fun heq => heq ▸ h⟩

theorem Settled.held_key (hs : s.Settled i) (h : s.controller.clients.lookup key = some i)
    (k : ℕ) (key' : String) (hheld : (s.flows k).held = some (key', i)) : key' = key :=
  (hs.lookup_iff h key').mp (hs.held k key' hheld)

theorem Settled.not_aside (hs : s.Settled i) (h : s.controller.clients.lookup key = some i)
    (k : ℕ) : ¬(s.flows k).Aside i :=
  fun haside => (hs.aside k haside).2 key h

theorem Settled.not_held (hs : s.Settled i) (hgone : s.Gone i) (k : ℕ) (key : String) :
    (s.flows k).held ≠ some (key, i) :=
  fun h => hgone key (hs.held k key h)

theorem settled_of_lookup
    (hlookup : ∀ key', s.controller.clients.lookup key' = some i ↔ key' = key)
    (hkey : (s.controller.managed i).key = key) (hlt : i < s.controller.dialed)
    (hrefs : (s.controller.managed i).refCount = s.holders i)
    (hopened : (s.controller.managed i).closed = false)
    (hused : (s.controller.managed i).broken → (s.controller.managed i).refCount ≠ 0)
    (hheld : ∀ k key', (s.flows k).held = some (key', i) → key' = key)
    (haside : ∀ k, ¬(s.flows k).Aside i) : s.Settled i where
  key key' h := ⟨hkey.trans ((hlookup key').mp h).symm, hlt⟩
  refs _ _ := hrefs
  opened _ _ := hopened
  used _ _ := hused
  held k key' h := (hlookup key').mpr (hheld k key' h)
  free hgone := absurd ((hlookup key).mpr rfl) (hgone key)
  closed hgone := absurd ((hlookup key).mpr rfl) (hgone key)
  aside k h := absurd h (haside k)
  apart j _ h := absurd h (haside j)
  storing k key' h := absurd (by rw [h]; rfl) (haside k)

theorem settled_of_gone (hgone : s.Gone i) (hfree : (s.controller.managed i).refCount = 0)
    (hclosed : (s.controller.managed i).broken →
      (s.controller.managed i).closed ∨ ∃ k < s.flowCount, (s.flows k).Closes i)
    (hheld : ∀ k key, (s.flows k).held ≠ some (key, i))
    (haside : ∀ k, (s.flows k).Aside i → i < s.controller.dialed)
    (hapart : ∀ j k, (s.flows j).Aside i → (s.flows k).Aside i → j = k)
    (hstoring : ∀ k key, s.flows k = .store key i →
      s.controller.managed i = ⟨key, 0, false, false⟩) : s.Settled i where
  key key h := absurd h (hgone key)
  refs key h := absurd h (hgone key)
  opened key h := absurd h (hgone key)
  used key h := absurd h (hgone key)
  held k key h := absurd h (hheld k key)
  free _ := hfree
  closed _ := hclosed
  aside k h := ⟨haside k h, hgone⟩
  apart := hapart
  storing := hstoring

/-- A step does not concern client `i`. -/
structure SameFor (i : ℕ) (s s' : ClientUse) : Prop where
  flowCount : s'.flowCount = s.flowCount
  dialed : s.controller.dialed ≤ s'.controller.dialed
  managed : s'.controller.managed i = s.controller.managed i
  lookup : ∀ key, s'.controller.clients.lookup key = some i ↔
    s.controller.clients.lookup key = some i
  flows : ∀ k, FlowPc.SameFor i (s.flows k) (s'.flows k)

theorem SameFor.settled {s' : ClientUse} (h : SameFor i s s') (hs : s.Settled i) :
    s'.Settled i := by
  have hholders : s'.holders i = s.holders i := by
    rw [holders, h.flowCount]
    exact sum_congr rfl fun k _ => (h.flows k).holds
  have hgone : s'.Gone i → s.Gone i := fun hgone key hkey => hgone key ((h.lookup key).mpr hkey)
  have hgone' : s.Gone i → s'.Gone i := fun hgone key hkey => hgone key ((h.lookup key).mp hkey)
  refine ⟨fun key hkey => ?_, fun key hkey => ?_, fun key hkey => ?_, fun key hkey => ?_,
    fun k key hheld => ?_, fun hg => ?_, fun hg => ?_, fun k haside => ?_, fun j k hj hk => ?_,
    fun k key hstore => ?_⟩
  · rw [h.managed]
    have hkey := hs.key key ((h.lookup key).mp hkey)
    exact ⟨hkey.1, hkey.2.trans_le h.dialed⟩
  · rw [h.managed, hholders]
    exact hs.refs key ((h.lookup key).mp hkey)
  · rw [h.managed]
    exact hs.opened key ((h.lookup key).mp hkey)
  · rw [h.managed]
    exact hs.used key ((h.lookup key).mp hkey)
  · exact (h.lookup key).mpr (hs.held k key (((h.flows k).held key).mp hheld))
  · rw [h.managed]
    exact hs.free (hgone hg)
  · rw [h.managed, h.flowCount]
    refine fun hbroken => (hs.closed (hgone hg) hbroken).imp_right ?_
    rintro ⟨k, hk, hcloses⟩
    exact ⟨k, hk, (h.flows k).closes hcloses⟩
  · have haside := hs.aside k ((h.flows k).aside haside)
    exact ⟨haside.1.trans_le h.dialed, hgone' haside.2⟩
  · exact hs.apart j k ((h.flows j).aside hj) ((h.flows k).aside hk)
  · rw [h.managed]
    exact hs.storing k key ((h.flows k).store key hstore)

theorem goOn_sameFor (hdialed : s.controller.dialed ≤ c.dialed)
    (hmanaged : c.managed i = s.controller.managed i)
    (hlookup : ∀ key, c.clients.lookup key = some i ↔ s.controller.clients.lookup key = some i)
    (hflow : FlowPc.SameFor i (s.flows k) (close.elim pc (.close · pc))) :
    SameFor i s (s.goOn k c close pc) := by
  refine ⟨rfl, hdialed, hmanaged, hlookup, fun j => ?_⟩
  by_cases hj : j = k
  · subst hj
    rwa [goOn_flows_self]
  · rw [goOn_flows_of_ne hj]
    exact ⟨fun _ => Iff.rfl, id, id, fun _ => id⟩

theorem Counted.unused_goOn (hs : s.Counted) (hk : k < s.flowCount) (j : ℕ)
    (hj : s.flowCount ≤ j) : (s.goOn k c close pc).flows j = .idle := by
  rw [goOn_flows_of_ne (hk.trans_le hj).ne']
  exact hs.unused j hj

/-- A step of flow `k` keeps what is known of the clients, if it does so for the one that
it concerns. -/
theorem Counted.goOn (hs : s.Counted) (hk : k < s.flowCount) (i : ℕ)
    (hdialed : s.controller.dialed ≤ c.dialed)
    (hmanaged : ∀ l, l ≠ i → c.managed l = s.controller.managed l)
    (hlookup : ∀ l, l ≠ i → ∀ key, c.clients.lookup key = some l ↔
      s.controller.clients.lookup key = some l)
    (hflow : ∀ l, l ≠ i → FlowPc.SameFor l (s.flows k) (close.elim pc (.close · pc)))
    (hplain : (close.elim pc (.close · pc)).Plain)
    (hi : (s.goOn k c close pc).Settled i) : (s.goOn k c close pc).Counted where
  unused := hs.unused_goOn hk
  plain := forall_goOn hs.plain hplain
  settled l := by
    by_cases hl : l = i
    · exact hl ▸ hi
    · exact (goOn_sameFor hdialed (hmanaged l hl) (hlookup l hl) (hflow l hl)).settled
        (hs.settled l)

end ClientUse
end VlfProto.TunClient
