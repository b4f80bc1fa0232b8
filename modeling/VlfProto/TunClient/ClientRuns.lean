import VlfProto.TunClient.RefCounts

/-! # Runs of flows that share clients -/

namespace VlfProto.TunClient
open Platform Transition Option

namespace ClientUse
open PolicyController

variable {s s' : ClientUse} {k i : ℕ} {pc : FlowPc} {close : Option ℕ} {key : String}
  {c : PolicyController}

def registration : FlowPc → Option (ℕ × String)
  | .registered id key _ => some (id, key)
  | .unregister id key _ => some (id, key)
  | .close _ next => registration next
  | _ => none

/-- The controller has each registered flow, under an id of its own. -/
structure Registered (s : ClientUse) : Prop where
  flows : ∀ k id key, registration (s.flows k) = some (id, key) →
    s.controller.flows.lookup id = some key ∧ id ≤ s.controller.nextFlowID
  apart : ∀ j k id key key', registration (s.flows j) = some (id, key) →
    registration (s.flows k) = some (id, key') → j = k

theorem new_registered (flowCount : ℕ) : (new flowCount).Registered where
  flows _ _ _ h := by cases h
  apart _ _ _ _ _ h := by cases h

theorem registration_elim : registration (close.elim pc (.close · pc)) = registration pc := by
  cases close <;> rfl

/-- The registration of flow `k` is the one that it had, or there is none. -/
theorem Registered.goOn (hs : s.Registered)
    (hflows : ∀ j, j ≠ k → ∀ id key, registration (s.flows j) = some (id, key) →
      c.flows.lookup id = some key)
    (hnext : s.controller.nextFlowID ≤ c.nextFlowID)
    (hk : ∀ id key, registration pc = some (id, key) →
      registration (s.flows k) = some (id, key) ∧ c.flows.lookup id = some key) :
    (s.goOn k c close pc).Registered := by
  have hold : ∀ j id key, registration ((s.goOn k c close pc).flows j) = some (id, key) →
      registration (s.flows j) = some (id, key) ∧ c.flows.lookup id = some key := by
    intro j id key h
    by_cases hj : j = k
    · subst hj
      rw [goOn_flows_self, registration_elim] at h
      exact hk id key h
    · rw [goOn_flows_of_ne hj] at h
      exact ⟨h, hflows j hj id key h⟩
  refine ⟨fun j id key h => ?_, fun j l id key key' hj hl => ?_⟩
  · obtain ⟨hreg, hlookup⟩ := hold j id key h
    exact ⟨hlookup, (hs.flows j id key hreg).2.trans hnext⟩
  · exact hs.apart j l id key key' (hold j id key hj).1 (hold l id key' hl).1

theorem Registered.register (hs : s.Registered) :
    (s.goOn k (s.controller.registerFlow key) none
      (.registered (s.controller.nextFlowID + 1) key i)).Registered := by
  have hlookup : ∀ id, (s.controller.registerFlow key).flows.lookup id =
      if id = s.controller.nextFlowID + 1 then some key else s.controller.flows.lookup id :=
    fun id => Table.lookup_insert_eq _ _ _ _
  have hcases : ∀ j id key', registration ((s.goOn k (s.controller.registerFlow key) none
      (.registered (s.controller.nextFlowID + 1) key i)).flows j) = some (id, key') →
      (j = k ∧ id = s.controller.nextFlowID + 1 ∧ key' = key) ∨
      (j ≠ k ∧ registration (s.flows j) = some (id, key') ∧ id ≤ s.controller.nextFlowID) := by
    intro j id key' h
    by_cases hj : j = k
    · rw [hj, goOn_flows_self] at h
      cases h
      exact .inl ⟨hj, rfl, rfl⟩
    · rw [goOn_flows_of_ne hj] at h
      exact .inr ⟨hj, h, (hs.flows j id key' h).2⟩
  refine ⟨fun j id key' h => ?_, fun j l id key₁ key₂ hj hl => ?_⟩
  · change (s.controller.registerFlow key).flows.lookup id = some key' ∧
      id ≤ s.controller.nextFlowID + 1
    rw [hlookup]
    rcases hcases j id key' h with ⟨-, rfl, rfl⟩ | ⟨-, hreg, hle⟩
    · exact ⟨if_pos rfl, le_rfl⟩
    · exact ⟨(if_neg (by omega)).trans (hs.flows j id key' hreg).1, by omega⟩
  · rcases hcases j id key₁ hj with ⟨rfl, hid, -⟩ | ⟨-, hreg, hle⟩ <;>
      rcases hcases l id key₂ hl with ⟨rfl, hid', -⟩ | ⟨-, hreg', hle'⟩
    · rfl
    · omega
    · omega
    · exact hs.apart j l id key₁ key₂ hreg hreg'

def keyOf : FlowPc → Option String
  | .idle => none
  | .acquire key => some key
  | .dial key => some key
  | .store key _ => some key
  | .holding key _ => some key
  | .registered _ key _ => some key
  | .unregister _ key _ => some key
  | .release key _ => some key
  | .close _ next => keyOf next

structure Kept (s : ClientUse) : Prop where
  counted : s.Counted
  registered : s.Registered
  named : ∀ k key, keyOf (s.flows k) = some key → key ≠ ""

theorem new_kept (flowCount : ℕ) : (new flowCount).Kept :=
  ⟨new_counted flowCount, new_registered flowCount, nofun⟩

theorem Kept.goOn (hs : s.Kept) (hcounted : (s.goOn k c close pc).Counted)
    (hflows : c.flows = s.controller.flows) (hnext : c.nextFlowID = s.controller.nextFlowID)
    (hkey : ∀ key, keyOf pc = some key → keyOf (s.flows k) = some key ∨ key ≠ "" := by simp [keyOf])
    (hreg : ∀ r, registration pc = some r → registration (s.flows k) = some r := by
      simp [registration]) :
    (s.goOn k c close pc).Kept := by
  refine ⟨hcounted, hs.registered.goOn (fun j _ id key h => ?_) hnext.ge fun id key h => ?_,
    fun j key h => ?_⟩
  · rw [hflows]
    exact (hs.registered.flows j id key h).1
  · rw [hflows]
    exact ⟨hreg _ h, (hs.registered.flows k id key (hreg _ h)).1⟩
  · by_cases hj : j = k
    · rw [hj, goOn_flows_self] at h
      have h : keyOf pc = some key := by cases close <;> exact h
      exact (hkey key h).elim (hs.named k key) id
    · rw [goOn_flows_of_ne hj] at h
      exact hs.named j key h

theorem usable_eq_some : c.usable key = some i ↔
    c.clients.lookup key = some i ∧ (c.managed i).broken = false := by
  simp [usable, filter_eq_some_iff]

theorem Kept.move (hs : s.Kept) (hk : k < s.flowCount)
    (hsame : ∀ i, FlowPc.SameFor i (s.flows k) pc)
    (hkey : ∀ key, keyOf pc = some key → keyOf (s.flows k) = some key ∨ key ≠ "" := by simp [keyOf])
    (hplain : pc.Plain := by simp [FlowPc.Plain])
    (hreg : ∀ r, registration pc = some r → registration (s.flows k) = some r := by
      simp [registration]) :
    (s.goOn k s.controller none pc).Kept :=
  hs.goOn (hs.counted.move hk hsame hplain) rfl rfl hkey hreg

theorem Kept.addRef (hs : s.Kept) (hk : k < s.flowCount)
    (husable : s.controller.usable key = some i) (hnone : (s.flows k).held = none)
    (hkey : keyOf (s.flows k) = some key)
    (hsame : ∀ l, l ≠ i →
      FlowPc.SameFor l (s.flows k) (close.elim (.holding key i) (.close · (.holding key i))))
    (haside : close ≠ some i) :
    (s.goOn k (s.controller.addRef i) close (.holding key i)).Kept := by
  obtain ⟨hlookup, hbroken⟩ := usable_eq_some.mp husable
  have hi := hs.counted.settled i
  have hholds : (FlowPc.holding key i).holds i = 1 := FlowPc.holds_eq_one rfl
  refine hs.goOn (hs.counted.setRefs hk hlookup hsame (hi.key key hlookup).1
    (hi.opened key hlookup) (by simp [hbroken]) ?_ ?_ ?_ ?_) rfl rfl fun key' h => ?_
  · rw [FlowPc.holds_eq_zero hnone, hholds]
  · rintro key' ⟨⟩
    rfl
  · cases close with
    | none => exact id
    | some j => simpa [FlowPc.Aside] using haside
  · cases close with
    | none => rintro l next ⟨⟩
    | some j =>
      rintro l next ⟨⟩
      exact fun _ => id
  · exact .inl (hkey.trans h)

theorem releaseClient_kept (hs : s.Kept) (hk : k < s.flowCount)
    (hpc : s.flows k = .release key i) :
    (s.goOn k (s.controller.releaseClient key).1
      (s.controller.releaseClient key).2 .idle).Kept := by
  have hi := hs.counted.settled i
  have hheld : (s.flows k).held = some (key, i) := by rw [hpc]; rfl
  have hlookup := hi.held k key hheld
  have hkey : key ≠ "" := hs.named k key (by rw [hpc]; rfl)
  have hrefs := hi.refs key hlookup
  have hpos := holders_pos hk hheld
  have hholds := FlowPc.holds_eq_one hheld
  have hidle : FlowPc.idle.holds i = 0 := FlowPc.holds_eq_zero rfl i
  simp only [releaseClient, hkey, if_false, hlookup, setClient_self]
  split_ifs with hlast
  · refine hs.goOn (hs.counted.retire hk hlookup (fun l hl => ?_) hlast.1 ?_ fun _ => id) rfl rfl
    · rw [hpc]
      simp [FlowPc.sameFor_iff, FlowPc.held, FlowPc.Closes, FlowPc.Aside, hl.symm]
    · omega
  · refine hs.goOn (hs.counted.setRefs hk hlookup (fun l hl => ?_) (hi.key key hlookup).1
      (hi.opened key hlookup) (fun hbroken hzero => hlast ⟨hzero, hbroken⟩) ?_
      (by simp [FlowPc.held]) id (by simp [FlowPc.Plain])) rfl rfl
    · rw [hpc]
      simp [FlowPc.sameFor_iff, FlowPc.held, FlowPc.Closes, FlowPc.Aside, hl.symm]
    · change (s.controller.managed i).refCount - 1 + _ = _
      omega

theorem not_aside_of_mayMark (h : mayMark pc) (i : ℕ) : ¬pc.Aside i := by
  cases pc with
  | idle | holding | registered => exact id
  | acquire | dial | store | unregister | release | close => cases h

theorem markClientBad_kept {fatal : Bool} (hs : s.Kept) (hk : k < s.flowCount)
    (hmay : mayMark (s.flows k)) :
    (s.goOn k (s.controller.markClientBad key fatal).1 (s.controller.markClientBad key fatal).2
      (s.flows k)).Kept := by
  have haside := not_aside_of_mayMark hmay
  have hplain : (s.flows k).Plain := hs.counted.plain k
  have hsame : (s.goOn k s.controller none (s.flows k)).Kept :=
    hs.move hk (fun i => ⟨fun _ => Iff.rfl, id, id, fun _ => id⟩) (fun _ => .inl) hplain
      fun _ => id
  unfold markClientBad
  split
  · exact hsame
  · split
    · exact hsame
    · next i hlookup =>
      have hi := hs.counted.settled i
      split
      · exact hsame
      · simp only [setClient_self]
        split
        · next hzero =>
          refine hs.goOn (hs.counted.retire hk hlookup (fun l hl => ?_) hzero ?_ haside) rfl rfl
            (fun _ => .inl) fun _ => id
          · refine ⟨fun _ => Iff.rfl, .inr, ?_, fun _ => nofun⟩
            rintro (h | h)
            · exact absurd h.symm hl
            · exact h
          · rw [hzero, zero_add]
        · next hpos =>
          refine hs.goOn (hs.counted.setRefs hk hlookup
            (fun l _ => ⟨fun _ => Iff.rfl, id, id, fun _ => id⟩) (hi.key key hlookup).1
            (hi.opened key hlookup) (fun _ => hpos) rfl (hi.held_key hlookup k) (haside i) hplain)
            rfl rfl (fun _ => .inl) fun _ => id

theorem unregister_kept {id : ℕ} {key' : String} (hs : s.Kept) (hk : k < s.flowCount)
    (hpc : s.flows k = .unregister id key i)
    (hlookup : s.controller.flows.lookup id = some key') :
    (s.goOn k { s.controller with flows := s.controller.flows.erase id } none
      (.release key' i)).Kept := by
  have hreg : registration (s.flows k) = some (id, key) := by rw [hpc]; rfl
  obtain rfl : key' = key :=
    some.inj (hlookup.symm.trans (hs.registered.flows k id key hreg).1)
  have hkey : key' ≠ "" := hs.named k key' (by rw [hpc]; rfl)
  refine ⟨hs.counted.move hk (fun l => ?_), hs.registered.goOn (fun j hj id' key h => ?_) le_rfl
    nofun, fun j key h => ?_⟩
  · rw [hpc]
    simp [FlowPc.sameFor_iff, FlowPc.held, FlowPc.Closes, FlowPc.Aside]
  · refine (Table.lookup_erase_eq _ _ _).trans ?_
    rw [if_neg]
    · exact (hs.registered.flows j id' key h).1
    · rintro rfl
      exact hj (hs.registered.apart j k id' key key' h hreg)
  · by_cases hj : j = k
    · rw [hj, goOn_flows_self] at h
      cases h
      exact hkey
    · rw [goOn_flows_of_ne hj] at h
      exact hs.named j key h

/-- No client is stored over a broken one. -/
def NoReplacement (s : ClientUse) : ℕ × FlowAction → Prop
  | (k, .advance _) =>
    match s.flows k with
    | .store key _ => s.controller.usable key = none → s.controller.clients.lookup key = none
    | _ => True
  | _ => True

instance (s : ClientUse) (label : ℕ × FlowAction) : Decidable (s.NoReplacement label) := by
  unfold NoReplacement
  split
  · split <;> infer_instance
  · infer_instance

theorem advanceStep_kept {ok : Bool} (hs : s.Kept) (hk : k < s.flowCount)
    (hok : s.NoReplacement (k, .advance ok)) (h : s.advanceStep k ok = some s') : s'.Kept := by
  cases hpc : s.flows k <;> simp only [advanceStep, hpc, reduceCtorEq] at h
  case acquire key =>
    split at h
    · next i husable =>
      cases h
      refine hs.addRef hk husable (by rw [hpc]; rfl) (by rw [hpc]; rfl) (fun l hl => ?_) (by simp)
      rw [hpc]
      simp [FlowPc.sameFor_iff, FlowPc.held, FlowPc.Closes, FlowPc.Aside, hl.symm]
    · cases h
      refine hs.move hk (fun i => ?_) fun key h => .inl (by rw [hpc]; exact h)
      rw [hpc]
      simp [FlowPc.sameFor_iff, FlowPc.held, FlowPc.Closes, FlowPc.Aside]
  case dial key =>
    split at h
    · cases h
      exact hs.goOn (hs.counted.dial hk hpc) rfl rfl fun key h => .inl (by rw [hpc]; exact h)
    · cases h
      refine hs.move hk fun i => ?_
      rw [hpc]
      simp [FlowPc.sameFor_iff, FlowPc.held, FlowPc.Closes, FlowPc.Aside]
  case store key i =>
    split at h
    · next j husable =>
      cases h
      obtain ⟨hlookup, -⟩ := usable_eq_some.mp husable
      have haside := (hs.counted.settled j).not_aside hlookup k
      rw [hpc] at haside
      refine hs.addRef hk husable (by rw [hpc]; rfl) (by rw [hpc]; rfl) (fun l hl => ?_)
        fun h => haside (some.inj h)
      rw [hpc]
      simp [FlowPc.sameFor_iff, FlowPc.held, FlowPc.Closes, FlowPc.Aside, hl.symm]
    · next hnone =>
      cases h
      simp only [NoReplacement, hpc] at hok
      exact hs.goOn (hs.counted.store hk hpc (hok hnone)) rfl rfl
        fun key h => .inl (by rw [hpc]; exact h)
  case unregister id key i =>
    split at h
    · next key' hlookup =>
      cases h
      exact unregister_kept hs hk hpc hlookup
    · next hnone =>
      have hreg := (hs.registered.flows k id key (by rw [hpc]; rfl)).1
      rw [hnone] at hreg
      cases hreg
  case release key i =>
    cases h
    exact releaseClient_kept hs hk hpc
  case close i next =>
    cases h
    exact hs.goOn (hs.counted.closeAside hk hpc) rfl rfl
      (fun key h => .inl (by rw [hpc]; exact h)) fun r h => by rw [hpc]; exact h

theorem flowStep_kept {action : FlowAction} (hs : s.Kept) (hk : k < s.flowCount)
    (hok : s.NoReplacement (k, action)) (h : s.flowStep k action = some s') : s'.Kept := by
  cases action with
  | start key =>
    obtain ⟨⟨hpc, hkey⟩, rfl⟩ := of_guard h
    refine hs.move hk (fun i => ?_) ?_
    · rw [hpc]
      simp [FlowPc.sameFor_iff, FlowPc.held, FlowPc.Closes, FlowPc.Aside]
    · rintro key' ⟨⟩
      exact .inr hkey
  | advance ok => exact advanceStep_kept hs hk hok h
  | markBad key fatal =>
    obtain ⟨hmay, rfl⟩ := of_guard h
    exact markClientBad_kept hs hk hmay
  | register =>
    simp only [flowStep] at h
    split at h
    · next key i hpc =>
      cases h
      refine ⟨hs.counted.move hk (fun l => ?_), hs.registered.register, fun j key' h => ?_⟩
      · rw [hpc]
        simp [FlowPc.sameFor_iff, FlowPc.held, FlowPc.Closes, FlowPc.Aside]
      · by_cases hj : j = k
        · rw [hj, goOn_flows_self] at h
          exact hs.named k key' (by rw [hpc]; exact h)
        · rw [goOn_flows_of_ne hj] at h
          exact hs.named j key' h
    · cases h
  | leave =>
    simp only [flowStep] at h
    split at h
    · next key i hpc =>
      cases h
      refine hs.move hk (fun l => ?_) fun key h => .inl (by rw [hpc]; exact h)
      rw [hpc]
      simp [FlowPc.sameFor_iff, FlowPc.held, FlowPc.Closes, FlowPc.Aside]
    · next id key i hpc =>
      cases h
      refine hs.move hk (fun l => ?_) (fun key h => .inl (by rw [hpc]; exact h))
        (by simp [FlowPc.Plain]) fun r h => by rw [hpc]; exact h
      rw [hpc]
      simp [FlowPc.sameFor_iff, FlowPc.held, FlowPc.Closes, FlowPc.Aside]
    · cases h

theorem step_kept (s : ClientUse) (label : ℕ × FlowAction) (s' : ClientUse) (hs : s.Kept)
    (hok : s.NoReplacement label) (h : s.step label = some s') : s'.Kept := by
  obtain ⟨hk, h⟩ := ite_none_right_eq_some.mp h
  exact flowStep_kept hs hk hok h

/-- As long as no client is stored over a broken one, the references of an open client are the
flows that hold it, no client is closed while a flow holds it, and a broken one that nobody
holds has been closed or is about to be. -/
theorem references_are_holders (flowCount : ℕ) (labels : List (ℕ × FlowAction)) (s : ClientUse)
    (hpath : Path step NoReplacement (new flowCount) labels s) (i : ℕ) :
    ((s.controller.managed i).closed = false →
      (s.controller.managed i).refCount = s.holders i) ∧
    ((s.controller.managed i).closed → s.holders i = 0) ∧
    ((s.controller.managed i).broken → s.holders i = 0 →
      (∀ k < s.flowCount, ¬(s.flows k).Closes i) → (s.controller.managed i).closed) := by
  have hi := (hpath.invariant step_kept (new_kept flowCount)).counted.settled i
  by_cases hgone : s.Gone i
  · have hnone := holders_eq_zero (hi.not_held hgone)
    refine ⟨fun _ => (hi.free hgone).trans hnone.symm, fun _ => hnone, fun hbroken _ hopen => ?_⟩
    rcases hi.closed hgone hbroken with hclosed | ⟨k, hk, hcloses⟩
    · exact hclosed
    · exact absurd hcloses (hopen k hk)
  · obtain ⟨key, hkey⟩ : ∃ key, s.controller.clients.lookup key = some i := by
      simpa [Gone] using hgone
    have hrefs := hi.refs key hkey
    have hopened := hi.opened key hkey
    refine ⟨fun _ => hrefs, fun hclosed => ?_, fun hbroken hnone => ?_⟩
    · rw [hopened] at hclosed
      cases hclosed
    · exact absurd (hrefs.trans hnone) (hi.used key hkey hbroken)

/-- Two flows share a client, and one of them reports that it is broken. -/
def sharedRun : List (ℕ × FlowAction) :=
  [(0, .start "k"), (0, .advance true), (0, .advance true), (0, .advance true), (1, .start "k"),
    (1, .advance true), (1, .register), (0, .markBad "k" true)]

/-- A flow reports that its client is broken, another one dials a new client for the key,
and then the first flow releases its client. -/
def replacedRun : List (ℕ × FlowAction) :=
  [(0, .start "k"), (0, .advance true), (0, .advance true), (0, .advance true),
    (0, .markBad "k" true), (1, .start "k"), (1, .advance true), (1, .advance true),
    (1, .advance true), (0, .leave), (0, .advance true)]

theorem sharedRun_references : ∃ s, Path step NoReplacement (new 2) sharedRun s ∧
    (s.controller.managed 0).broken = true ∧ (s.controller.managed 0).refCount = 2 ∧
    s.holders 0 = 2 := by
  refine Path.exists_of_run_imp (P := fun s => (s.controller.managed 0).broken = true ∧
      (s.controller.managed 0).refCount = 2 ∧ (s.controller.managed 0).closed = false)
    (by decide +kernel) fun s hpath ⟨hbroken, hrefs, hopen⟩ => ?_
  have hholders := (references_are_holders 2 sharedRun s hpath 0).1 hopen
  exact ⟨hbroken, hrefs, hholders.symm.trans hrefs⟩

/-- The release of the first flow goes to the new client: that one has no references and is
closed while the second flow holds it, and the broken one stays open for ever. -/
theorem replacedRun_miscounts : ∃ s s', Path step anyLabel (new 2) replacedRun s ∧
    Path step anyLabel s [(1, .markBad "k" true), (1, .advance true)] s' ∧
    (s.controller.managed 1).closed = false ∧ (s.controller.managed 1).refCount = 0 ∧
    s.holders 1 = 1 ∧ (s.controller.managed 0).broken = true ∧ s.holders 0 = 0 ∧
    (s.controller.managed 0).closed = false ∧ s.flows 0 = .idle ∧
    s.flows 1 = .holding "k" 1 ∧ (s'.controller.managed 1).closed = true ∧ s'.holders 1 = 1 := by
  obtain ⟨s, hpath, hs, hnext⟩ : ∃ s, Path step anyLabel (new 2) replacedRun s ∧
      ((s.controller.managed 1).closed = false ∧ (s.controller.managed 1).refCount = 0 ∧
        s.holders 1 = 1 ∧ (s.controller.managed 0).broken = true ∧ s.holders 0 = 0 ∧
        (s.controller.managed 0).closed = false ∧ s.flows 0 = .idle ∧
        s.flows 1 = .holding "k" 1) ∧
      (run step anyLabel s [(1, .markBad "k" true), (1, .advance true)]).any fun s' =>
        (s'.controller.managed 1).closed = true ∧ s'.holders 1 = 1 :=
    Path.exists_of_run (by decide +kernel)
  obtain ⟨s', hpath', hs'⟩ := Path.exists_of_run hnext
  obtain ⟨h₁, h₂, h₃, h₄, h₅, h₆, h₇, h₈⟩ := hs
  exact ⟨s, s', hpath, hpath', h₁, h₂, h₃, h₄, h₅, h₆, h₇, h₈, hs'⟩

end ClientUse
end VlfProto.TunClient
