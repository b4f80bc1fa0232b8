import VlfProto.Client.Pending

/-! # Who may touch a reply channel -/

namespace VlfProto.Client
open Platform Transition Function Nat

/-- The call waits for an answer, or is about to take its channel out. -/
def CallPc.filed : CallPc → Bool
  | .writing | .waiting | .unregister => true
  | _ => false

theorem CallPc.live_of_filed {pc : CallPc} (h : pc.filed) : pc.live := by
  cases pc <;> first | rfl | cases h

namespace PendingState

/-- The channel was taken out of the table, and not by its own call. -/
structure Taken (s : PendingState) (c : ℕ) : Prop where
  created : c < s.created
  unfiled : s.pending.lookup (s.calls c).key ≠ some c
  notClosing : ∀ c', (s.calls c).pc ≠ .closing c'

structure Owned (s : PendingState) : Prop where
  running : s.panicked = false
  unborn : ∀ c, s.created ≤ c → s.chans c = .new ∧ (s.calls c).pc = .idle
  filed : ∀ key c, s.pending.lookup key = some c → c < s.created ∧ (s.calls c).key = key
  waiting : ∀ key c, s.pending.lookup key = some c → s.closer ≠ .sweepClose key c →
    (s.calls c).pc.filed ∧ s.chans c = .new
  sweeping : ∀ key c, s.closer = .sweepClose key c →
    s.pending.lookup key = some c ∧ (s.chans c).Open
  sending : ∀ key c ok, s.reader = .send key c ok → s.Taken c ∧ s.chans c = .new
  closing : ∀ c, s.reader = .close c → s.Taken c ∧ (s.chans c).Open
  givenUp : ∀ k c, (s.calls k).pc = .closing c →
    c = k ∧ s.pending.lookup (s.calls k).key ≠ some k ∧ s.chans k = .new
  distinct : ∀ k k', (s.calls k).pc.live → (s.calls k').pc.live →
    (s.calls k).key = (s.calls k').key → k = k'
  counts : ∀ c, (s.chans c).sent ≤ 1 ∧ (s.chans c).closes ≤ 1

variable {s t : PendingState} {key : PendingKey} {k c : ℕ} {ok : Bool} {r : Reply Bool}

theorem owned_initial : initial.Owned where
  running := rfl
  unborn _ _ := ⟨rfl, rfl⟩
  filed _ _ h := nomatch h
  waiting _ _ h := nomatch h
  sweeping _ _ h := nomatch h
  sending _ _ _ h := nomatch h
  closing _ h := nomatch h
  givenUp _ _ h := nomatch h
  distinct _ _ h := nomatch h
  counts _ := ⟨zero_le 1, zero_le 1⟩

namespace Owned

theorem created_of_live (h : s.Owned) (hlive : (s.calls k).pc.live) : k < s.created := by
  by_contra hk
  rw [(h.unborn k (not_lt.mp hk)).2] at hlive
  cases hlive

theorem not_filed (h : s.Owned) (hc : s.pending.lookup (s.calls c).key ≠ some c)
    (key : PendingKey) : s.pending.lookup key ≠ some c := by
  intro hkey
  rw [(h.filed key c hkey).2] at hc
  exact hc hkey

/-- A channel leaves the table; if the sweep was at it, the sweep moves on. -/
theorem erase (h : s.Owned) {closer : CloserPc} (hleft : ∀ c, closer ≠ .sweepClose key c)
    (hsame : ∀ key' c, key' ≠ key →
      (closer = .sweepClose key' c ↔ s.closer = .sweepClose key' c)) :
    { s with pending := s.pending.erase key, closer }.Owned := by
  have hold : ∀ key' c, (s.pending.erase key).lookup key' = some c →
      key' ≠ key ∧ s.pending.lookup key' = some c := by
    intro key' c hlookup
    rw [Table.lookup_erase_eq] at hlookup
    split_ifs at hlookup with hkey
    exact ⟨hkey, hlookup⟩
  have htaken : ∀ c, s.Taken c → { s with pending := s.pending.erase key, closer }.Taken c :=
    fun c hc => ⟨hc.created, fun hlookup => hc.unfiled (hold _ _ hlookup).2, hc.notClosing⟩
  refine { h with filed := ?_, waiting := ?_, sweeping := ?_, sending := ?_, closing := ?_,
                  givenUp := ?_ }
  · exact fun key' c hlookup => h.filed key' c (hold key' c hlookup).2
  · intro key' c hlookup hcloser
    obtain ⟨hkey, hlookup⟩ := hold key' c hlookup
    exact h.waiting key' c hlookup fun hsweep => hcloser ((hsame key' c hkey).mpr hsweep)
  · intro key' c hsweep
    have hkey : key' ≠ key := by
      rintro rfl
      exact hleft c hsweep
    obtain ⟨hlookup, hopen⟩ := h.sweeping key' c ((hsame key' c hkey).mp hsweep)
    refine ⟨?_, hopen⟩
    rw [Table.lookup_erase_eq, if_neg hkey, hlookup]
  · exact fun key' c ok hread => (h.sending key' c ok hread).imp_left (htaken c)
  · exact fun c hread => (h.closing c hread).imp_left (htaken c)
  · intro k c hpc
    obtain ⟨hk, hunfiled, hnew⟩ := h.givenUp k c hpc
    exact ⟨hk, fun hlookup => hunfiled (hold _ _ hlookup).2, hnew⟩

theorem call (h : s.Owned) (hstep : s.call key = some t) : t.Owned := by
  unfold PendingState.call at hstep
  split_ifs at hstep with hlock hfree
  cases hstep
  have hcalls : ∀ k, k ≠ s.created →
      update s.calls s.created ⟨key, .writing⟩ k = s.calls k :=
    fun k hk => update_of_ne hk _ _
  have hnew : update s.calls s.created ⟨key, .writing⟩ s.created = ⟨key, .writing⟩ :=
    update_self _ _ _
  have hother : ∀ key' c, (s.pending.insert key s.created).lookup key' = some c →
      (key' = key ∧ c = s.created) ∨ s.pending.lookup key' = some c := by
    intro key' c hlookup
    rw [Table.lookup_insert_eq] at hlookup
    split_ifs at hlookup with hkey
    · exact .inl ⟨hkey, (Option.some.inj hlookup).symm⟩
    · exact .inr hlookup
  have htaken : ∀ c, s.Taken c → PendingState.Taken { s with
      created := s.created + 1
      calls := update s.calls s.created ⟨key, .writing⟩
      pending := s.pending.insert key s.created } c := by
    intro c hc
    have hne : c ≠ s.created := hc.created.ne
    refine ⟨hc.created.trans (lt_succ_self _), ?_, ?_⟩
    · dsimp only
      rw [hcalls c hne]
      intro hlookup
      obtain ⟨-, heq⟩ | hold := hother _ c hlookup
      · exact hne heq
      · exact hc.unfiled hold
    · dsimp only
      rw [hcalls c hne]
      exact hc.notClosing
  refine { running := h.running, unborn := ?_, filed := ?_, waiting := ?_, sweeping := ?_,
           sending := ?_, closing := ?_, givenUp := ?_, distinct := ?_, counts := h.counts }
  · intro c hc
    dsimp only at hc ⊢
    rw [hcalls c (by omega)]
    exact h.unborn c (by omega)
  · intro key' c hlookup
    dsimp only
    obtain ⟨rfl, rfl⟩ | hold := hother key' c hlookup
    · exact ⟨lt_succ_self _, by rw [hnew]⟩
    · obtain ⟨hc, hkey⟩ := h.filed key' c hold
      rw [hcalls c hc.ne]
      exact ⟨hc.trans (lt_succ_self _), hkey⟩
  · intro key' c hlookup hcloser
    dsimp only
    obtain ⟨rfl, rfl⟩ | hold := hother key' c hlookup
    · rw [hnew]
      exact ⟨rfl, (h.unborn _ le_rfl).1⟩
    · rw [hcalls c (h.filed key' c hold).1.ne]
      exact h.waiting key' c hold hcloser
  · intro key' c hsweep
    dsimp only at hsweep
    rw [hsweep] at hlock
    exact absurd rfl hlock
  · exact fun key' c ok hread => (h.sending key' c ok hread).imp_left (htaken c)
  · exact fun c hread => (h.closing c hread).imp_left (htaken c)
  · intro k c hpc
    dsimp only at hpc ⊢
    rcases eq_or_ne k s.created with rfl | hk
    · rw [hnew] at hpc
      cases hpc
    · rw [hcalls k hk] at hpc ⊢
      obtain ⟨hc, hunfiled, hfresh⟩ := h.givenUp k c hpc
      refine ⟨hc, fun hlookup => ?_, hfresh⟩
      obtain ⟨-, heq⟩ | hold := hother _ k hlookup
      · exact hk heq
      · exact hunfiled hold
  · intro k k' hlive hlive' hkey
    dsimp only at hlive hlive' hkey
    rcases eq_or_ne k s.created with rfl | hk <;> rcases eq_or_ne k' s.created with rfl | hk'
    · rfl
    · rw [hcalls k' hk'] at hlive' hkey
      rw [hnew] at hkey
      exact absurd hkey.symm (hfree k' (h.created_of_live hlive') hlive')
    · rw [hcalls k hk] at hlive hkey
      rw [hnew] at hkey
      exact absurd hkey (hfree k (h.created_of_live hlive) hlive)
    · rw [hcalls k hk] at hlive hkey
      rw [hcalls k' hk'] at hlive' hkey
      exact h.distinct k k' hlive hlive' hkey

theorem calls_setPc (s : PendingState) (k : ℕ) (pc : CallPc) (k' : ℕ) :
    (s.setPc k pc).calls k' = if k' = k then ⟨(s.calls k).key, pc⟩ else s.calls k' := by
  simp only [setPc, update_apply]

theorem key_setPc (s : PendingState) (k : ℕ) (pc : CallPc) (k' : ℕ) :
    ((s.setPc k pc).calls k').key = (s.calls k').key := by
  rw [calls_setPc]
  split_ifs with hk
  · rw [hk]
  · rfl

/-- A call moves on. It stays with its channel as long as this is in the table, and when
it is about to close the channel, nobody else has it. -/
theorem setPc (h : s.Owned) {pc : CallPc} (hlive : (s.calls k).pc.live)
    (hwaiting : ∀ key, s.pending.lookup key = some k → s.closer ≠ .sweepClose key k → pc.filed)
    (hclosing : ∀ c, pc = .closing c → c = k ∧ s.pending.lookup (s.calls k).key ≠ some k ∧
      s.chans k = .new ∧ s.reader ≠ .close k ∧ ∀ key ok, s.reader ≠ .send key k ok) :
    (s.setPc k pc).Owned := by
  have hlive' : ∀ k', ((s.setPc k pc).calls k').pc.live → (s.calls k').pc.live := by
    intro k' hk'
    rw [calls_setPc] at hk'
    split_ifs at hk' with heq
    · rwa [heq]
    · exact hk'
  have htaken : ∀ c, s.Taken c → (c = k → ∀ c', pc ≠ .closing c') → (s.setPc k pc).Taken c := by
    intro c hc hpc
    refine ⟨hc.created, by rw [key_setPc]; exact hc.unfiled, fun c' => ?_⟩
    rw [calls_setPc]
    split_ifs with heq
    · exact hpc heq c'
    · exact hc.notClosing c'
  refine { running := h.running, unborn := ?_, filed := ?_, waiting := ?_, sweeping := h.sweeping,
           sending := ?_, closing := ?_, givenUp := ?_, distinct := ?_, counts := h.counts }
  · intro c hc
    have hne : c ≠ k := ne_of_gt ((h.created_of_live hlive).trans_le hc)
    rw [calls_setPc, if_neg hne]
    exact h.unborn c hc
  · intro key c hlookup
    rw [key_setPc]
    exact h.filed key c hlookup
  · intro key c hlookup hcloser
    obtain ⟨hfiled, hnew⟩ := h.waiting key c hlookup hcloser
    refine ⟨?_, hnew⟩
    rw [calls_setPc]
    split_ifs with heq
    · subst heq
      exact hwaiting key hlookup hcloser
    · exact hfiled
  · intro key c ok hread
    obtain ⟨hc, hnew⟩ := h.sending key c ok hread
    refine ⟨htaken c hc ?_, hnew⟩
    rintro rfl c' hpc
    exact (hclosing c' hpc).2.2.2.2 key ok hread
  · intro c hread
    obtain ⟨hc, hopen⟩ := h.closing c hread
    refine ⟨htaken c hc ?_, hopen⟩
    rintro rfl c' hpc
    exact (hclosing c' hpc).2.2.2.1 hread
  · intro k' c hpc
    rw [key_setPc]
    rw [calls_setPc] at hpc
    split_ifs at hpc with heq
    · subst heq
      obtain ⟨hc, hunfiled, hnew, -⟩ := hclosing c hpc
      exact ⟨hc, hunfiled, hnew⟩
    · exact h.givenUp k' c hpc
  · intro k₁ k₂ h₁ h₂ hkey
    rw [key_setPc, key_setPc] at hkey
    exact h.distinct k₁ k₂ (hlive' k₁ h₁) (hlive' k₂ h₂) hkey

theorem chans_setChan (s : PendingState) (c : ℕ) (r : Reply Bool) (c' : ℕ) :
    (s.setChan c r).chans c' = if c' = c then r else s.chans c' := by
  simp only [setChan, update_apply]

/-- Something happens to a channel that is not in the table, or that the sweep is at. -/
theorem setChan (h : s.Owned) (hcreated : c < s.created)
    (hfiled : ∀ key, s.pending.lookup key = some c → s.closer = .sweepClose key c ∧ r.Open)
    (hsending : ∀ key ok, s.reader ≠ .send key c ok) (hclosing : s.reader = .close c → r.Open)
    (hcall : ∀ c', (s.calls c).pc ≠ .closing c') (hcounts : r.sent ≤ 1 ∧ r.closes ≤ 1) :
    (s.setChan c r).Owned := by
  refine { running := h.running, unborn := ?_, filed := h.filed, waiting := ?_, sweeping := ?_,
           sending := ?_, closing := ?_, givenUp := ?_, distinct := h.distinct, counts := ?_ }
  · intro c' hc'
    rw [chans_setChan, if_neg (ne_of_gt (hcreated.trans_le hc'))]
    exact h.unborn c' hc'
  · intro key c' hlookup hcloser
    have hne : c' ≠ c := by
      rintro rfl
      exact hcloser (hfiled key hlookup).1
    rw [chans_setChan, if_neg hne]
    exact h.waiting key c' hlookup hcloser
  · intro key c' hsweep
    obtain ⟨hlookup, hopen⟩ := h.sweeping key c' hsweep
    refine ⟨hlookup, ?_⟩
    rw [chans_setChan]
    split_ifs with heq
    · subst heq
      exact (hfiled key hlookup).2
    · exact hopen
  · intro key c' ok hread
    have hne : c' ≠ c := by
      rintro rfl
      exact hsending key ok hread
    rw [chans_setChan, if_neg hne]
    obtain ⟨hc, hnew⟩ := h.sending key c' ok hread
    exact ⟨⟨hc.created, hc.unfiled, hc.notClosing⟩, hnew⟩
  · intro c' hread
    obtain ⟨hc, hopen⟩ := h.closing c' hread
    refine ⟨⟨hc.created, hc.unfiled, hc.notClosing⟩, ?_⟩
    rw [chans_setChan]
    split_ifs with heq
    · subst heq
      exact hclosing hread
    · exact hopen
  · intro k c' hpc
    obtain ⟨hk, hunfiled, hnew⟩ := h.givenUp k c' hpc
    refine ⟨hk, hunfiled, ?_⟩
    have hne : k ≠ c := by
      rintro rfl
      exact hcall c' hpc
    rw [chans_setChan, if_neg hne]
    exact hnew
  · intro c'
    rw [chans_setChan]
    split_ifs
    · exact hcounts
    · exact h.counts c'

theorem setReader (h : s.Owned) {reader : ReaderPc} {read : List (PendingKey × Bool)}
    (hsend : ∀ key c ok, reader ≠ .send key c ok) (hclose : ∀ c, reader ≠ .close c) :
    { s with reader, read }.Owned :=
  { h with
    sending := fun key c ok hread => absurd hread (hsend key c ok)
    closing := fun c hread => absurd hread (hclose c) }

theorem takeSend (h : s.Owned) (hc : s.Taken c) (hnew : s.chans c = .new) (key : PendingKey)
    (ok : Bool) : { s with reader := .send key c ok }.Owned := by
  refine { h with sending := ?_, closing := nofun }
  rintro key' c' ok' ⟨⟩
  exact ⟨⟨hc.created, hc.unfiled, hc.notClosing⟩, hnew⟩

theorem takeClose (h : s.Owned) (hc : s.Taken c) (hopen : (s.chans c).Open) :
    { s with reader := .close c }.Owned := by
  refine { h with sending := nofun, closing := ?_ }
  rintro c' ⟨⟩
  exact ⟨⟨hc.created, hc.unfiled, hc.notClosing⟩, hopen⟩

/-- The sweep comes from between two channels, and is at a filed one now or at none. -/
theorem setCloser (h : s.Owned) {closer : CloserPc} (hold : ∀ key c, s.closer ≠ .sweepClose key c)
    (hnew : ∀ key c, closer = .sweepClose key c → s.pending.lookup key = some c) :
    { s with closer }.Owned := by
  have htaken : ∀ c, s.Taken c → { s with closer }.Taken c :=
    fun c hc => ⟨hc.created, hc.unfiled, hc.notClosing⟩
  refine { h with waiting := ?_, sweeping := ?_, sending := ?_, closing := ?_ }
  · exact fun key c hlookup _ => h.waiting key c hlookup (hold key c)
  · intro key c hsweep
    refine ⟨hnew key c hsweep, ?_⟩
    change (s.chans c).Open
    rw [(h.waiting key c (hnew key c hsweep) (hold key c)).2]
    exact Reply.open_new
  · exact fun key c ok hread => (h.sending key c ok hread).imp_left (htaken c)
  · exact fun c hread => (h.closing c hread).imp_left (htaken c)

end Owned
end PendingState
end VlfProto.Client
