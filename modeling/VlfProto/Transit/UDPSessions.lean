import VlfProto.Transit.UDPBooks

/-! # The session table of a transit UDP lane -/

namespace VlfProto.Transit
open Platform Transition Option List

namespace UDPLane

variable {s s' : UDPLane} {i : ℕ} {pc : LaneRunPc} {ok : Bool} {now : ℤ}

/-- The table and the books are as they should be. -/
structure Kept (s : UDPLane) : Prop where
  sound : s.Sound
  balanced : s.Balanced

theorem Kept.setOther {session : UDPSession} (hs : s.Kept) (hi : i < s.created)
    (haddr : session.clientAddr = (s.sessions i).clientAddr)
    (hcell : session.closeOnce = (s.sessions i).closeOnce)
    (hfinalized : session.finalized = (s.sessions i).finalized) : (s.setSession i session).Kept :=
  ⟨hs.sound.setOther hi haddr hcell hfinalized, hs.balanced.setOther hi hcell⟩

theorem Kept.setRest {cancelled : Bool} {wg : ℕ} {toClient : List (String × Bytes)}
    (hs : s.Kept) : { s with cancelled := cancelled, wg := wg, toClient := toClient }.Kept :=
  ⟨{ hs.sound with }, hs.balanced⟩

theorem Kept.closeOnce {g : LaneGoroutine} {first : FinalizeStage} {r : UDPLane × Bool}
    (hs : s.Kept) (hi : i < s.created) (hfirst : s.Closes i first)
    (h : s.closeOnceStep g i first = some r) : r.1.Kept :=
  ⟨closeOnceStep_sound hs.sound hi hfirst h,
    closeOnceStep_balanced hs.balanced hi (by cases hfirst <;> rfl) h⟩

/-- `Run` goes on, with the session in hand that it had or with one from the table. -/
theorem Sound.setRun {mu : Bool} (hs : s.Sound)
    (hheld : ∀ addr i, pc.Holds addr i → s.run.Holds addr i ∨ s.table.lookup addr = some i)
    (hdialing : ∀ addr data, pc = .dial addr data → s.table.lookup addr = none := by simp) :
    { s with mu := mu, run := pc }.Sound := by
  refine { hs with held := fun addr i h => ?_, dialing := hdialing }
  rcases hheld addr i h with h | hlookup
  · exact hs.held addr i h
  · obtain ⟨hlt, haddr⟩ := hs.table addr i hlookup
    exact ⟨hlt, haddr, fun _ j hj => some.inj (hj.symm.trans hlookup)⟩

theorem Kept.setRun {mu : Bool} (hs : s.Kept) (howed : pc.owed = s.run.owed)
    (hheld : ∀ addr i, pc.Holds addr i → s.run.Holds addr i ∨ s.table.lookup addr = some i := by
      simp [LaneRunPc.Holds])
    (hdialing : ∀ addr data, pc = .dial addr data → s.table.lookup addr = none := by simp) :
    { s with mu := mu, run := pc }.Kept := by
  refine ⟨hs.sound.setRun hheld hdialing, ?_⟩
  have hb := hs.balanced
  unfold Balanced at hb ⊢
  rw [howed]
  exact hb

theorem createSession_kept {addr : String} {data : Bytes} (hs : s.Kept)
    (hpc : s.run = .dial addr data) :
    { s.createSession addr now with run := .incActive addr s.created data }.Kept := by
  have hnone := hs.sound.dialing addr data hpc
  have hfresh : ∀ i, i < s.created →
      (s.setSession s.created (.new addr now)).sessions i = s.sessions i :=
    fun i hi => setSession_of_ne hi.ne
  have hlookup : ∀ a, (s.table.insert addr s.created).lookup a =
      if a = addr then some s.created else s.table.lookup a :=
    fun a => Table.lookup_insert_eq _ _ _ _
  refine ⟨⟨?_, fun a i h => ?_, ?_, nofun, fun i h => ?_, fun i h => ?_, hs.sound.closer, ?_,
    fun hclosed i hi hcell => ?_⟩, ?_⟩
  · exact forall_setSession (P := fun _ session => session.finalized = onceFinalized
      session.closeOnce) hs.sound.finalized rfl
  · change (s.table.insert addr s.created).lookup a = some i at h
    rw [hlookup] at h
    split_ifs at h with ha
    · cases h
      refine ⟨Nat.lt_succ_self _, ?_⟩
      change ((s.setSession s.created (.new addr now)).sessions s.created).clientAddr = a
      rw [setSession_self, ha]
      rfl
    · obtain ⟨hlt, haddr⟩ := hs.sound.table a i h
      refine ⟨Nat.lt_succ_of_lt hlt, ?_⟩
      change ((s.setSession s.created (.new addr now)).sessions i).clientAddr = a
      rw [hfresh i hlt, haddr]
  · rintro a i ⟨rfl, rfl⟩
    refine ⟨Nat.lt_succ_self _, ?_, fun _ j hj => ?_⟩
    · change ((s.setSession s.created (.new addr now)).sessions s.created).clientAddr = addr
      rw [setSession_self]
      rfl
    · change (s.table.insert addr s.created).lookup addr = some j at hj
      rw [hlookup, if_pos rfl] at hj
      exact (some.inj hj).symm
  · by_cases hi : i = s.created
    · subst hi
      exact Nat.lt_succ_self _
    · change ((s.setSession s.created (.new addr now)).sessions i).pipe ≠ .notStarted at h
      rw [setSession_of_ne hi] at h
      exact Nat.lt_succ_of_lt (hs.sound.piped i h)
  · exact Nat.lt_succ_of_lt (hs.sound.taken i h)
  · exact forall_setSession (P := fun _ session => ∀ g key reason,
      session.closeOnce = .running g (.delete key reason) → key = session.clientAddr)
      hs.sound.deleting nofun
  · change (s.table.insert addr s.created).lookup
      ((s.setSession s.created (.new addr now)).sessions i).clientAddr = some i
    change OnceStored ((s.setSession s.created (.new addr now)).sessions i).closeOnce at hcell
    rcases (Nat.lt_succ_iff_lt_or_eq.mp hi) with hlt | rfl
    · rw [hfresh i hlt] at hcell ⊢
      have hstored := hs.sound.stored hclosed i hlt hcell
      rw [hlookup, if_neg, hstored]
      intro haddr
      rw [haddr, hnone] at hstored
      cases hstored
    · rw [setSession_self]
      exact (hlookup addr).trans (if_pos rfl)
  · have howed : (s.createSession addr now).owed = s.owed := by
      change ∑ i ∈ Finset.range (s.created + 1), onceOwed
        ((s.setSession s.created (.new addr now)).sessions i).closeOnce = _
      rw [Finset.sum_range_succ, setSession_self]
      refine (add_zero _).trans (Finset.sum_congr rfl fun i hi => ?_)
      rw [hfresh i (Finset.mem_range.mp hi)]
    have hb := hs.balanced
    rw [Balanced, hpc] at hb
    change s.active + s.closedTotal + (s.createSession addr now).owed = _
    rw [howed]
    exact hb

theorem runStep_kept {packet : Option (String × Bytes)} (hs : s.Kept)
    (h : s.runStep packet ok now = some s') : s'.Kept := by
  cases hpc : s.run <;> simp only [runStep, hpc, map_eq_some_iff, reduceCtorEq] at h
  case read =>
    split at h
    · cases h
      refine hs.setRun ?_ ?_ ?_ <;> split_ifs <;> simp [hpc, LaneRunPc.owed, LaneRunPc.Holds]
    · obtain ⟨-, rfl⟩ := of_guard_not h
      exact hs.setRun (by rw [hpc]; rfl)
  case lookup addr data =>
    obtain ⟨-, h⟩ := ite_none_left_eq_some.mp h
    split at h
    · next i hlookup =>
      cases h
      refine hs.setRun (by rw [hpc]; rfl) ?_
      rintro a j ⟨rfl, rfl⟩
      exact .inr hlookup
    · next hnone =>
      cases h
      refine hs.setRun (by rw [hpc]; rfl) (by simp [LaneRunPc.Holds]) ?_
      rintro a d ⟨⟩
      exact hnone
  case dial addr data =>
    split_ifs at h
    · cases h
      exact createSession_kept hs hpc
    · cases h
      exact hs.setRun (by rw [hpc]; rfl)
  case incActive addr i data =>
    cases h
    have hrun : { s with run := .incOpened addr i data }.Sound :=
      hs.sound.setRun (fun a j hheld => .inl (by rw [hpc]; exact hheld))
    have hb := hs.balanced
    rw [Balanced, hpc] at hb
    refine ⟨{ hrun with }, ?_⟩
    change s.active + 1 + s.closedTotal + s.owed = s.opened + 1
    change s.active + s.closedTotal + s.owed = s.opened + 0 at hb
    linarith
  case incOpened addr i data =>
    cases h
    have hrun : { s with mu := false, run := .spawn addr i data }.Sound :=
      hs.sound.setRun (fun a j hheld => .inl (by rw [hpc]; exact hheld))
    have hb := hs.balanced
    rw [Balanced, hpc] at hb
    refine ⟨{ hrun with }, ?_⟩
    change s.active + s.closedTotal + s.owed = ((s.opened + 1 : ℕ) : ℤ) + 0
    change s.active + s.closedTotal + s.owed = s.opened + 1 at hb
    push_cast
    linarith
  case spawn addr i data =>
    cases h
    have hi : i < s.created := (hs.sound.held addr i (by rw [hpc]; exact ⟨rfl, rfl⟩)).1
    have hset : (s.setPipe i .read).Kept := hs.setOther hi rfl rfl rfl
    have hrun : { s.setPipe i .read with run := .touch addr i data }.Kept :=
      hset.setRun (by change _ = s.run.owed; rw [hpc]; rfl)
        (fun a j hheld => .inl (by change s.run.Holds a j; rw [hpc]; exact hheld))
    exact hrun.setRest
  case touch addr i data =>
    cases h
    have hi : i < s.created := (hs.sound.held addr i (by rw [hpc]; exact ⟨rfl, rfl⟩)).1
    have hset : (s.touch i now).Kept := hs.setOther hi rfl rfl rfl
    exact hset.setRun (by change _ = s.run.owed; rw [hpc]; rfl)
      (fun a j hheld => .inl (by change s.run.Holds a j; rw [hpc]; exact hheld))
  case write addr i data =>
    have hi : i < s.created := (hs.sound.held addr i (by rw [hpc]; exact ⟨rfl, rfl⟩)).1
    split_ifs at h
    · cases h
      have hset : (s.setSession i { s.sessions i with
          toBackend := (s.sessions i).toBackend ++ [data] }).Kept := hs.setOther hi rfl rfl rfl
      exact hset.setRun (by change _ = s.run.owed; rw [hpc]; rfl)
    · cases h
      exact hs.setRun (by rw [hpc]; rfl) (fun a j hheld => .inl (by rw [hpc]; exact hheld))
  case closing addr i =>
    obtain ⟨r, hr, rfl⟩ := h
    obtain ⟨hi, rfl, -⟩ := hs.sound.held addr i (by rw [hpc]; exact ⟨rfl, rfl⟩)
    have hclosed := hs.closeOnce hi (.delete _) hr
    split_ifs
    · refine hclosed.setRun ?_
      rw [(closeOnceStep_frame hr).run, hpc]
      rfl
    · exact hclosed

theorem pipeStep_kept {result : PipeRead} (hs : s.Kept)
    (h : s.pipeStep i result ok now = some s') : s'.Kept := by
  have hset : ∀ (s : UDPLane), s.Kept → i < s.created → ∀ pc, (s.setPipe i pc).Kept :=
    fun s hs hi pc => hs.setOther hi rfl rfl rfl
  cases hpc : (s.sessions i).pipe <;> simp only [pipeStep, hpc, map_eq_some_iff, reduceCtorEq] at h
  case read =>
    have hi := hs.sound.piped i (by simp [hpc])
    split at h
    · obtain ⟨-, rfl⟩ := of_guard_not h
      have htouch : (s.touch i now).Kept := hs.setOther hi rfl rfl rfl
      exact hset _ htouch hi _
    · obtain ⟨-, rfl⟩ := of_guard h
      exact hset s hs hi _
  case check err =>
    have hi := hs.sound.piped i (by simp [hpc])
    cases h
    exact hset s hs hi _
  case write data =>
    have hi := hs.sound.piped i (by simp [hpc])
    split_ifs at h
    · cases h
      have hsent : { s with
          toClient := s.toClient ++ [((s.sessions i).clientAddr, data)] }.Kept := hs.setRest
      exact hset _ hsent hi _
    · cases h
      exact hset s hs hi _
  case closing reason =>
    have hi := hs.sound.piped i (by simp [hpc])
    obtain ⟨r, hr, rfl⟩ := h
    have hclosed := hs.closeOnce hi (.delete reason) hr
    split_ifs
    · exact hset r.1 hclosed ((closeOnceStep_frame hr).created ▸ hi) _
    · exact hclosed
  case exiting =>
    have hi := hs.sound.piped i (by simp [hpc])
    cases h
    have hdone : { s with wg := s.wg - 1 }.Kept := hs.setRest
    exact hset _ hdone hi _

theorem Kept.setCloser {pc : LaneCloserPc} {connClosed : Bool} (hs : s.Kept)
    (hclosed : s.closed = true) (htaken : ∀ i ∈ pc.taken, i < s.created) :
    { s with closer := pc, connClosed := connClosed }.Kept where
  sound := { hs.sound with
    taken := htaken
    closer := fun h => absurd h (by simp [hclosed]) }
  balanced := hs.balanced

theorem swap_kept (hs : s.Kept) (hclosed : s.closed = true) :
    { s with table := ∅, closer := .finalize s.tableSessions }.Kept where
  sound := { hs.sound with
    table := fun _ _ h => by simp at h
    held := fun addr i h =>
      ⟨(hs.sound.held addr i h).1, (hs.sound.held addr i h).2.1, fun h => by simp [hclosed] at h⟩
    dialing := fun _ _ _ => by simp
    taken := fun i hi => mem_range.mp (mem_of_mem_filter hi)
    closer := fun h => absurd h (by simp [hclosed])
    stored := fun h => absurd h (by simp [hclosed]) }
  balanced := hs.balanced

theorem closerStep_kept (hs : s.Kept) (h : s.closerStep i = some s') : s'.Kept := by
  have hclosed : s.closer ≠ .idle → s.closed = true := fun hne => by
    by_contra hopen
    exact hne (hs.sound.closer (by simpa using hopen))
  cases hpc : s.closer
  case finalize pending =>
    have htaken := hs.sound.taken
    rw [hpc] at htaken
    cases pending with
    | nil =>
      simp only [closerStep, hpc] at h
      cases h
      exact hs.setCloser (hclosed (by simp [hpc])) nofun
    | cons j rest =>
      simp only [closerStep, hpc] at h
      obtain ⟨hmem, rfl⟩ := of_guard h
      refine hs.setCloser (hclosed (by simp [hpc])) fun k hk => ?_
      rcases mem_cons.mp hk with rfl | hk
      · exact htaken _ hmem
      · exact htaken _ (mem_of_mem_erase hk)
  case closing j pending =>
    simp only [closerStep, hpc, map_eq_some_iff] at h
    obtain ⟨r, hr, rfl⟩ := h
    have htaken := hs.sound.taken
    rw [hpc] at htaken
    have hopen := hclosed (by simp [hpc])
    have hframe := closeOnceStep_frame hr
    have hnext := hs.closeOnce (htaken j (by simp [LaneCloserPc.taken])) (.shutdown _ hopen) hr
    split_ifs
    · refine hnext.setCloser (hframe.closed.trans hopen) fun k hk => ?_
      rw [hframe.created]
      exact htaken k (mem_cons_of_mem j hk)
    · exact hnext
  case returned => simp [closerStep, hpc] at h
  all_goals simp only [closerStep, hpc] at h
  case idle =>
    cases h
    exact ⟨{ hs.sound with
      held := fun addr i h => ⟨(hs.sound.held addr i h).1, (hs.sound.held addr i h).2.1, nofun⟩
      taken := nofun
      closer := nofun
      stored := nofun }, hs.balanced⟩
  case closeConn =>
    cases h
    exact hs.setCloser (hclosed (by simp [hpc])) nofun
  case swap =>
    obtain ⟨-, rfl⟩ := of_guard_not h
    exact swap_kept hs (hclosed (by simp [hpc]))
  case wait =>
    obtain ⟨-, rfl⟩ := of_guard h
    exact hs.setCloser (hclosed (by simp [hpc])) nofun

theorem step_kept (s : UDPLane) (label : UDPLaneStep) (s' : UDPLane) (hs : s.Kept)
    (_ : anyLabel s label) (h : s.step label = some s') : s'.Kept := by
  cases label with
  | run packet ok now => exact runStep_kept hs h
  | pipe i result ok now => exact pipeStep_kept hs h
  | close i => exact closerStep_kept hs h
  | cancel =>
    cases h
    exact hs.setRest

/-- No goroutine is between the two updates of an opening or of a closing. -/
def Paired (s : UDPLane) : Prop :=
  s.run.owed = 0 ∧ ∀ i < s.created, onceOwed (s.sessions i).closeOnce = 0

instance (s : UDPLane) : Decidable s.Paired := inferInstanceAs (Decidable (_ ∧ _))

/-- Nobody has begun to close session `i`. -/
def Live (s : UDPLane) (i : ℕ) : Prop := i < s.created ∧ (s.sessions i).closeOnce = .idle

instance (s : UDPLane) (i : ℕ) : Decidable (s.Live i) := inferInstanceAs (Decidable (_ ∧ _))

theorem Paired.owed (h : s.Paired) : s.owed = 0 :=
  Finset.sum_eq_zero fun i hi => h.2 i (Finset.mem_range.mp hi)

theorem Sound.lookup_of_live (hs : s.Sound) (hclosed : s.closed = false) (h : s.Live i) :
    s.table.lookup (s.sessions i).clientAddr = some i :=
  hs.stored hclosed i h.1 (by rw [h.2]; trivial)

/-- Every session is finalised at most once, and the gauge is the number of opened ones less the
closed ones unless an update is under way. Until `Close` begins, a session that nobody closes is
the one in the table under the address of its client, and a datagram goes to the one such
session of its sender. -/
theorem sessions_kept (idleTimeout : ℤ) (labels : List UDPLaneStep) (s : UDPLane)
    (hpath : Path step anyLabel (new idleTimeout) labels s) :
    (∀ i, (s.sessions i).finalized ≤ 1) ∧
    (s.Paired → s.active = s.opened - ∑ reason, (s.closedBy reason : ℤ)) ∧
    (s.closed = false → ∀ i, s.Live i → s.table.lookup (s.sessions i).clientAddr = some i) ∧
    (s.closed = false → ∀ i < s.created, ∀ g key reason,
      (s.sessions i).closeOnce = .running g (.delete key reason) →
      s.table.lookup key = some i) ∧
    (∀ addr i, s.run.Holds addr i → (s.sessions i).clientAddr = addr ∧
      (s.closed = false → ∀ j, s.Live j → (s.sessions j).clientAddr = addr → j = i)) := by
  obtain ⟨hs, hb⟩ := hpath.invariant step_kept ⟨new_sound idleTimeout, new_balanced idleTimeout⟩
  refine ⟨fun i => ?_, fun hpaired => ?_, fun hclosed i hlive => hs.lookup_of_live hclosed hlive,
    fun hclosed i hi g key reason hcell => ?_, fun addr i hheld => ?_⟩
  · rw [hs.finalized i]
    exact onceFinalized_le _
  · rw [Balanced, hpaired.owed, hpaired.1, closedTotal] at hb
    linarith
  · rw [hs.deleting i g key reason hcell]
    exact hs.stored hclosed i hi (by rw [hcell]; trivial)
  · obtain ⟨-, haddr, hown⟩ := hs.held addr i hheld
    refine ⟨haddr, fun hclosed j hlive hj => hown hclosed j ?_⟩
    rw [← hj]
    exact hs.lookup_of_live hclosed hlive

/-- A datagram of client `a` opens a session, the session is closed when the write fails,
and the next datagram opens another one. -/
def reopenedRun : List UDPLaneStep :=
  [.run (some ("a", [1])) true 1] ++ List.replicate 6 (.run none true 1) ++
    List.replicate 6 (.run none false 1) ++ [.run (some ("a", [2])) true 2] ++
    List.replicate 7 (.run none true 2)

theorem reopenedRun_kept : ∃ s, Path step anyLabel (new 5) reopenedRun s ∧ s.created = 2 ∧
    s.Paired ∧ s.closed = false ∧ s.Live 1 ∧ (s.sessions 0).finalized ≤ 1 ∧
    s.active = s.opened - ∑ reason, (s.closedBy reason : ℤ) ∧
    s.table.lookup (s.sessions 1).clientAddr = some 1 := by
  refine Path.exists_of_run_imp (P := fun s => s.created = 2 ∧ s.Paired ∧ s.closed = false ∧
      s.Live 1) (by decide +kernel) fun s hpath ⟨hcreated, hpaired, hclosed, hlive⟩ => ?_
  obtain ⟨honce, hgauge, htable, -, -⟩ := sessions_kept 5 reopenedRun s hpath
  exact ⟨hcreated, hpaired, hclosed, hlive, honce 0, hgauge hpaired,
    htable hclosed 1 hlive⟩

end UDPLane
end VlfProto.Transit
