import VlfProto.Relay.Window

/-! # The queue stays within the send window -/

namespace VlfProto.Relay.Conn
open Platform Transition Finset

variable {c c' : Conn} {i : ℕ} {ok : Bool} {label : ConnStep}

theorem sum_le_erase_add (f : ℕ → ℕ) (calls : Finset ℕ) (i : ℕ) :
    ∑ j ∈ calls, f j ≤ ∑ j ∈ calls.erase i, f j + f i := by
  by_cases hi : i ∈ calls
  · rw [sum_erase_add _ _ hi]
  · rw [erase_eq_of_notMem hi]
    omega

/-- The queue is covered by the counter and the chunks still to be counted, and has
room for the chunks that are admitted. -/
structure Admitted (c : Conn) : Prop where
  covered : ∃ calls : Finset ℕ, (c.queued : ℤ) + c.writer.unsubtracted ≤
    c.upstreamBytes + (∑ j ∈ calls, (c.callers j).uncounted : ℕ)
  room : ∀ calls : Finset ℕ,
    (c.queued : ℤ) + (∑ j ∈ calls, (c.callers j).unsent : ℕ) ≤ c.sendWindow

theorem new_admitted (recvWindow sendWindow : ℤ) : (new recvWindow sendWindow).Admitted where
  covered := ⟨∅, by simp [new, queued, WriterPc.unsubtracted]⟩
  room calls := by
    simp only [new, queued, List.map_nil, List.sum_nil, CallPc.unsent, sum_const_zero]
    split_ifs <;> omega

theorem SameWindow.admitted (hs : c.SameWindow c') (hc : c.Admitted) : c'.Admitted := by
  obtain ⟨hqueue, hbytes, hwindow, hwriter, hcallers⟩ := hs
  constructor
  · rw [queued, hqueue, hbytes, hwriter, hcallers]
    exact hc.covered
  · rw [queued, hqueue, hwindow, hcallers]
    exact hc.room

theorem Drains.admitted (hd : c.Drains c') (hc : c.Admitted) : c'.Admitted := by
  obtain ⟨hqueued, hbalance, hwindow, hcallers⟩ := hd
  constructor
  · obtain ⟨calls, hcalls⟩ := hc.covered
    refine ⟨calls, ?_⟩
    rw [hcallers]
    omega
  · intro calls
    have hroom := hc.room calls
    rw [hcallers, hwindow]
    omega

section

variable (hothers : ∀ j, j ≠ i → c'.callers j = c.callers j)
include hothers

theorem sum_erase_congr (f : CallPc → ℕ) (calls : Finset ℕ) :
    ∑ j ∈ calls.erase i, f (c'.callers j) = ∑ j ∈ calls.erase i, f (c.callers j) := by
  apply sum_congr rfl
  intro j hj
  rw [hothers j (ne_of_mem_erase hj)]

/-- A call that counts at most what it stops owing leaves the queue covered. -/
theorem covered_of_counted (calls : Finset ℕ)
    (hcalls : (c.queued : ℤ) + c.writer.unsubtracted ≤
      c.upstreamBytes + (∑ j ∈ calls, (c.callers j).uncounted : ℕ))
    (hqueued : c'.queued = c.queued) (hwriter : c'.writer = c.writer)
    (hbytes : c'.upstreamBytes = c.upstreamBytes + (c.callers i).uncounted) :
    (c'.queued : ℤ) + c'.writer.unsubtracted ≤
      c'.upstreamBytes + (∑ j ∈ calls, (c'.callers j).uncounted : ℕ) := by
  have hbefore := sum_le_erase_add (fun j => (c.callers j).uncounted) calls i
  have hafter : ∑ j ∈ calls.erase i, (c'.callers j).uncounted ≤
      ∑ j ∈ calls, (c'.callers j).uncounted :=
    sum_le_sum_of_subset (erase_subset i calls)
  rw [sum_erase_congr hothers] at hafter
  rw [hqueued, hwriter, hbytes]
  omega

/-- A call that holds no admitted chunk afterwards leaves the room as it was. -/
theorem room_of_unsent (hc : c.Admitted) (hqueued : c'.queued = c.queued)
    (hwindow : c'.sendWindow = c.sendWindow) (hnext : (c'.callers i).unsent = 0)
    (calls : Finset ℕ) :
    (c'.queued : ℤ) + (∑ j ∈ calls, (c'.callers j).unsent : ℕ) ≤ c'.sendWindow := by
  have hafter := sum_le_erase_add (fun j => (c'.callers j).unsent) calls i
  rw [sum_erase_congr hothers, hnext] at hafter
  have hroom := hc.room (calls.erase i)
  rw [hqueued, hwindow]
  omega

end

theorem Feeds.admitted (hf : c.Feeds c' i) (hm : c.CallerMoves c' i)
    (hwindow : c'.sendWindow = c.sendWindow) (hadmits : c.AdmitsWithin (.caller i ok))
    (hc : c.Admitted) : c'.Admitted := by
  obtain ⟨calls, hcalls⟩ := hc.covered
  have hothers := hm.callers
  cases hf with
  | grant data offset hpc hfits hqueued hbytes hnext =>
    have hnone : (c.callers i).uncounted = 0 := by rw [hpc]; rfl
    have hadmitted : (c'.callers i).unsent = (part data offset).length := by rw [hnext]; rfl
    refine ⟨⟨calls, covered_of_counted hothers calls hcalls hqueued hm.writer ?_⟩, fun set => ?_⟩
    · rw [hbytes, hnone]
      simp
    · have hset := hadmits data offset hpc hfits ((calls ∪ set).erase i) (notMem_erase i _)
      rw [sum_add_distrib] at hset
      have hafter := sum_le_erase_add (fun j => (c'.callers j).unsent) set i
      rw [sum_erase_congr hothers, hadmitted] at hafter
      have hunsent : ∑ j ∈ set.erase i, (c.callers j).unsent ≤
          ∑ j ∈ (calls ∪ set).erase i, (c.callers j).unsent :=
        sum_le_sum_of_subset (erase_subset_erase i subset_union_right)
      have huncounted := sum_le_erase_add (fun j => (c.callers j).uncounted) calls i
      rw [hnone] at huncounted
      have hcounted : ∑ j ∈ calls.erase i, (c.callers j).uncounted ≤
          ∑ j ∈ (calls ∪ set).erase i, (c.callers j).uncounted :=
        sum_le_sum_of_subset (erase_subset_erase i subset_union_left)
      rw [hqueued, hwindow]
      omega
  | send hqueued hbytes hnext hpc =>
    refine ⟨⟨insert i (calls.erase i), ?_⟩, fun set => ?_⟩
    · have hbefore := sum_le_erase_add (fun j => (c.callers j).uncounted) calls i
      rw [sum_insert (notMem_erase i calls), sum_erase_congr hothers, hnext.2,
        hqueued, hbytes, hm.writer]
      omega
    · have hafter := sum_le_erase_add (fun j => (c'.callers j).unsent) set i
      rw [sum_erase_congr hothers, hnext.1] at hafter
      have hroom := hc.room (insert i (set.erase i))
      rw [sum_insert (notMem_erase i set)] at hroom
      rw [hqueued, hwindow]
      omega
  | count hqueued hbytes hnext =>
    exact ⟨⟨calls, covered_of_counted hothers calls hcalls hqueued hm.writer hbytes⟩,
      room_of_unsent hothers hc hqueued hwindow hnext⟩
  | pass hqueued hbytes hnext hpc =>
    refine ⟨⟨calls, covered_of_counted hothers calls hcalls hqueued hm.writer ?_⟩,
      room_of_unsent hothers hc hqueued hwindow hnext⟩
    rw [hbytes, hpc]
    simp

theorem Admitted.setCaller {pc : CallPc} (hc : c.Admitted) (hnone : (c.callers i).uncounted = 0)
    (hpc : pc.unsent = 0) : (c.setCaller i pc).Admitted := by
  have hm : c.CallerMoves (c.setCaller i pc) i := setCaller_moves rfl
  obtain ⟨calls, hcalls⟩ := hc.covered
  refine ⟨⟨calls, covered_of_counted hm.callers calls hcalls rfl rfl ?_⟩,
    room_of_unsent hm.callers hc rfl rfl ?_⟩
  · rw [hnone]
    exact (add_zero c.upstreamBytes).symm
  · simpa [Conn.setCaller] using hpc

theorem callerStep_admitted (hadmits : c.AdmitsWithin (.caller i ok)) (hc : c.Admitted)
    (h : c.callerStep i ok = some c') : c'.Admitted := by
  rcases callerStep_cases h with ⟨hpc, hm⟩ | ⟨found, r, hfound, hclose, rfl⟩
  · exact (callerStep_feeds hpc h).admitted hm hm.sendWindow hadmits hc
  · have hsame := (closeStep_frame hclose).toSameWindow
    have hr := hsame.admitted hc
    split_ifs
    · exact hr.setCaller (by rw [hsame.callers, hfound]; rfl) rfl
    · exact hr

theorem step_admitted (hadmits : c.AdmitsWithin label) (hc : c.Admitted)
    (h : c.step label = some c') : c'.Admitted := by
  cases label with
  | start =>
    obtain ⟨hidle, rfl⟩ := of_guard h
    refine ⟨?_, hc.room⟩
    obtain ⟨calls, hcalls⟩ := hc.covered
    refine ⟨calls, ?_⟩
    simp only [WriterPc.unsubtracted]
    exact le_trans (by simp [queued]) hcalls
  | reader data err => exact (readerStep_sameWindow h).admitted hc
  | writer ok n => exact (writerStep_drains h).admitted hc
  | call i request =>
    obtain ⟨hidle, rfl⟩ := of_guard h
    exact hc.setCaller (by rw [hidle]; rfl) (by cases request <;> rfl)
  | caller i ok => exact callerStep_admitted hadmits hc h
  | collect i =>
    obtain ⟨⟨result, hfinished⟩, rfl⟩ := collect_cases h
    exact hc.setCaller (by rw [hfinished]; rfl) rfl

/-- When no call is admitted into room that other calls have been admitted into, the
queue never exceeds the window. -/
theorem windowBounded_of_admitsWithin (recvWindow sendWindow : ℤ) (labels : List ConnStep)
    (c : Conn) (hpath : Path step AdmitsWithin (new recvWindow sendWindow) labels c) :
    c.WindowBounded := by
  have hkeep : ∀ (c : Conn) label c', c.Admitted → c.AdmitsWithin label →
      c.step label = some c' → c'.Admitted :=
    fun _ _ _ hc hadmits hstep => step_admitted hadmits hc hstep
  have hc := hpath.invariant hkeep (new_admitted recvWindow sendWindow)
  simpa [WindowBounded] using hc.room ∅

/-- Two calls post one byte each; each goes `n` steps before the next moves, and then
both go one step further. -/
def twoPosts (n : ℕ) : List ConnStep :=
  [.start, .call 0 (.send [1]), .call 1 (.send [2])] ++ List.replicate n (.caller 0 true) ++
    List.replicate n (.caller 1 true) ++ [.caller 0 true, .caller 1 true]

/-- When at most call `k` is between its check and its addition, it is enough that
the next call fits together with `k`. -/
theorem admitsWithin_of_quiet (k : ℕ)
    (hquiet : ∀ j, j ≠ k → (c.callers j).unsent + (c.callers j).uncounted = 0)
    (hfits : ∀ data offset, c.callers i = .loopWindow data offset →
      c.upstreamBytes + ((c.callers k).unsent + (c.callers k).uncounted : ℕ) +
        (part data offset).length ≤ c.sendWindow) : c.AdmitsWithin (.caller i ok) := by
  intro data offset hpc _ others _
  have hsum := sum_le_erase_add (fun j => (c.callers j).unsent + (c.callers j).uncounted) others k
  have hzero : ∑ j ∈ others.erase k, ((c.callers j).unsent + (c.callers j).uncounted) = 0 :=
    sum_eq_zero fun j hj => hquiet j (ne_of_mem_erase hj)
  rw [hzero] at hsum
  have hroom := hfits data offset hpc
  omega

def notChecking (c : Conn) : ConnStep → Bool
  | .caller i _ => match c.callers i with
    | .loopWindow _ _ => false
    | _ => true
  | _ => true

theorem admitsWithin_of_notChecking (h : c.notChecking label) : c.AdmitsWithin label := by
  cases label with
  | caller i ok =>
    intro data offset hpc
    simp [notChecking, hpc] at h
  | _ => trivial

theorem path_of_notChecking {labels : List ConnStep}
    (h : run step (fun c label => c.notChecking label) c labels = some c') :
    Path step AdmitsWithin c labels c' :=
  (Path.of_run h).mono fun _ _ => admitsWithin_of_notChecking

theorem twoPosts_windowBounded :
    ∃ c, Path step AdmitsWithin (new 1 2) (twoPosts 7) c ∧ c.queued = 2 ∧ c.WindowBounded := by
  obtain ⟨c₁, hrun₁, hadmits₁, c₂, hstep₂, c₃, hrun₃, hadmits₃, c₄, hstep₄, c₅, hrun₅, hqueued⟩ :
      ∃ c₁, run step (fun c label => c.notChecking label) (new 1 2)
          ((twoPosts 7).take 9) = some c₁ ∧ c₁.AdmitsWithin (.caller 0 true) ∧
        ∃ c₂, c₁.step (.caller 0 true) = some c₂ ∧
        ∃ c₃, run step (fun c label => c.notChecking label) c₂
          (List.replicate 6 (.caller 1 true)) = some c₃ ∧ c₃.AdmitsWithin (.caller 1 true) ∧
        ∃ c₄, c₃.step (.caller 1 true) = some c₄ ∧
        ∃ c₅, run step (fun c label => c.notChecking label) c₄
          [.caller 0 true, .caller 1 true] = some c₅ ∧ c₅.queued = 2 := by
    refine ⟨_, rfl, ?_, _, rfl, _, rfl, ?_, _, rfl, _, rfl, rfl⟩
    all_goals
      apply admitsWithin_of_quiet 0
      · intro j hj
        rcases j with _ | _ | j
        · contradiction
        · rfl
        · rfl
      · rintro data offset ⟨⟩
        decide
  have hpath : Path step AdmitsWithin (new 1 2) (twoPosts 7) c₅ :=
    (path_of_notChecking hrun₁).append (.cons hadmits₁ hstep₂ ((path_of_notChecking hrun₃).append
      (.cons hadmits₃ hstep₄ (path_of_notChecking hrun₅))))
  exact ⟨c₅, hpath, hqueued, windowBounded_of_admitsWithin 1 2 _ c₅ hpath⟩

/-- Both calls read the counter before either has added its byte. -/
theorem twoPosts_overfull :
    ∃ c, Path step anyLabel (new 1 1) (twoPosts 7) c ∧ c.queued = 2 ∧ c.sendWindow = 1 ∧
      ¬c.WindowBounded := by
  refine Path.exists_of_run_imp (P := fun c => c.queued = 2 ∧ c.sendWindow = 1)
    (by decide +kernel) fun c hpath ⟨hqueued, hwindow⟩ => ?_
  refine ⟨hqueued, hwindow, fun hbounded => ?_⟩
  rw [WindowBounded, hqueued, hwindow] at hbounded
  norm_num at hbounded

end VlfProto.Relay.Conn
