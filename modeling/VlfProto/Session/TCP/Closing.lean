import VlfProto.Session.TCPSession

/-! # What the teardown of a TCP session relies on -/

namespace VlfProto.Session
open Platform Transition

def TCPLoopPc.live : TCPLoopPc → Bool
  | .notStarted => false
  | .stopped => false
  | _ => true

/-- `Run` is opening flow object `k`, whose loop it has not started. -/
def TCPRunPc.Fresh : TCPRunPc → ℕ → Prop
  | .insert _ k', k => k' = k
  | .countStream _ k', k => k' = k
  | .writeOpenOK _ k', k => k' = k
  | .spawn k', k => k' = k
  | _, _ => False

/-- `Run` goes on to use the target of flow object `k`. -/
def TCPRunPc.Uses : TCPRunPc → ℕ → Prop
  | .countStream _ k', k => k' = k
  | .writeOpenOK _ k', k => k' = k
  | .spawn k', k => k' = k
  | .dataLimit _ k' _, k => k' = k
  | .dataWrite _ k' _, k => k' = k
  | _, _ => False

/-- `Run` is about to enter object `k` under `flowID`, or has entered it and not
answered yet, or is about to delete the entry of `flowID`. -/
def TCPRunPc.Opens : TCPRunPc → ℕ → ℕ → Prop
  | .insert id k', flowID, k => id = flowID ∧ k' = k
  | .countStream id k', flowID, k => id = flowID ∧ k' = k
  | .writeOpenOK id k', flowID, k => id = flowID ∧ k' = k
  | .closeFlow (.delete id _), flowID, _ => id = flowID
  | _, _, _ => False

/-- `Run` has no flow object in hand. -/
def TCPRunPc.handsOff : TCPRunPc → Bool
  | .insert _ _ => false
  | .countStream _ _ => false
  | .writeOpenOK _ _ => false
  | .spawn _ => false
  | .dataLimit _ _ _ => false
  | .dataWrite _ _ _ => false
  | _ => true

/-- Nor is it inside `Close` or about to change the table or close a target. -/
def TCPRunPc.plain : TCPRunPc → Bool
  | .closeFlow (.delete _ _) => false
  | .closeFlow (.closeTarget _ _ _) => false
  | .closing => false
  | .deferredClose => false
  | pc => pc.handsOff

theorem TCPRunPc.of_handsOff {pc : TCPRunPc} (h : pc.handsOff) :
    (∀ k, ¬pc.Fresh k) ∧ ∀ k, ¬pc.Uses k := by
  cases pc <;> simp_all [handsOff, Fresh, Uses]

theorem TCPRunPc.of_plain {pc : TCPRunPc} (h : pc.plain) :
    (∀ flowID k, ¬pc.Opens flowID k) ∧
      (∀ k flowID notify, pc ≠ .closeFlow (.closeTarget k flowID notify)) ∧
      pc ≠ .closing ∧ pc ≠ .deferredClose := by
  cases pc with
  | closeFlow pc => cases pc <;> simp_all [plain, handsOff, Opens]
  | _ => simp_all [plain, handsOff, Opens]

def TCPCloseStage.connClosed : TCPCloseStage → Bool
  | .cancel => false
  | .closeConn => false
  | _ => true

def TCPCloseStage.swapped : TCPCloseStage → Bool
  | .closeTargets _ => true
  | .wait => true
  | _ => false

namespace TCPSession

variable {s : TCPSession} {k : ℕ}

/-- The goroutines that `s.wg.Wait` is still waiting for. -/
def Counted (s : TCPSession) : TCPGoroutine → Prop
  | .run => False
  | .loop k => (s.flows k).loop.live
  | .closer _ => False

/-- The goroutines inside `Close`, where they run its body or wait for the one
that does. -/
def InClose (s : TCPSession) : TCPGoroutine → Prop
  | .run => s.run = .closing ∨ s.run = .deferredClose
  | .loop k => (s.flows k).loop = .closing
  | .closer i => s.closers i = .closing

def InTable (s : TCPSession) (k : ℕ) : Prop := ∃ flowID, s.tcpFlows.lookup flowID = some k

/-- The target of `k` is closed, or some goroutine is about to close it. -/
def Shut (s : TCPSession) (k : ℕ) : Prop :=
  (s.flows k).targetClosed ∨
  (∃ flowID notify, s.run = .closeFlow (.closeTarget k flowID notify)) ∨
  (∃ j flowID notify, (s.flows j).loop = .closeFlow (.closeTarget k flowID notify)) ∨
  ∃ g rest, s.once = .running g (.closeTargets rest) ∧ k ∈ rest

def Used (s : TCPSession) (k : ℕ) : Prop := (s.flows k).loop ≠ .notStarted ∨ s.run.Uses k

def PastConn (s : TCPSession) : Prop :=
  s.once = .done ∨ ∃ g stage, s.once = .running g stage ∧ stage.connClosed

/-- The body of `Close` has taken the flows out of the table. -/
def PastSwap (s : TCPSession) : Prop :=
  s.once = .done ∨ ∃ g stage, s.once = .running g stage ∧ stage.swapped

structure Consistent (s : TCPSession) : Prop where
  wg_eq : s.wg = ∑ k ∈ Finset.range s.created, (s.flows k).loop.live.toNat
  uncreated : ∀ k, s.created ≤ k → (s.flows k).loop = .notStarted
  table : ∀ flowID k, s.tcpFlows.lookup flowID = some k → (s.flows k).id = flowID ∧ k < s.created
  inClose : ∀ g stage, s.once = .running g stage → s.InClose g
  connClosed : s.PastConn → s.connClosed
  fresh : ∀ k, s.run.Fresh k → k < s.created ∧ (s.flows k).loop = .notStarted
  named : ∀ flowID k, s.run = .insert flowID k → (s.flows k).id = flowID ∧ ¬s.InTable k
  used : ∀ k, s.Used k → s.InTable k ∨ s.Shut k
  swapped : s.PastSwap → ∀ flowID k, s.tcpFlows.lookup flowID = some k →
    s.run.Opens flowID k ∧ (s.flows k).loop = .notStarted

theorem new_consistent (maxFlows : ℤ) : (new maxFlows).Consistent where
  wg_eq := rfl
  uncreated _ _ := rfl
  table _ _ h := by simp [new] at h
  inClose _ _ h := by cases h
  connClosed h := by simp [new, PastConn] at h
  fresh _ h := h.elim
  named _ _ h := by cases h
  used _ h := by simp [Used, new, TCPRunPc.Uses] at h
  swapped _ _ _ h := by simp [new] at h

theorem Consistent.lt_created (hs : s.Consistent) (h : (s.flows k).loop ≠ .notStarted) :
    k < s.created := by
  by_contra hk
  exact h (hs.uncreated k (by omega))

theorem ne_notStarted_of_live (hlive : (s.flows k).loop.live) : (s.flows k).loop ≠ .notStarted := by
  intro h
  simp [h, TCPLoopPc.live] at hlive

theorem Consistent.wg_pos (hs : s.Consistent) (hlive : (s.flows k).loop.live) : 0 < s.wg := by
  have hk := Finset.mem_range.mpr (hs.lt_created (ne_notStarted_of_live hlive))
  have hle := Finset.single_le_sum (fun j _ => Nat.zero_le ((s.flows j).loop.live.toNat)) hk
  rw [← hs.wg_eq, hlive] at hle
  exact hle

end TCPSession
end VlfProto.Session

namespace VlfProto.Session.TCPSession
open Platform Transition Option

variable {s s' : TCPSession} {g : TCPGoroutine} {r : TCPSession × Bool} {k : ℕ}
  {next : Option TCPCloseStage} {stage : TCPCloseStage}

theorem closeStep_cases (h : s.closeStep g = some r) :
    (s.once = .idle ∧ r = ({ s with once := .running g .cancel }, false)) ∨
    (∃ stage s' next, s.once = .running g stage ∧ s.bodyStep stage = some (s', next) ∧
      r = ({ s' with once := next.elim .done (.running g) }, next.isNone)) ∨
    (s.once = .done ∧ r = (s, true)) := by
  obtain ⟨t, hact, rfl⟩ := map_eq_some_iff.mp h
  rcases Once.act_cases hact with ⟨hidle, rfl⟩ | ⟨stage, s', next, hrun, hbody, rfl⟩ | ⟨hdone, rfl⟩
  · exact .inl ⟨hidle, rfl⟩
  · exact .inr (.inl ⟨stage, s', next, hrun, hbody, rfl⟩)
  · refine .inr (.inr ⟨hdone, ?_⟩)
    rw [← hdone]

@[simp] theorem closeTarget_loop (s : TCPSession) (k j : ℕ) :
    ((s.closeTarget k).flows j).loop = (s.flows j).loop := by
  by_cases h : j = k <;> simp [closeTarget, setFlow, h]

@[simp] theorem closeTarget_id (s : TCPSession) (k j : ℕ) :
    ((s.closeTarget k).flows j).id = (s.flows j).id := by
  by_cases h : j = k <;> simp [closeTarget, setFlow, h]

@[simp] theorem closeTarget_targetClosed (s : TCPSession) (k j : ℕ) :
    ((s.closeTarget k).flows j).targetClosed = ((s.flows j).targetClosed || decide (j = k)) := by
  by_cases h : j = k <;> simp [closeTarget, setFlow, h]

inductive BodyCase (s : TCPSession) : TCPCloseStage → TCPSession → Option TCPCloseStage → Prop
  | cancel : BodyCase s .cancel { s with cancelled := true } (some .closeConn)
  | closeConn : BodyCase s .closeConn { s with connClosed := true } (some .swapFlows)
  | swapFlows : BodyCase s .swapFlows { s with tcpFlows := ∅ } (some (.closeTargets s.tableFlows))
  | targetsClosed : BodyCase s (.closeTargets []) s (some .wait)
  | closeTarget {k : ℕ} {rest : List ℕ} : BodyCase s (.closeTargets (k :: rest))
      { s.closeTarget k with tcpStreams := s.tcpStreams - 1 } (some (.closeTargets rest))
  | wait (hwg : s.wg = 0) : BodyCase s .wait s none

theorem bodyStep_cases (h : s.bodyStep stage = some (s', next)) : s.BodyCase stage s' next := by
  rcases stage with _ | _ | _ | ⟨_ | ⟨k, rest⟩⟩ | _
  case wait =>
    obtain ⟨hwg, ⟨⟩⟩ := of_guard h
    exact .wait hwg
  all_goals
    cases h
    constructor

/-- What the body of `Close` leaves alone. -/
structure BodyMoves (s s' : TCPSession) : Prop where
  run : s'.run = s.run
  closers : s'.closers = s.closers
  wg : s'.wg = s.wg
  created : s'.created = s.created
  loop : ∀ k, (s'.flows k).loop = (s.flows k).loop
  id : ∀ k, (s'.flows k).id = (s.flows k).id
  targetClosed : ∀ k, (s.flows k).targetClosed → (s'.flows k).targetClosed

theorem bodyStep_moves (h : s.bodyStep stage = some (s', next)) : s.BodyMoves s' := by
  cases bodyStep_cases h with
  | closeTarget => exact ⟨rfl, rfl, rfl, rfl, by simp, by simp, by simp +contextual⟩
  | _ => exact ⟨rfl, rfl, rfl, rfl, fun _ => rfl, fun _ => rfl, fun _ => id⟩

theorem InClose.congr (hg : s.InClose g) (hrun : s'.run = s.run) (hclosers : s'.closers = s.closers)
    (hloop : ∀ k, (s'.flows k).loop = (s.flows k).loop) : s'.InClose g := by
  cases g <;> simpa [InClose, hrun, hclosers, hloop] using hg

theorem bodyStep_connClosed (h : s.bodyStep stage = some (s', next))
    (hs : stage.connClosed → s.connClosed)
    (hnext : ∀ stage', next = some stage' → stage'.connClosed) : s'.connClosed := by
  cases bodyStep_cases h with
  | cancel => cases hnext _ rfl
  | closeConn => rfl
  | _ => exact hs rfl

theorem bodyStep_swapped (h : s.bodyStep stage = some (s', next)) (hstage : stage ≠ .swapFlows)
    (hnext : ∀ stage', next = some stage' → stage'.swapped) : stage.swapped := by
  cases bodyStep_cases h with
  | cancel | closeConn => cases hnext _ rfl
  | swapFlows => exact absurd rfl hstage
  | _ => rfl

theorem bodyStep_table (h : s.bodyStep stage = some (s', next)) :
    s'.tcpFlows = if stage = .swapFlows then ∅ else s.tcpFlows := by
  cases bodyStep_cases h <;> rfl

/-- The body keeps every object in use in the table or in the hands of somebody who
closes its target. -/
theorem bodyStep_used (hs : s.Consistent) (hrun : s.once = .running g stage)
    (h : s.bodyStep stage = some (s', next)) (hk : s.InTable k ∨ s.Shut k) :
    { s' with once := next.elim .done (.running g) : TCPSession }.InTable k ∨
      { s' with once := next.elim .done (.running g) : TCPSession }.Shut k := by
  have hm := bodyStep_moves h
  have htable := bodyStep_table h
  rcases hk with ⟨flowID, hlookup⟩ | hclosed | ⟨id, notify, hpc⟩ | ⟨j, id, notify, hpc⟩ |
    ⟨g', rest, honce, hmem⟩
  · split_ifs at htable with hswap
    · subst hswap
      cases h
      obtain ⟨hid, hlt⟩ := hs.table _ _ hlookup
      subst hid
      refine .inr (.inr (.inr (.inr ⟨g, _, rfl, ?_⟩)))
      simp [tableFlows, hlt, hlookup]
    · exact .inl ⟨flowID, htable ▸ hlookup⟩
  · exact .inr (.inl (hm.targetClosed k hclosed))
  · exact .inr (.inr (.inl ⟨id, notify, hm.run.trans hpc⟩))
  · exact .inr (.inr (.inr (.inl ⟨j, id, notify, (hm.loop j).trans hpc⟩)))
  · rw [hrun] at honce
    cases honce
    cases rest with
    | nil => cases hmem
    | cons j rest =>
      cases h
      rcases List.mem_cons.mp hmem with rfl | hrest
      · exact .inr (.inl (by simp))
      · exact .inr (.inr (.inr (.inr ⟨g, rest, rfl, hrest⟩)))

theorem bodyStep_consistent (hs : s.Consistent) (hrun : s.once = .running g stage)
    (h : s.bodyStep stage = some (s', next)) :
    { s' with once := next.elim .done (.running g) : TCPSession }.Consistent := by
  have hm := bodyStep_moves h
  have htable := bodyStep_table h
  constructor
  · simp only [hm.wg, hm.created, hm.loop]
    exact hs.wg_eq
  · intro k hk
    rw [hm.loop]
    exact hs.uncreated k (hm.created ▸ hk)
  · intro flowID k hlookup
    change s'.tcpFlows.lookup flowID = some k at hlookup
    rw [htable] at hlookup
    split_ifs at hlookup
    · simp at hlookup
    · rw [hm.id, hm.created]
      exact hs.table flowID k hlookup
  · intro g' stage' hrun'
    cases next with
    | none => cases hrun'
    | some next =>
      cases hrun'
      exact (hs.inClose g stage hrun).congr hm.run hm.closers hm.loop
  · intro hpast
    have hconn : stage.connClosed → s.connClosed := fun hstage =>
      hs.connClosed (.inr ⟨g, stage, hrun, hstage⟩)
    change s'.connClosed
    refine bodyStep_connClosed h hconn ?_
    rintro stage' rfl
    rcases hpast with hdone | ⟨g', stage'', hrun', hstage⟩
    · cases hdone
    · cases hrun'
      exact hstage
  · intro k hfresh
    rw [hm.loop, hm.created]
    exact hs.fresh k (hm.run ▸ hfresh)
  · intro flowID k hpc
    rw [hm.id]
    obtain ⟨hid, htable'⟩ := hs.named flowID k (hm.run ▸ hpc)
    refine ⟨hid, fun ⟨id, hlookup⟩ => htable' ?_⟩
    change s'.tcpFlows.lookup id = some k at hlookup
    rw [htable] at hlookup
    split_ifs at hlookup
    · simp at hlookup
    · exact ⟨id, hlookup⟩
  · intro k hused
    apply bodyStep_used hs hrun h
    apply hs.used
    rcases hused with hloop | huses
    · exact .inl (hm.loop k ▸ hloop)
    · exact .inr (hm.run ▸ huses)
  · intro hpast flowID k hlookup
    change s'.tcpFlows.lookup flowID = some k at hlookup
    rw [htable] at hlookup
    split_ifs at hlookup with hswap
    · simp at hlookup
    · have hbefore : s.PastSwap := by
        refine .inr ⟨g, stage, hrun, bodyStep_swapped h hswap ?_⟩
        rintro stage' rfl
        rcases hpast with hdone | ⟨g', stage'', hrun', hstage⟩
        · cases hdone
        · cases hrun'
          exact hstage
      rw [hm.loop]
      exact hm.run ▸ hs.swapped hbefore flowID k hlookup

theorem closeStep_used (hs : s.Consistent) (h : s.closeStep g = some r)
    (hk : s.InTable k ∨ s.Shut k) : r.1.InTable k ∨ r.1.Shut k := by
  rcases closeStep_cases h with ⟨hidle, rfl⟩ | ⟨stage, s', next, hrun, hbody, rfl⟩ | ⟨-, rfl⟩
  · rcases hk with htable | hclosed | hpc | hpc | ⟨g', rest, hrun, -⟩
    · exact .inl htable
    · exact .inr (.inl hclosed)
    · exact .inr (.inr (.inl hpc))
    · exact .inr (.inr (.inr (.inl hpc)))
    · rw [hidle] at hrun
      cases hrun
  · exact bodyStep_used hs hrun hbody hk
  · exact hk

theorem closeStep_consistent (hs : s.Consistent) (hg : s.InClose g)
    (h : s.closeStep g = some r) : r.1.Consistent := by
  rcases closeStep_cases h with ⟨hidle, rfl⟩ | ⟨stage, s', next, hrun, hbody, rfl⟩ | ⟨-, rfl⟩
  · constructor
    · exact hs.wg_eq
    · exact hs.uncreated
    · exact hs.table
    · rintro g' stage ⟨⟩
      exact hg.congr rfl rfl fun _ => rfl
    · rintro (hdone | ⟨g', stage, hrun, hstage⟩)
      · cases hdone
      · cases hrun
        cases hstage
    · exact hs.fresh
    · exact hs.named
    · intro k hused
      exact closeStep_used hs h (hs.used k hused)
    · rintro (hdone | ⟨g', stage, hrun, hstage⟩)
      · cases hdone
      · cases hrun
        cases hstage
  · exact bodyStep_consistent hs hrun hbody
  · exact hs

theorem closeStep_moves (h : s.closeStep g = some r) : s.BodyMoves r.1 := by
  rcases closeStep_cases h with ⟨-, rfl⟩ | ⟨stage, s', next, -, hbody, rfl⟩ | ⟨-, rfl⟩
  · exact ⟨rfl, rfl, rfl, rfl, fun _ => rfl, fun _ => rfl, fun _ => id⟩
  · have hm := bodyStep_moves hbody
    exact ⟨hm.run, hm.closers, hm.wg, hm.created, hm.loop, hm.id, hm.targetClosed⟩
  · exact ⟨rfl, rfl, rfl, rfl, fun _ => rfl, fun _ => rfl, fun _ => id⟩

theorem closeStep_returned (h : s.closeStep g = some r) (hr : r.2 = true) : r.1.once = .done := by
  obtain ⟨s, hact, rfl⟩ := map_eq_some_iff.mp h
  exact Once.act_returned hact hr

end VlfProto.Session.TCPSession
