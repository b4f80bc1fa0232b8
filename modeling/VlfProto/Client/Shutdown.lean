import VlfProto.Client.UDPFlowClose

/-! # The shutdown of the QUIC client -/

namespace VlfProto.Client
open Platform Session Transition Option

namespace QUICClient

variable {c c' : QUICClient} {i j : ℕ} {label : QUICStep}

/-- The next action of goroutine `i` locks `udpMu`. -/
def Locks (c : QUICClient) (i : ℕ) : Prop :=
  match c.users i with
  | .idle => False
  | .insert _ => True
  | .closeFlow k => (c.flows k).once = .running i .delete
  | .close =>
    match c.closeOnce with
    | .running j .lock => j = i
    | .running j (.closeFlow k _) => j = i ∧ (c.flows k).once = .running i .delete
    | _ => False

/-- Goroutine `i` is to lock `udpMu`, which it holds. -/
def Reenters (c : QUICClient) (i : ℕ) : Prop := c.udpMu = some i ∧ c.Locks i

/-- No flow is registered when `close` locks `udpMu`. -/
def LocksEmpty (c : QUICClient) : QUICStep → Prop
  | .user i _ => c.closeOnce = .running i .lock → c.udpFlows = ∅
  | _ => True

instance (c : QUICClient) (label : QUICStep) : Decidable (c.LocksEmpty label) := by
  induction label using QUICStep.casesOn <;>
    first | exact instDecidableTrue | exact forall_prop_decidable _

/-- `close` has not locked `udpMu` yet. -/
def beforeLock : Once ℕ ClientCloseStage → Bool
  | .idle | .running _ .cancel | .running _ .lock => true
  | _ => false

/-- `close` holds `udpMu` over an empty table. -/
def Calm (c : QUICClient) : Prop :=
  match c.closeOnce with
  | .idle | .done => c.udpMu = none
  | .running _ (.closeFlow _ _) => False
  | .running i (.range _) | .running i .swap | .running i .unlock =>
    c.users i = .close ∧ c.udpMu = some i ∧ c.udpFlows = ∅
  | .running i _ => c.users i = .close ∧ c.udpMu = none

theorem Calm.not_reenters (h : c.Calm) (i : ℕ) : ¬c.Reenters i := by
  rintro ⟨hmu, hlocks⟩
  unfold Calm at h
  split at h <;> simp_all [Locks]

theorem Calm.of_same (h : c.Calm) (honce : c'.closeOnce = c.closeOnce) (hmu : c'.udpMu = c.udpMu)
    (husers : ∀ j, c.users j = .close → c'.users j = .close)
    (htable : c.udpMu ≠ none → c'.udpFlows = c.udpFlows) : c'.Calm := by
  unfold Calm at h ⊢
  rw [honce, hmu]
  split at h <;> simp_all

theorem setUser_close {pc : UserPc} (hi : c.users i ≠ .close) (hj : c.users j = .close) :
    (c.setUser i pc).users j = .close := by
  have hne : j ≠ i := by
    rintro rfl
    exact hi hj
  simpa [setUser, hne] using hj

theorem closeStep_calm {next : Option UInt64} {r : QUICClient × Bool} (h : c.Calm)
    (hpc : c.users i = .close) (hok : c.LocksEmpty (.user i next))
    (hstep : c.closeStep i next = some r) :
    r.1.Calm ∧ (r.2 = true → r.1.closeOnce = .done) := by
  obtain ⟨s, hact, rfl⟩ := map_eq_some_iff.mp hstep
  refine ⟨?_, Once.act_returned hact⟩
  unfold Calm at h
  rcases Once.act_cases hact with ⟨hidle, rfl⟩ | ⟨stage, c', after, hrun, hbody, rfl⟩ | ⟨hdone, rfl⟩
  · rw [hidle] at h
    exact ⟨hpc, h⟩
  · rw [hrun] at h
    cases stage <;> simp only [closeBody] at hbody
    case closeFlow => exact h.elim
    case lock =>
      obtain ⟨-, hbody⟩ := ite_none_right_eq_some.mp hbody
      cases hbody
      exact ⟨hpc, rfl, hok hrun⟩
    case range =>
      split at hbody
      · simp [h.2.2] at hbody
      · obtain ⟨-, hbody⟩ := ite_none_right_eq_some.mp hbody
        cases hbody
        exact h
    case swap =>
      cases hbody
      exact ⟨h.1, h.2.1, rfl⟩
    case unlock =>
      cases hbody
      exact ⟨h.1, rfl⟩
    case closeConn =>
      cases hbody
      exact h.2
    all_goals
      cases hbody
      exact h
  · rw [hdone] at h
    exact h

theorem step_calm (h : c.Calm) (hok : c.LocksEmpty label) (hstep : c.step label = some c') :
    c'.Calm := by
  cases step_cases hstep with
  | call hidle => exact h.of_same rfl rfl (fun _ => setUser_close (by simp [hidle])) fun _ => rfl
  | insert hpc hmu =>
    refine h.of_same rfl rfl (fun _ => setUser_close (c := c.insertFlow _) ?_)
      fun hheld => absurd hmu hheld
    exact fun hclose => by cases hpc.symm.trans hclose
  | closeFlow hpc hr =>
    obtain ⟨husers, honce, hmu, htable⟩ := closeFlowStep_same hr
    split_ifs
    · refine h.of_same honce hmu (fun _ hj => setUser_close ?_ (husers ▸ hj)) htable
      simp [husers, hpc]
    · exact h.of_same honce hmu (fun _ hj => husers ▸ hj) htable
  | close hpc hr =>
    obtain ⟨ht, hdone⟩ := closeStep_calm h hpc hok hr
    split_ifs with hreturn
    · simp only [Calm, setUser, hdone hreturn] at ht ⊢
      exact ht
    · exact ht
  | beside hbeside =>
    exact h.of_same hbeside.closeOnce hbeside.udpMu (fun _ hj => hbeside.users ▸ hj)
      fun _ => hbeside.table

def closeRank : Once ℕ ClientCloseStage → ℕ
  | .idle => 8
  | .running _ .cancel => 7
  | .running _ .lock => 6
  | .running _ (.range _) | .running _ (.closeFlow _ _) => 5
  | .running _ .swap => 4
  | .running _ .unlock => 3
  | .running _ .closeControl => 2
  | .running _ .closeConn => 1
  | .done => 0

/-- Some goroutine in `close` takes it one action further. -/
theorem Calm.closes (h : c.Calm) (hi : c.users i = .close) (hdone : c.closeOnce ≠ .done)
    (hempty : beforeLock c.closeOnce → c.udpFlows = ∅) : ∃ j r, c.users j = .close ∧
      c.closeStep j none = some r ∧ r.1.users = c.users ∧ r.1.panicked = c.panicked ∧
      closeRank r.1.closeOnce < closeRank c.closeOnce ∧
      (beforeLock r.1.closeOnce → r.1.udpFlows = ∅) := by
  unfold Calm at h
  cases honce : c.closeOnce with
  | idle =>
    rw [honce] at hempty
    exact ⟨i, _, hi, by rw [closeStep, honce]; rfl, rfl, rfl, by simp [closeRank], hempty⟩
  | done => exact absurd honce hdone
  | running j stage =>
    rw [honce] at h hempty
    cases stage
    case closeFlow => exact h.elim
    all_goals
      refine ⟨j, _, h.1, by simp [closeStep, honce, Once.act, closeBody, h]; rfl, rfl, rfl,
        by simp [closeRank], ?_⟩
      first | exact hempty | rintro ⟨⟩

structure Returning (i : ℕ) (c : QUICClient) : Prop where
  calm : c.Calm
  user : c.users i = .idle ∨ c.users i = .close
  up : c.panicked = false
  empty : beforeLock c.closeOnce → c.udpFlows = ∅

def returnRank (i : ℕ) (c : QUICClient) : ℕ :=
  closeRank c.closeOnce + if c.users i = .close then 1 else 0

theorem Returning.step (h : Returning i c) (hi : c.users i = .close) : ∃ label c',
    c.LocksEmpty label ∧ c.step label = some c' ∧ Returning i c' ∧
      returnRank i c' < returnRank i c := by
  by_cases hdone : c.closeOnce = .done
  · have hstep : c.step (.user i none) = some ({ c with closeOnce := .done }.setUser i .idle) := by
      simp [QUICClient.step, h.up, userStep, hi, closeStep, hdone, Once.act]
    have hok : c.LocksEmpty (.user i none) := fun hrun => by simp [hdone] at hrun
    refine ⟨_, _, hok, hstep, ⟨step_calm h.calm hok hstep, .inl ?_, h.up, by rintro ⟨⟩⟩, ?_⟩
    · simp [setUser]
    · simp [returnRank, setUser, hdone, hi]
  · obtain ⟨j, r, hj, hr, husers, hpanic, hrank, hempty⟩ := h.calm.closes hi hdone h.empty
    have hok : c.LocksEmpty (.user j none) := fun hrun => h.empty (by rw [hrun]; rfl)
    have hstep : c.step (.user j none) = some (if r.2 then r.1.setUser j .idle else r.1) := by
      simp [QUICClient.step, h.up, userStep, hj, hr]
    refine ⟨_, _, hok, hstep, ?_, ?_⟩
    · have hcalm := step_calm h.calm hok hstep
      split_ifs at hcalm ⊢
      · refine ⟨hcalm, ?_, hpanic.trans h.up, hempty⟩
        by_cases hij : i = j <;> simp [setUser, husers, hi, hij]
      · exact ⟨hcalm, .inr (husers ▸ hi), hpanic.trans h.up, hempty⟩
    · unfold returnRank
      split_ifs <;> simp_all [setUser]
      omega

/-- Where no flow is registered when `close` locks `udpMu`, no goroutine locks the mutex while it
holds it, and every call of `close` can return. -/
theorem close_never_reenters (labels : List QUICStep) (c : QUICClient)
    (hpath : Path step LocksEmpty .initial labels c) (i : ℕ) :
    ¬c.Reenters i ∧ (c.users i = .close → c.panicked = false →
      (beforeLock c.closeOnce → c.udpFlows = ∅) →
        ∃ labels' c', Path step LocksEmpty c labels' c' ∧ c'.users i = .idle) := by
  have hkeep : ∀ (c : QUICClient) label c', c.Calm → c.LocksEmpty label →
      c.step label = some c' → c'.Calm := fun _ _ _ => step_calm
  have h := hpath.invariant hkeep rfl
  refine ⟨h.not_reenters i, fun hi hup hempty => ?_⟩
  have hprog (c : QUICClient) (hc : Returning i c) := hc.user.imp_right hc.step
  exact Path.exists_finish (returnRank i) hprog ⟨h, .inr hi, hup, hempty⟩

/-- Goroutine 0 opens flow 1 and closes the client, by way of `n` actions of `Close`. -/
def shutdownRun (n : ℕ) : List QUICStep :=
  [.openUDPFlow 0 1, .user 0 none, .closeFlow 0 0] ++ List.replicate n (.user 0 none) ++
    [.close 0, .user 0 none]

theorem close_after_flow_returns : ∃ c, Path step LocksEmpty .initial (shutdownRun 4) c ∧
    ¬c.Reenters 0 ∧ ∃ labels c', Path step LocksEmpty c labels c' ∧ c'.users 0 = .idle := by
  refine Path.exists_of_run_imp (P := fun c => c.users 0 = .close ∧ c.panicked = false ∧
      c.udpFlows = ∅) (by decide +kernel) fun c hc ⟨hclose, hup, hempty⟩ => ?_
  obtain ⟨hnot, hreturn⟩ := close_never_reenters _ c hc 0
  exact ⟨hnot, hreturn hclose hup fun _ => hempty⟩

/-- A client that is closed with a flow registered locks `udpMu` for the `Close` of the flow, and
stays there. -/
theorem close_reenters : ∃ c, Path step anyLabel .initial
    [.openUDPFlow 0 1, .user 0 none, .close 0, .user 0 none, .user 0 none, .user 0 none,
      .user 0 (some 1), .user 0 none] c ∧ c.Reenters 0 ∧ ∀ next, c.step (.user 0 next) = none := by
  refine Path.exists_of_run_imp (P := fun c => c.udpMu = some 0 ∧ c.users 0 = .close ∧
      c.closeOnce = .running 0 (.closeFlow 0 [1]) ∧ (c.flows 0).once = .running 0 .delete)
    (by decide +kernel) fun c hc ⟨hmu, hclose, hrun, honce⟩ => ?_
  refine ⟨⟨hmu, by simp [Locks, hclose, hrun, honce]⟩, fun next => ?_⟩
  simp [step, userStep, hclose, closeStep, hrun, Once.act, closeBody, closeFlowStep, honce,
    flowBody, hmu]

end QUICClient
end VlfProto.Client
