import VlfProto.Platform.Counting
import VlfProto.Session.QUIC.Opens

/-!
# The goroutines of a QUIC session

The moves of the goroutines, without what they read and write: which of them are live, what the
wait group counts and who may call the limiter. The copying goroutines are not counted.
-/
namespace VlfProto.Session
open Platform Transition Function

/-- The goroutines that the wait group counts. -/
inductive Waited where
  | control
  | acceptor
  | pinger
  | datagramReader
  | worker (i : ℕ)
  | handler (i : ℕ)
  | reader (k : ℕ)
  deriving DecidableEq

def ControlPc.live : ControlPc → Bool
  | .notStarted | .stopped => false
  | _ => true

def AcceptorPc.live : AcceptorPc → Bool
  | .notStarted | .stopped => false
  | _ => true

def PingerPc.live : PingerPc → Bool
  | .notStarted | .stopped => false
  | _ => true

def DatagramReaderPc.live : DatagramReaderPc → Bool
  | .notStarted | .stopped => false
  | _ => true

def WorkerPc.live : WorkerPc → Bool
  | .notStarted | .stopped => false
  | _ => true

def StreamPc.live : StreamPc → Bool
  | .notAccepted | .stopped => false
  | _ => true

def UDPReadPc.live : UDPReadPc → Bool
  | .notStarted | .stopped => false
  | _ => true

/-- The copying goroutine has data in hand for which it calls the limiter next. -/
def CopyPc.metering : CopyPc → Bool
  | .limit _ _ => true
  | _ => false

/-- The UDP flow whose loop the control loop has still to start. -/
def ControlPc.opens : ControlPc → Option ℕ
  | .insert ⟨.udp, k⟩ _ => some k
  | .writeOpenOK ⟨.udp, k⟩ _ => some k
  | .spawn k => some k
  | _ => none

/-- `Run` has waited for the goroutines, or has not started any. -/
def SessionRunPc.ended : SessionRunPc → Bool
  | .unregister => true
  | .deferredClose => true
  | .returned => true
  | _ => false

structure Threads where
  id : UInt64
  limits : Limits.Manager
  run : SessionRunPc
  live : Waited → Bool
  opens : Option ℕ
  copies : ℕ → CopyDirection → CopyPc
  accepted : ℕ
  udpCreated : ℕ
  wg : ℕ

namespace Threads

variable {t t' : Threads} {g g' : Waited} {brings : Prop}

def started (t : Threads) (n : ℕ) : Waited → Bool
  | .worker i => i < n
  | .handler i => t.live (.handler i)
  | .reader k => t.live (.reader k)
  | _ => true

/-- One move of a goroutine; `brings` tells whether a copying one may have read data. -/
inductive Move (brings : Prop) (t : Threads) : Threads → Prop
  | same : Move brings t t
  | own {g : Waited} {live : Bool} {opens : Option ℕ} {copies : ℕ → CopyDirection → CopyPc}
      {limits : Limits.Manager} {wg : ℕ} (hlive : t.live g)
      (hwg : wg = if live then t.wg else t.wg - 1)
      (hopens : ∀ k, opens = some k → t.opens = some k)
      (hcopies : ∀ j, g ≠ .handler j → copies j = t.copies j) :
      Move brings t { t with
        live := update t.live g live
        opens := opens
        copies := copies
        limits := limits
        wg := wg }
  | create (hlive : t.live .control) :
      Move brings t { t with
        live := update t.live (.reader t.udpCreated) false
        opens := some t.udpCreated
        udpCreated := t.udpCreated + 1 }
  | spawn {k : ℕ} (hlive : t.live .control) (hopens : t.opens = some k) :
      Move brings t { t with
        live := update t.live (.reader k) true
        opens := none
        wg := t.wg + 1 }
  | accept (hlive : t.live .acceptor) :
      Move brings t { t with
        live := update t.live (.handler t.accepted) true
        accepted := t.accepted + 1
        wg := t.wg + 1 }
  | copy {i : ℕ} {dir : CopyDirection} {copies : ℕ → CopyDirection → CopyPc}
      {limits : Limits.Manager} (hstarted : t.copies i dir ≠ .notStarted)
      (hcopies : ∀ j, j ≠ i → copies j = t.copies j)
      (hlimits : (t.copies i dir).metering = false → limits = t.limits)
      (hheld : ∀ d, (copies i d).metering → (t.copies i d).metering ∨ brings) :
      Move brings t { t with copies := copies, limits := limits }
  | run {pc : SessionRunPc} (hearly : pc.early → t.run.early)
      (hended : pc.ended → t.run.early ∨ t.run.ended ∨ t.wg = 0)
      (hkeeps : t.run = .deferredClose ∨ t.run = .returned →
        pc = .deferredClose ∨ pc = .returned) : Move brings t { t with run := pc }
  | unregister (hrun : t.run = .unregister) :
      Move brings t { t with run := .deferredClose, limits := t.limits.cleanupSession t.id }
  | start {n : ℕ} (hrun : t.run.early) :
      Move brings t { t with
        run := .waitDone
        live := t.started n
        opens := none
        wg := t.wg + n + 4 }

/-- No goroutine is left that the wait group counts. -/
def Dead (t : Threads) : Prop := ∀ g, t.live g = false

/-- The wait group counts the goroutines that are left. -/
structure Grouped (t : Threads) : Prop where
  wg : Counts t.live t.wg
  unaccepted : ∀ i, t.accepted ≤ i →
    t.live (.handler i) = false ∧ ∀ dir, t.copies i dir = .notStarted
  opens : ∀ k, t.opens = some k → k < t.udpCreated
  unread : ∀ k, t.udpCreated ≤ k ∨ t.opens = some k → t.live (.reader k) = false
  idle : t.run.early ∨ t.run.ended → t.Dead

theorem Grouped.busy (h : t.Grouped) (hlive : t.live g) (hended : t.run.early ∨ t.run.ended) :
    t'.Dead := by
  simp [h.idle hended g] at hlive

theorem ne_of_live (hlive : t.live g) (hg' : t.live g' = false) : g' ≠ g := by
  rintro rfl
  simp [hg'] at hlive

theorem update_eq_false {live : Bool} (hne : g' ≠ g) (h : t.live g' = false) :
    update t.live g live g' = false := (update_of_ne hne _ _).trans h

theorem counts_started (n : ℕ) (h : t.Dead) : Counts (t.started n) (n + 4) := by
  refine ⟨{.control, .acceptor, .pinger, .datagramReader} ∪
    (Finset.range n).image .worker, fun g => ?_, ?_⟩
  · cases g <;> simp [started, h _]
  · rw [Finset.card_union_of_disjoint (by simp [Finset.disjoint_left]),
      Finset.card_image_of_injective _ fun _ _ => Waited.worker.inj, Finset.card_range, add_comm]
    rfl

theorem Move.grouped (hmove : t.Move brings t') (h : t.Grouped) : t'.Grouped := by
  cases hmove with
  | same => exact h
  | @own g live opens copies limits wg hlive hwg hopens hcopies =>
    subst hwg
    refine ⟨?_, fun i hi => ?_, fun k hk => h.opens k (hopens k hk), fun k hk => ?_,
      h.busy hlive⟩
    · cases live with
      | true =>
        have hsame : update t.live g true = t.live := by rw [← hlive, update_eq_self]
        change Counts (update t.live g true) t.wg
        rw [hsame]
        exact h.wg
      | false => exact h.wg.stop hlive
    · obtain ⟨hhandler, hcopy⟩ := h.unaccepted i hi
      have hne := ne_of_live hlive hhandler
      exact ⟨update_eq_false hne hhandler, fun dir =>
        (congrFun (hcopies i hne.symm) dir).trans (hcopy dir)⟩
    · have hreader := h.unread k (hk.imp_right (hopens k))
      exact update_eq_false (ne_of_live hlive hreader) hreader
  | create hlive =>
    have hsame : update t.live (.reader t.udpCreated) false = t.live := by
      rw [← h.unread t.udpCreated (.inl le_rfl), update_eq_self]
    rw [hsame]
    refine { h with opens := ?_, unread := fun k hk => h.unread k (.inl ?_), idle := h.busy hlive }
    · rintro k ⟨⟩
      exact Nat.lt_succ_self _
    · rcases hk with hk | ⟨⟨⟩⟩
      · exact Nat.le_of_succ_le hk
      · exact le_rfl
  | @spawn k hlive hopens =>
    refine { h with
      wg := h.wg.start (h.unread k (.inr hopens))
      unaccepted := h.unaccepted
      opens := by rintro j ⟨⟩
      unread := fun j hj => ?_
      idle := h.busy hlive }
    obtain hj | ⟨⟨⟩⟩ := hj
    refine update_eq_false ?_ (h.unread j (.inl hj))
    rintro ⟨⟩
    exact hj.not_gt (h.opens k hopens)
  | accept hlive =>
    refine { h with
      wg := h.wg.start (h.unaccepted _ le_rfl).1
      unaccepted := fun i hi => ?_
      unread := h.unread
      idle := h.busy hlive }
    refine (h.unaccepted i (Nat.le_of_succ_le hi)).imp_left (update_eq_false ?_)
    rintro ⟨⟩
    exact Nat.not_succ_le_self _ hi
  | @copy i dir copies limits hstarted hcopies _ _ =>
    refine { h with unaccepted := fun j hj => ⟨(h.unaccepted j hj).1, fun dir' => ?_⟩ }
    have hne : j ≠ i := by
      rintro rfl
      exact hstarted ((h.unaccepted j hj).2 dir)
    exact (congrFun (hcopies j hne) dir').trans ((h.unaccepted j hj).2 dir')
  | run hearly hended hkeeps =>
    refine { h with idle := fun hidle => ?_ }
    rcases hidle with he | he
    · exact h.idle (.inl (hearly he))
    · rcases hended he with he | he | hwg
      · exact h.idle (.inl he)
      · exact h.idle (.inr he)
      · exact (hwg ▸ h.wg).eq_false
  | unregister hrun => exact { h with idle := fun _ => h.idle (.inr (by rw [hrun]; rfl)) }
  | @start n hrun =>
    have hdead := h.idle (.inl hrun)
    refine { h with wg := ?_, opens := by rintro k ⟨⟩, unread := fun k _ => hdead (.reader k),
                    idle := by rintro (⟨⟨⟩⟩ | ⟨⟨⟩⟩) }
    change Counts (t.started n) (t.wg + n + 4)
    rw [h.wg.eq_zero hdead, zero_add]
    exact counts_started n hdead

/-- Nobody is left who will call the limiter unless more data comes, and the limiter has
forgotten the session. -/
structure Over (t : Threads) : Prop where
  run : t.run = .deferredClose ∨ t.run = .returned
  dead : t.Dead
  copies : ∀ i dir, (t.copies i dir).metering = false
  forgotten : t.limits.sessionBytes.lookup t.id = none ∧ t.limits.sessionPackets.lookup t.id = none

theorem Move.id_eq (hmove : t.Move brings t') : t'.id = t.id := by cases hmove <;> rfl

theorem Move.over (hmove : t.Move brings t') (hnothing : ¬ brings) (h : t.Over) : t'.Over := by
  obtain ⟨hrun, hdead, hcopies, hforgotten⟩ := h
  cases hmove with
  | same => exact ⟨hrun, hdead, hcopies, hforgotten⟩
  | own hlive | create hlive | spawn hlive | accept hlive => simp [hdead _] at hlive
  | @copy i dir copies limits hstarted hother hlimits hheld =>
    obtain rfl := hlimits (hcopies i dir)
    refine ⟨hrun, hdead, fun j d => ?_, hforgotten⟩
    by_cases hj : j = i
    · subst hj
      have hnone := hheld d
      simpa [hcopies, hnothing] using hnone
    · change (copies j d).metering = false
      rw [hother j hj]
      exact hcopies j d
  | run hearly hended hkeeps => exact ⟨hkeeps hrun, hdead, hcopies, hforgotten⟩
  | unregister h | start h => rcases hrun with hpc | hpc <;> rw [hpc] at h <;> cases h

end Threads
end VlfProto.Session
