import VlfProto.Transit.TCPConn

/-! # What courteous sides do not lose -/

namespace VlfProto.Transit
open Platform Transition Option

theorem Side.other_other (x : Side) : x.other.other = x := by cases x <;> rfl

theorem Side.eq_other_of_ne {x y : Side} (h : y ≠ x) : y = x.other := by
  cases x <;> cases y <;> simp_all [other]

theorem Side.other_ne (x : Side) : x.other ≠ x := by cases x <;> nofun

/-- The handler has taken the first result. -/
def TCPHandlerPc.past : TCPHandlerPc → Bool
  | .dial => false
  | .first => false
  | _ => true

namespace TCPConn

variable {s s' : TCPConn} {x y : Side} {f : Flow} {label : TCPConnStep} {ok : Bool} {n : ℕ}

theorem setFlow_flows_of_ne (h : y ≠ x) : (s.setFlow x f).flows y = s.flows y :=
  Function.update_of_ne h _ _

theorem setFlow_flows_self : (s.setFlow x f).flows x = f := Function.update_self _ _ _

theorem forall_setFlow {P : Flow → Prop} (hs : ∀ y, P (s.flows y)) (hf : P f) (y : Side) :
    P ((s.setFlow x f).flows y) := by
  by_cases hy : y = x
  · subst hy
    rwa [setFlow_flows_self]
  · rw [setFlow_flows_of_ne hy]
    exact hs y

/-- All that was sent has been written, and no more will be sent. -/
structure Complete (s : TCPConn) : Prop where
  fin : ∃ x, (s.flows x).fin
  through : ∀ x, (s.flows x).Through

/-- A goroutine has nothing more to copy, or the handler knows of one or has acted on
it. -/
inductive Finishing (s : TCPConn) : Prop
  | copier (x : Side) (h : (s.flows x).copier.past)
  | errCh (h : s.errCh ≠ 0)
  | handler (h : s.handler.past)
  | closed (x : Side) (h : s.closed x)

structure Whole (s : TCPConn) : Prop where
  flows : ∀ x, (s.flows x).Whole
  unreset : ∀ x, s.reset x = false
  answered : ∀ x, (s.flows x).fin →
    (s.flows x.other).received = (s.flows x.other).sent.length
  undialed : s.handler = .dial → ∀ x, (s.flows x).copier = .notStarted
  dialed : s.handler ≠ .dial → ∀ x, (s.flows x).copier ≠ .notStarted
  complete : s.Finishing → s.Complete

theorem new_whole : new.Whole where
  flows _ := ⟨rfl, le_rfl, le_rfl, rfl⟩
  unreset _ := rfl
  answered _ h := by cases h
  undialed _ _ := rfl
  dialed h := absurd rfl h
  complete h := by
    cases h with
    | copier x h | handler h | closed x h => cases h
    | errCh h => exact absurd rfl h

theorem Complete.setFlow (hs : s.Complete) (hf : f.Through) (hfin : (s.flows x).fin → f.fin) :
    (s.setFlow x f).Complete where
  fin := by
    obtain ⟨y, hy⟩ := hs.fin
    refine ⟨y, ?_⟩
    by_cases hyx : y = x
    · subst hyx
      rw [setFlow_flows_self]
      exact hfin hy
    · rwa [setFlow_flows_of_ne hyx]
  through := forall_setFlow hs.through hf

theorem Whole.setFlow (hs : s.Whole) (hf : f.Whole)
    (hfin : f.fin → (s.flows x.other).received = (s.flows x.other).sent.length)
    (hanswered : (s.flows x.other).fin → f.received = f.sent.length)
    (hstarted : f.copier = .notStarted ↔ (s.flows x).copier = .notStarted)
    (hcomplete : s.Complete ∨ f.copier.past → (s.setFlow x f).Complete) :
    (s.setFlow x f).Whole where
  flows := forall_setFlow hs.flows hf
  unreset := hs.unreset
  answered y hy := by
    by_cases hyx : y = x
    · subst hyx
      rw [setFlow_flows_self] at hy
      rw [setFlow_flows_of_ne y.other_ne]
      exact hfin hy
    · obtain rfl := Side.eq_other_of_ne hyx
      rw [setFlow_flows_of_ne hyx] at hy
      rw [Side.other_other, setFlow_flows_self]
      exact hanswered hy
  undialed h := forall_setFlow (P := fun f => f.copier = .notStarted) (hs.undialed h)
    (hstarted.mpr (hs.undialed h x))
  dialed h := forall_setFlow (P := fun f => f.copier ≠ .notStarted) (hs.dialed h)
    (hstarted.not.mpr (hs.dialed h x))
  complete h := by
    cases h with
    | copier y hy =>
      by_cases hyx : y = x
      · subst hyx
        rw [setFlow_flows_self] at hy
        exact hcomplete (.inr hy)
      · rw [setFlow_flows_of_ne hyx] at hy
        exact hcomplete (.inl (hs.complete (.copier y hy)))
    | errCh h => exact hcomplete (.inl (hs.complete (.errCh h)))
    | handler h => exact hcomplete (.inl (hs.complete (.handler h)))
    | closed y h => exact hcomplete (.inl (hs.complete (.closed y h)))

theorem Whole.through_other (hs : s.Whole) (hfin : (s.flows x).fin) :
    (s.flows x.other).Through :=
  (hs.flows _).through_of_received (hs.answered x hfin)

theorem Whole.complete_of_fin (hs : s.Whole) (hfin : (s.flows x).fin)
    (hthrough : (s.flows x).Through) : s.Complete where
  fin := ⟨x, hfin⟩
  through y := by
    by_cases hyx : y = x
    · exact hyx ▸ hthrough
    · exact Side.eq_other_of_ne hyx ▸ hs.through_other hfin

theorem Whole.complete_of_unusable (hs : s.Whole) (h : s.usable x = false) : s.Complete := by
  refine hs.complete (.closed x ?_)
  simpa [usable, hs.unreset x] using h

theorem copierStep_whole (hs : s.Whole) (h : s.copierStep x n = some s') : s'.Whole := by
  unfold copierStep at h
  split_ifs at h with hsend
  · cases h
    have hcomplete := hs.complete (.copier x (by rw [hsend]; rfl))
    have hnext : (s.setCopier x .stopped).Complete :=
      hcomplete.setFlow ⟨(hcomplete.through x).1, rfl⟩ id
    have hrelayed := (hs.flows x).relayed
    rw [hsend] at hrelayed
    have hset : (s.setCopier x .stopped).Whole :=
      hs.setFlow { hs.flows x with relayed := hrelayed } (hs.answered x)
        (fun hfin => by simpa [Side.other_other] using hs.answered _ hfin) (by simp [hsend])
        fun _ => hnext
    exact { hset with complete := fun _ => { hnext with } }
  · obtain ⟨f, hf, rfl⟩ := map_eq_some_iff.mp h
    have hcase := Flow.copyStep_cases hf
    obtain ⟨hsent, hfin, hreceived, -, hold, hnew⟩ := hcase.frame
    have hunusable : s.usable x = false ∨ s.usable x.other = false → s.Complete :=
      fun h => h.elim hs.complete_of_unusable hs.complete_of_unusable
    have hwhole := hcase.whole (hs.flows x) fun h => (hunusable h).through x
    refine hs.setFlow hwhole ?_ ?_ (by simp [hold, hnew]) fun h => ?_
    · rw [hfin]
      exact hs.answered x
    · rw [hsent, hreceived]
      intro hfin
      simpa [Side.other_other] using hs.answered _ hfin
    · have hcomplete : s.Complete := by
        rcases h with h | hpast
        · exact h
        · rcases hcase.through_of_past (hs.flows x) hpast with h | h | ⟨hthrough, hfin⟩
          · exact hs.complete (.copier x h)
          · exact hunusable h
          · exact hs.complete_of_fin hfin hthrough
      exact hcomplete.setFlow (hcase.through (hcomplete.through x)) (by rw [hfin]; exact id)

theorem close_whole {pc : TCPHandlerPc} (hs : s.Whole) (hpast : s.handler.past)
    (hpc : pc ≠ .dial) : { s.close x with handler := pc }.Whole where
  flows := hs.flows
  unreset := hs.unreset
  answered := hs.answered
  undialed h := absurd h hpc
  dialed _ := hs.dialed (by rintro h; rw [h] at hpast; cases hpast)
  complete _ := { hs.complete (.handler hpast) with }

theorem take_whole {pc : TCPHandlerPc} {errCh : ℕ} (hs : s.Whole) (hcomplete : s.Complete)
    (hold : s.handler ≠ .dial) (hpc : pc ≠ .dial) :
    { s with errCh := errCh, handler := pc }.Whole where
  flows := hs.flows
  unreset := hs.unreset
  answered := hs.answered
  undialed h := absurd h hpc
  dialed _ := hs.dialed hold
  complete _ := { hcomplete with }

theorem startCopiers_whole (hs : s.Whole) (hpc : s.handler = .dial) : s.startCopiers.Whole := by
  have hcomplete : s.Complete → s.startCopiers.Complete :=
    fun h => ⟨h.fin, fun x => ⟨(h.through x).1, rfl⟩⟩
  refine ⟨fun x => ?_, hs.unreset, hs.answered, nofun, fun _ _ => by simp [startCopiers],
    fun h => ?_⟩
  · have hrelayed := (hs.flows x).relayed
    rw [hs.undialed hpc x] at hrelayed
    exact { hs.flows x with relayed := hrelayed }
  · cases h with
    | copier x h | handler h => cases h
    | errCh h => exact hcomplete (hs.complete (.errCh h))
    | closed x h => exact hcomplete (hs.complete (.closed x h))

theorem handlerStep_whole (hs : s.Whole) (h : s.handlerStep true = some s') : s'.Whole := by
  cases hpc : s.handler <;> simp only [handlerStep, hpc, if_true, reduceCtorEq] at h
  case dial =>
    cases h
    exact startCopiers_whole hs hpc
  case first | second =>
    split_ifs at h with herr
    cases h
    exact take_whole hs (hs.complete (.errCh herr)) (by simp [hpc]) (by simp)
  case closeClient | closeBackend | deferBackend | deferClient =>
    cases h
    exact close_whole hs (by rw [hpc]; rfl) (by simp)

theorem Whole.answered_other (hs : s.Whole) (hfin : (s.flows x.other).fin) :
    (s.flows x).received = (s.flows x).sent.length := by
  simpa [Side.other_other] using hs.answered _ hfin

theorem send_whole {data : Bytes} (hs : s.Whole) (hok : (s.flows x.other).fin = false)
    (h : s.step (.send x data) = some s') : s'.Whole := by
  simp only [step, ite_none_right_eq_some, some.injEq] at h
  obtain ⟨hmay, rfl⟩ := h
  simp only [maySend, Bool.and_eq_true, Bool.not_eq_true'] at hmay
  have hopen : (s.flows x).fin = false := hmay.1.1
  have hincomplete : ¬s.Complete := by
    rintro ⟨⟨y, hy⟩, -⟩
    by_cases hyx : y = x
    · rw [hyx, hopen] at hy
      cases hy
    · rw [Side.eq_other_of_ne hyx, hok] at hy
      cases hy
  have hf := hs.flows x
  refine hs.setFlow { hf with relayed := ?_, taken_le := ?_ } (by simp [hopen]) (by simp [hok])
    Iff.rfl ?_
  · change _ = ((s.flows x).sent ++ data).take (s.flows x).taken
    rw [List.take_append_of_le_length hf.taken_le]
    exact hf.relayed
  · exact hf.taken_le.trans (by simp)
  · rintro (h | h)
    · exact absurd h hincomplete
    · exact absurd (hs.complete (.copier x h)) hincomplete

theorem fin_whole (hs : s.Whole)
    (hok : (s.flows x.other).received = (s.flows x.other).sent.length)
    (h : s.step (.fin x) = some s') : s'.Whole := by
  simp only [step, ite_none_right_eq_some, some.injEq] at h
  obtain ⟨-, rfl⟩ := h
  refine hs.setFlow { hs.flows x with } (fun _ => hok) hs.answered_other Iff.rfl fun h => ?_
  have hcomplete : s.Complete := h.elim id fun h => hs.complete (.copier x h)
  exact hcomplete.setFlow (hcomplete.through x) fun _ => rfl

theorem receive_whole (hs : s.Whole) (h : s.step (.receive x n) = some s') : s'.Whole := by
  simp only [step, ite_none_left_eq_some, some.injEq, not_or] at h
  obtain ⟨⟨-, -, hne⟩, rfl⟩ := h
  have hf := hs.flows x
  refine hs.setFlow { hf with received_le := min_le_right _ _ } (hs.answered x) (fun hfin => ?_)
    Iff.rfl fun h => ?_
  · have hreceived := hs.answered_other hfin
    have hwritten := hf.written_eq (hf.through_of_received hreceived)
    exact absurd (hwritten ▸ hreceived) hne
  · have hcomplete : s.Complete := h.elim id fun h => hs.complete (.copier x h)
    exact hcomplete.setFlow (hcomplete.through x) id

theorem Whole.not_aborted (hs : s.Whole) (x : Side) : s.aborted x = false := by
  cases hclosed : s.closed x with
  | false => simp [aborted, hs.unreset, hclosed]
  | true =>
    have hthrough := (hs.complete (.closed x hclosed)).through x
    simp [aborted, hs.unreset, hthrough.unread]

theorem step_whole (s : TCPConn) (label : TCPConnStep) (s' : TCPConn) (hs : s.Whole)
    (hok : s.Courteous label) (h : s.step label = some s') : s'.Whole := by
  cases label with
  | handler ok =>
    obtain rfl : ok = true := hok
    exact handlerStep_whole hs h
  | copier x n => exact copierStep_whole hs h
  | send x data => exact send_whole hs hok h
  | fin x => exact fin_whole hs hok h
  | reset x => exact absurd hok id
  | receive x n => exact receive_whole hs h
  | lose x => simp [step, hs.not_aborted] at h

end TCPConn
end VlfProto.Transit
