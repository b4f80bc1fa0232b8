import VlfProto.Relay.Download
import VlfProto.Relay.Polling

/-! # The answers to one client's polls -/

namespace VlfProto.Relay
open Platform Transition Option

def CallPc.uploads : CallPc → Bool
  | .idle => true
  | .finished _ => true
  | pc => pc.sending

namespace Conn

/-- Call 0 polls; the other calls upload; no read from the target overflows the ring. -/
def Polled (c : Conn) : ConnStep → Prop
  | .call i (.send _) => i ≠ 0
  | .call i (.recv max) => i = 0 ∧ max = 32768
  | .call _ .close => False
  | label => c.FitsDownstream label

instance (c : Conn) (label : ConnStep) : Decidable (c.Polled label) := by
  unfold Polled
  split <;> infer_instance

def answerBy (c : Conn) : ConnStep → List RecvResponse
  | .collect 0 =>
    match c.callers 0 with
    | .finished result => (handleRecv result).toList
    | _ => []
  | _ => []

def Drained (c : Conn) : Prop := c.downstream.closed ∧ c.downstream.size = 0

/-- The connection agrees with what its answers have told. -/
def Matches (c : Conn) : Told → Prop
  | .nothing => c.once = .idle ∧ c.closed = false ∧ c.registered = true
  | .ended => c.once = .idle ∧ c.closed = false ∧ c.registered = true ∧ c.Drained
  | .removed => c.registered = false

/-- So it does once the answer that the polling call is preparing is given. -/
def Reflects (c : Conn) (told : Told) : CallPc → Prop
  | .idle => c.Matches told
  | .recvLookup max => max = 32768 ∧ c.Matches told
  | .recvClosed _ => told ≠ .removed ∧ c.Matches told
  | .recvRead _ => told ≠ .removed ∧ c.Matches told
  | .closeLookup missing found =>
    missing = .received [] true ∧ found = .received [] true ∧ told ≠ .removed
  | .closing found => found = .received [] true ∧ told ≠ .removed
  | .finished result => ∃ resp told', handleRecv result = some resp ∧
      told.next resp = some told' ∧ c.Matches told'
  | _ => False

variable {c c' : Conn} {i : ℕ} {ok : Bool} {told : Told} {pc : CallPc} {label : ConnStep}

theorem read_of_drained {b : RingBuffer} (hclosed : b.closed) (hsize : b.size = 0) (max : ℤ) :
    b.read max = (b, [], true) := by
  simp [RingBuffer.read, hclosed, hsize]

theorem step_drained (hc : c.Consistent) (h : c.step label = some c') (hd : c.Drained) :
    c'.Drained := by
  obtain ⟨hclosed, hsize⟩ := hd
  unfold Drained
  cases step_ringMoves hc h with
  | deliver _ hring | other _ _ hring => rw [hring]; exact ⟨hclosed, hsize⟩
  | write _ _ _ hring =>
    rw [hring, RingBuffer.write_of_closed hclosed]
    exact ⟨hclosed, hsize⟩
  | recv _ max _ _ _ hring =>
    rw [hring, read_of_drained hclosed hsize]
    exact ⟨hclosed, hsize⟩
  | close _ _ _ hring => rw [hring]; exact ⟨rfl, hsize⟩

theorem Matches.of_same (hm : c.Matches told) (honce : c'.once = c.once)
    (hclosed : c'.closed = c.closed) (hregistered : c'.registered = c.registered)
    (hdrained : c.Drained → c'.Drained) : c'.Matches told := by
  cases told <;> simp only [Matches, honce, hclosed, hregistered] at hm ⊢
  case ended => exact ⟨hm.1, hm.2.1, hm.2.2.1, hdrained hm.2.2.2⟩
  all_goals exact hm

theorem Reflects.mono (hmatches : ∀ told, c.Matches told → c'.Matches told)
    (h : c.Reflects told pc) : c'.Reflects told pc := by
  cases pc <;> simp only [Reflects] at h ⊢
  case idle => exact hmatches told h
  case recvLookup | recvClosed | recvRead => exact ⟨h.1, hmatches told h.2⟩
  case closeLookup | closing => exact h
  case finished =>
    obtain ⟨resp, told', hresp, hnext, hm⟩ := h
    exact ⟨resp, told', hresp, hnext, hmatches told' hm⟩

theorem uploads_ne_closing (hpc : (c.callers i).uploads) (found : CallResult) :
    c.callers i ≠ .closing found := by
  intro hclosing
  rw [hclosing] at hpc
  cases hpc

theorem callerStep_uploads (hpc : (c.callers i).uploads) (h : c.callerStep i ok = some c') :
    (c'.callers i).uploads := by
  cases hcall : c.callers i <;> rw [hcall] at hpc <;>
    simp only [CallPc.uploads, CallPc.sending, Bool.false_eq_true] at hpc <;>
    simp only [callerStep, hcall, some.injEq, reduceCtorEq] at h
  case loopSend =>
    subst h
    unfold sendLoopStep
    split_ifs <;> simp [setCaller, CallPc.uploads, CallPc.sending]
  case enqueueQueued => subst h; simp [setCaller, CallPc.uploads]
  all_goals
    subst h
    simp only [setCaller, Function.update_self, loopHead]
    split_ifs <;> rfl

theorem handleRecv_drained (htold : told ≠ .removed) :
    ∃ resp, handleRecv (.received [] true) = some resp ∧ told.next resp = some .removed := by
  cases told
  case removed => exact absurd rfl htold
  all_goals exact ⟨_, rfl, rfl⟩

theorem recvRead_reflects {max : ℤ} (htold : told ≠ .removed) (hm : c.Matches told) :
    { c with downstream := (c.downstream.read max).1 }.Reflects told
      (if (c.downstream.read max).2.2 ∧ (c.downstream.read max).2.1 = [] then
        .closeLookup (.received [] true) (.received [] true)
      else .finished (.received (c.downstream.read max).2.1 (c.downstream.read max).2.2)) := by
  split_ifs with hdrained
  · exact ⟨rfl, rfl, htold⟩
  · cases told with
    | removed => exact absurd rfl htold
    | ended =>
      obtain ⟨-, -, -, hclosed, hsize⟩ := hm
      simp [read_of_drained hclosed hsize] at hdrained
    | nothing =>
      by_cases hdata : (c.downstream.read max).2.1 = []
      · have heos : (c.downstream.read max).2.2 = false := by simpa [hdata] using hdrained
        refine ⟨.noContent, .nothing, by simp [handleRecv, hdata, heos], rfl, hm⟩
      · refine ⟨⟨200, (c.downstream.read max).2.1, (c.downstream.read max).2.2⟩,
          if (c.downstream.read max).2.2 then .ended else .nothing,
          by simp [handleRecv, hdata], by simp [Told.next, hdata], ?_⟩
        cases heos : (c.downstream.read max).2.2 with
        | false => exact hm
        | true =>
          obtain ⟨hclosed, hcontents⟩ := RingBuffer.read_eos _ max heos
          have hsize := RingBuffer.length_contents (c.downstream.read max).1
          rw [hcontents] at hsize
          refine ⟨hm.1, hm.2.1, hm.2.2, ?_, hsize.symm⟩
          exact (RingBuffer.read_closed _ max).trans hclosed

theorem Matches.setCaller (hm : c.Matches told) : (c.setCaller i pc).Matches told := by
  cases told <;> exact hm

theorem Reflects.setCaller {pc' : CallPc} (h : c.Reflects told pc) :
    (c.setCaller i pc').Reflects told pc :=
  h.mono fun _ => Matches.setCaller

theorem callerStep_reflects (hc : c.Consistent) (hr : c.Reflects told (c.callers 0))
    (h : c.callerStep 0 ok = some c') : c'.Reflects told (c'.callers 0) := by
  have hnext {c : Conn} {pc : CallPc} (hpc : c.Reflects told pc) :
      (c.setCaller 0 pc).Reflects told ((c.setCaller 0 pc).callers 0) := by
    simpa [Conn.setCaller] using hpc.setCaller
  cases hcall : c.callers 0 <;> rw [hcall] at hr <;> simp only [Reflects] at hr <;>
    simp only [callerStep, hcall, some.injEq, reduceCtorEq] at h
  case recvLookup max =>
    subst h
    apply hnext
    split_ifs with hregistered
    · refine ⟨?_, hr.2⟩
      rintro rfl
      simp [Matches, hregistered] at hr
    · cases told <;> simp only [Matches, hregistered, Bool.false_eq_true, and_false, false_and]
        at hr
      exact ⟨_, .removed, rfl, rfl, by simpa [Matches] using hregistered⟩
  case recvClosed max =>
    subst h
    have hopen : c.closed = false := by
      obtain ⟨htold, hm⟩ := hr
      cases told
      case removed => exact absurd rfl htold
      case nothing | ended => exact hm.2.1
    apply hnext
    rw [hopen]
    exact hr
  case recvRead max =>
    subst h
    exact hnext (recvRead_reflects hr.1 hr.2)
  case closeLookup missing found =>
    obtain ⟨rfl, rfl, htold⟩ := hr
    subst h
    apply hnext
    split_ifs with hregistered
    · exact ⟨rfl, htold⟩
    · obtain ⟨resp, hresp, htold'⟩ := handleRecv_drained htold
      exact ⟨resp, .removed, hresp, htold', by simpa [Matches] using hregistered⟩
  case closing found =>
    obtain ⟨rfl, htold⟩ := hr
    obtain ⟨r, hclose, rfl⟩ := map_eq_some_iff.mp h
    have hg : c.InClose (.caller 0) := ⟨_, hcall⟩
    split_ifs with hreturned
    · have hdone := closeStep_consistent hc hg hclose
      obtain ⟨resp, hresp, htold'⟩ := handleRecv_drained htold
      exact hnext ⟨resp, .removed, hresp, htold',
        hdone.unregistered (closeStep_returned hclose hreturned)⟩
    · rw [(closeStep_frame hclose).callers, hcall]
      exact ⟨rfl, htold⟩

end Conn

/-! ### Polling one connection -/

/-- A connection with the answers its polling client has received. -/
structure Polling where
  conn : Conn
  answered : List RecvResponse

namespace Polling

def new (recvWindow sendWindow : ℤ) : Polling := ⟨.new recvWindow sendWindow, []⟩

def step (s : Polling) (label : ConnStep) : Option Polling :=
  (s.conn.step label).map fun conn => ⟨conn, s.answered ++ s.conn.answerBy label⟩

variable {s s' : Polling} {label : ConnStep} {c' : Conn} {i : ℕ}

structure Sound (s : Polling) : Prop where
  consistent : s.conn.Consistent
  reader : s.conn.reader ≠ .closing
  others : ∀ i, i ≠ 0 → (s.conn.callers i).uploads
  told : ∃ told, Told.nothing.run s.answered = some told ∧
    s.conn.Reflects told (s.conn.callers 0)

theorem new_sound (recvWindow sendWindow : ℤ) : (new recvWindow sendWindow).Sound where
  consistent := Conn.new_consistent recvWindow sendWindow
  reader := by simp [new, Conn.new]
  others _ _ := rfl
  told := ⟨.nothing, rfl, rfl, rfl, rfl⟩

/-- A step outside `Close` that moves neither call 0 nor the calls' roles. -/
theorem Sound.of_keeps (hs : s.Sound) (hstep : s.conn.step label = some c')
    (hreader : c'.reader ≠ .closing) (honce : c'.once = s.conn.once)
    (hclosed : c'.closed = s.conn.closed) (hregistered : c'.registered = s.conn.registered)
    (hothers : ∀ i, i ≠ 0 → (c'.callers i).uploads) (hcall : c'.callers 0 = s.conn.callers 0)
    (answered : List RecvResponse) (hanswered : answered = []) :
    Sound ⟨c', s.answered ++ answered⟩ where
  consistent := Conn.step_consistent hs.consistent hstep
  reader := hreader
  others := hothers
  told := by
    obtain ⟨told, hrun, hreflects⟩ := hs.told
    refine ⟨told, by rw [hanswered, List.append_nil]; exact hrun, ?_⟩
    rw [hcall]
    exact hreflects.mono fun _ hm => hm.of_same honce hclosed hregistered
      (Conn.step_drained hs.consistent hstep)

theorem call_sound {request : Request} (hs : s.Sound) (hpolled : s.conn.Polled (.call i request))
    (h : s.conn.step (.call i request) = some c') :
    Sound ⟨c', s.answered ++ s.conn.answerBy (.call i request)⟩ := by
  have hc' := Conn.step_consistent hs.consistent h
  obtain ⟨hidle, rfl⟩ := of_guard h
  cases request with
  | close => exact hpolled.elim
  | send data =>
    refine hs.of_keeps h hs.reader rfl rfl rfl (fun j hj => ?_) ?_ _ rfl
    · by_cases hji : j = i
      · simp [Conn.setCaller, hji, Conn.firstPc, CallPc.uploads, CallPc.sending]
      · simpa [Conn.setCaller, hji] using hs.others j hj
    · simp [Conn.setCaller, Function.update_of_ne (Ne.symm hpolled)]
  | recv max =>
    obtain ⟨rfl, rfl⟩ := hpolled
    obtain ⟨told, hrun, hreflects⟩ := hs.told
    rw [hidle] at hreflects
    refine ⟨hc', hs.reader, fun j hj => ?_, told, by simpa [Conn.answerBy] using hrun, ?_⟩
    · simpa [Conn.setCaller, hj] using hs.others j hj
    · simpa [Conn.setCaller, Conn.firstPc, Conn.Reflects] using Conn.Matches.setCaller hreflects

theorem caller_sound {ok : Bool} (hs : s.Sound) (h : s.conn.step (.caller i ok) = some c') :
    Sound ⟨c', s.answered ++ s.conn.answerBy (.caller i ok)⟩ := by
  have hreader : c'.reader ≠ .closing := Conn.callerStep_reader h ▸ hs.reader
  by_cases hi : i = 0
  · subst hi
    obtain ⟨told, hrun, hreflects⟩ := hs.told
    refine ⟨Conn.step_consistent hs.consistent h, hreader, fun j hj => ?_, told,
      by simpa [Conn.answerBy] using hrun, Conn.callerStep_reflects hs.consistent hreflects h⟩
    rw [Conn.callerStep_other h hj]
    exact hs.others j hj
  · have hm := Conn.callerStep_moves (Conn.uploads_ne_closing (hs.others i hi)) h
    refine hs.of_keeps h hreader hm.once hm.closed hm.registered (fun j hj => ?_)
      (hm.callers 0 (Ne.symm hi)) _ rfl
    by_cases hji : j = i
    · rw [hji]
      exact Conn.callerStep_uploads (hs.others i hi) h
    · rw [hm.callers j hji]
      exact hs.others j hj

theorem collect_sound (hs : s.Sound) (h : s.conn.step (.collect i) = some c') :
    Sound ⟨c', s.answered ++ s.conn.answerBy (.collect i)⟩ := by
  have hc' := Conn.step_consistent hs.consistent h
  obtain ⟨⟨result, hfinished⟩, rfl⟩ := Conn.collect_cases h
  have hothers (j : ℕ) (hj : j ≠ 0) : ((s.conn.setCaller i .idle).callers j).uploads := by
    by_cases hji : j = i
    · simp [Conn.setCaller, hji, CallPc.uploads]
    · simpa [Conn.setCaller, hji] using hs.others j hj
  by_cases hi : i = 0
  · subst hi
    obtain ⟨told, hrun, hreflects⟩ := hs.told
    rw [hfinished] at hreflects
    obtain ⟨resp, told', hresp, hnext, hm⟩ := hreflects
    refine ⟨hc', hs.reader, hothers, told', ?_, ?_⟩
    · simp only [Conn.answerBy, hfinished, hresp, Option.toList_some]
      rw [Told.run_append, hrun]
      simp [Told.run, hnext]
    · simpa [Conn.setCaller, Conn.Reflects] using hm.setCaller
  · refine hs.of_keeps h hs.reader rfl rfl rfl hothers ?_ _ ?_
    · simp [Conn.setCaller, Function.update_of_ne (Ne.symm hi)]
    · obtain ⟨i, rfl⟩ := Nat.exists_eq_succ_of_ne_zero hi
      rfl

theorem step_sound (hs : s.Sound) (hpolled : s.conn.Polled label)
    (h : s.step label = some s') : s'.Sound := by
  obtain ⟨c', hstep, rfl⟩ := Option.map_eq_some_iff.mp h
  cases label with
  | start =>
    obtain ⟨-, rfl⟩ := of_guard hstep
    exact hs.of_keeps hstep (by simp) rfl rfl rfl hs.others rfl _ rfl
  | reader data err =>
    have hm := Conn.readerStep_moves hs.reader hstep
    have hfits : s.conn.FitsDownstream (.reader data err) := hpolled
    refine hs.of_keeps hstep (Conn.step_not_closing hfits hs.reader hstep) hm.once hm.closed
      hm.registered ?_ (by rw [hm.callers]) _ rfl
    rw [hm.callers]
    exact hs.others
  | writer ok n =>
    have hm := Conn.writerStep_moves hstep
    refine hs.of_keeps hstep (hm.reader ▸ hs.reader) hm.once hm.closed hm.registered ?_
      (by rw [hm.callers]) _ rfl
    rw [hm.callers]
    exact hs.others
  | call i request => exact call_sound hs hpolled hstep
  | caller i ok => exact caller_sound hs hstep
  | collect i => exact collect_sound hs hstep

/-- Over the answers of the gateway, `Read` is faithful for all buffer sizes exactly when each
answer brings data or is without content, and never a hundred in a row are without content. -/
theorem faithful_iff_keepsComing (recvWindow sendWindow : ℤ) (labels : List ConnStep)
    (s : Polling) (hpath : Path step (fun s label => s.conn.Polled label)
      (new recvWindow sendWindow) labels s) :
    (∀ sizes, RelayTCPFlow.Faithful [] [] s.answered sizes) ↔
      RelayTCPFlow.KeepsComing 0 s.answered := by
  have hkeep : ∀ (s : Polling) label s', s.Sound → s.conn.Polled label →
      s.step label = some s' → s'.Sound :=
    fun _ _ _ hs hpolled hstep => step_sound hs hpolled hstep
  obtain ⟨told, hrun, -⟩ := (hpath.invariant hkeep (new_sound recvWindow sendWindow)).told
  rw [RelayTCPFlow.faithful_iff_loop]
  exact RelayTCPFlow.faithfulLoop_iff (show 99 < 100 by omega) (by simp [Signalled]) hrun

/-- The target sends one byte and the client polls. -/
def byteRun : List ConnStep :=
  [.start, .reader [] none, .reader [7] none, .reader [] none, .call 0 (.recv 32768),
    .caller 0 true, .caller 0 true, .caller 0 true, .collect 0]

theorem byteRun_faithful :
    ∃ s, Path step (fun s label => s.conn.Polled label) (new 1 1) byteRun s ∧
      s.answered = [⟨200, [7], false⟩] ∧
      ∀ sizes, RelayTCPFlow.Faithful [] [] s.answered sizes := by
  refine Path.exists_of_run_imp (P := fun s => s.answered = [⟨200, [7], false⟩])
    (by decide +kernel) fun s hpath hanswered => ?_
  refine ⟨hanswered, (faithful_iff_keepsComing 1 1 byteRun s hpath).mpr ?_⟩
  rw [hanswered]
  simp [RelayTCPFlow.KeepsComing]

/-- The target ends without sending anything; the client polls, and the call that
finds the ring drained closes the connection. -/
def endRun : List ConnStep :=
  [.start, .reader [] none, .reader [] (some .eof)] ++ List.replicate 5 (.reader [] none) ++
    [.writer false 0, .writer false 0, .call 0 (.recv 32768)] ++
    List.replicate 13 (.caller 0 true) ++ [.collect 0]

/-- The mark of the end makes `Read` return nothing at all. -/
theorem endRun_unfaithful :
    ∃ s, Path step (fun s label => s.conn.Polled label) (new 1 1) endRun s ∧
      s.answered = [⟨200, [], true⟩] ∧
      RelayTCPFlow.read [] 1 [] s.answered = some ⟨[], none, [], s.answered, []⟩ ∧
      ¬RelayTCPFlow.Faithful [] [] s.answered [1] := by
  refine Path.exists_of_run_imp (P := fun s => s.answered = [⟨200, [], true⟩])
    (by decide +kernel) fun s hpath hanswered => ?_
  refine ⟨hanswered, by rw [hanswered]; rfl, fun hfaithful => ?_⟩
  rw [hanswered] at hfaithful
  have heof := (hfaithful _ rfl).1.eof_iff.mpr ⟨⟨_, List.mem_singleton_self _, rfl, rfl⟩, rfl, rfl⟩
  cases heof

end Polling
end VlfProto.Relay
