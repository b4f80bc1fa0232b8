import VlfProto.Relay.Upload

/-! # What `Write` acknowledges -/

namespace VlfProto.Relay.Upload
open Platform Transition Option

variable {u u' : Upload} {label : ConnStep} {conn : Conn}

structure Sound (u : Upload) : Prop where
  others : ∀ i, i ≠ 0 → (u.conn.callers i).sending = false
  idle : u.writing = none → u.conn.callers 0 = .idle ∧ u.conn.enqueued = u.reported
  takes : ∀ p, u.writing = some p → ∃ taken, u.conn.enqueued = u.reported ++ taken ∧
    Conn.Takes p taken (u.conn.callers 0)

theorem new_sound (recvWindow sendWindow : ℤ) : (new recvWindow sendWindow).Sound where
  others _ _ := rfl
  idle _ := ⟨rfl, rfl⟩
  takes _ h := by cases h

theorem Sound.of_same (hu : u.Sound) (hcallers : conn.callers = u.conn.callers)
    (henqueued : conn.enqueued = u.conn.enqueued) : { u with conn }.Sound where
  others i hi := hcallers ▸ hu.others i hi
  idle h := by
    rw [hcallers, henqueued]
    exact hu.idle h
  takes p h := by
    rw [hcallers, henqueued]
    exact hu.takes p h

theorem Sound.setCaller {i : ℕ} {pc : CallPc} (hu : u.Sound) (hi : i ≠ 0)
    (hpc : pc.sending = false) : { u with conn := u.conn.setCaller i pc }.Sound where
  others j hj := by
    by_cases hji : j = i
    · simp [Conn.setCaller, hji, hpc]
    · simpa [Conn.setCaller, hji] using hu.others j hj
  idle h := by simpa [Conn.setCaller, Function.update_of_ne hi.symm] using hu.idle h
  takes p h := by simpa [Conn.setCaller, Function.update_of_ne hi.symm] using hu.takes p h

theorem caller_sound {i : ℕ} {ok : Bool} (hu : u.Sound)
    (hroom : u.RoomForRest (.gateway (.caller i ok))) (h : u.conn.callerStep i ok = some conn) :
    { u with conn }.Sound := by
  by_cases hi : i = 0
  · subst hi
    refine ⟨fun j hj => ?_, fun hnone => ?_, fun p hp => ?_⟩
    · exact (Conn.callerStep_other h hj) ▸ hu.others j hj
    · simp [Conn.callerStep, (hu.idle hnone).1] at h
    · obtain ⟨taken, henqueued, htakes⟩ := hu.takes p hp
      obtain ⟨more, hmore, htakes'⟩ := Conn.callerStep_takes hroom htakes h
      refine ⟨taken ++ more, ?_, htakes'⟩
      rw [hmore, henqueued, List.append_assoc]
  · obtain ⟨hquiet, henqueued⟩ := Conn.callerStep_not_sending (hu.others i hi) h
    have hzero := Conn.callerStep_other h (Ne.symm hi)
    refine ⟨fun j hj => ?_, fun hnone => ?_, fun p hp => ?_⟩
    · by_cases hji : j = i
      · rw [hji]
        exact hquiet
      · exact (Conn.callerStep_other h hji) ▸ hu.others j hj
    · rw [hzero, henqueued]
      exact hu.idle hnone
    · rw [hzero, henqueued]
      exact hu.takes p hp

theorem gateway_sound (hu : u.Sound) (hlabel : gatewayLabel label)
    (hroom : u.RoomForRest (.gateway label)) (h : u.conn.step label = some conn) :
    { u with conn }.Sound := by
  cases label with
  | start =>
    obtain ⟨-, rfl⟩ := of_guard h
    exact hu.of_same rfl rfl
  | reader data err =>
    obtain ⟨hcallers, henqueued⟩ := Conn.readerStep_upload h
    exact hu.of_same hcallers henqueued
  | writer ok n =>
    have hm := Conn.writerStep_moves h
    exact hu.of_same hm.callers hm.enqueued
  | caller i ok => exact caller_sound hu hroom h
  | call i request =>
    obtain ⟨-, rfl⟩ := of_guard h
    have hi : i ≠ 0 := by
      rintro rfl
      simp [gatewayLabel] at hlabel
    refine hu.setCaller hi ?_
    cases request with
    | send data => simp [gatewayLabel] at hlabel
    | recv max | close => rfl
  | collect i =>
    obtain ⟨-, rfl⟩ := Conn.collect_cases h
    have hi : i ≠ 0 := by
      rintro rfl
      simp [gatewayLabel] at hlabel
    exact hu.setCaller hi rfl

theorem write_sound {p : Bytes} (hu : u.Sound) (hnone : u.writing = none)
    (h : u.conn.step (.call 0 (.send p)) = some conn) :
    { u with conn, writing := some p }.Sound := by
  obtain ⟨-, rfl⟩ := of_guard h
  refine ⟨fun i hi => ?_, fun hsome => (by cases hsome), fun q hq => ?_⟩
  · simpa [Conn.setCaller, hi] using hu.others i hi
  · cases hq
    refine ⟨[], ?_, ?_⟩
    · simpa [Conn.setCaller] using (hu.idle hnone).2
    · simp [Conn.setCaller, Conn.firstPc, Conn.Takes]

theorem answer_sound {p : Bytes} {result : CallResult} (hu : u.Sound) (hp : u.writing = some p)
    (hfinished : u.conn.callers 0 = .finished result) (h : u.conn.step (.collect 0) = some conn) :
    Sound { conn, writing := none, reported := u.reported ++ p.take (writeResult p result).1 } := by
  obtain ⟨-, rfl⟩ := Conn.collect_cases h
  refine ⟨fun i hi => ?_, fun _ => ⟨?_, ?_⟩, fun q hq => (by cases hq)⟩
  · simpa [Conn.setCaller, hi] using hu.others i hi
  · simp [Conn.setCaller]
  · obtain ⟨taken, henqueued, htakes⟩ := hu.takes p hp
    rw [hfinished] at htakes
    obtain rfl : taken = p.take (writeResult p result).1 := htakes
    exact henqueued

theorem step_sound {label : UploadStep} (hu : u.Sound) (hroom : u.RoomForRest label)
    (h : u.step label = some u') : u'.Sound := by
  cases label with
  | write p authorized =>
    obtain ⟨⟨hnone, -⟩, h⟩ := ite_none_right_eq_some.mp h
    split_ifs at h with hskip
    · cases h
      exact hu
    · obtain ⟨conn, hconn, rfl⟩ := map_eq_some_iff.mp h
      exact write_sound hu hnone hconn
  | gateway label =>
    obtain ⟨hlabel, h⟩ := ite_none_right_eq_some.mp h
    obtain ⟨conn, hconn, rfl⟩ := map_eq_some_iff.mp h
    exact gateway_sound hu hlabel hroom hconn
  | answer =>
    simp only [step] at h
    split at h
    · rename_i p result hp hfinished
      obtain ⟨conn, hconn, rfl⟩ := map_eq_some_iff.mp h
      exact answer_sound hu hp hfinished hconn
    · cases h

/-- When `Enqueue` never stops inside a payload, `Write` reports exactly what was
put on the queue. -/
theorem acknowledged_of_roomForRest (recvWindow sendWindow : ℤ) (labels : List UploadStep)
    (u : Upload) (hpath : Path step RoomForRest (new recvWindow sendWindow) labels u) :
    u.Acknowledged := by
  have hkeep : ∀ (u : Upload) label u', u.Sound → u.RoomForRest label →
      u.step label = some u' → u'.Sound :=
    fun _ _ _ hu hroom hstep => step_sound hu hroom hstep
  have hu := hpath.invariant hkeep (new_sound recvWindow sendWindow)
  exact fun hnone => (hu.idle hnone).2.symm

/-- One `Write` of `p` whose request goes through `n` steps of the handler. -/
def writeRun (p : Bytes) (n : ℕ) : List UploadStep :=
  [.gateway .start, .write p true] ++ List.replicate n (.gateway (.caller 0 true)) ++ [.answer]

theorem threeBytes_acknowledged :
    ∃ u, Path step RoomForRest (new 1 3) (writeRun [1, 2, 3] 10) u ∧ u.writing = none ∧
      u.reported = [1, 2, 3] ∧ u.Acknowledged := by
  refine Path.exists_of_run_imp (P := fun u => u.writing = none ∧ u.reported = [1, 2, 3])
    (by decide +kernel) fun u hpath ⟨hwriting, hreported⟩ => ?_
  exact ⟨hwriting, hreported, acknowledged_of_roomForRest 1 3 _ u hpath⟩

/-- With a window of one chunk, the last byte of a payload of one chunk and one byte
is reported and never put on the queue. -/
theorem chunkAndByte_lost :
    ∃ u, Path step anyLabel (new 1 4096) (writeRun (List.replicate 4097 0) 13) u ∧
      u.writing = none ∧ u.reported.length = 4097 ∧ u.conn.enqueued.length = 4096 ∧
      ¬u.Acknowledged := by
  refine Path.exists_of_run_imp (P := fun u => u.writing = none ∧ u.reported.length = 4097 ∧
      u.conn.enqueued.length = 4096)
    (by decide +kernel) fun u hpath ⟨hwriting, hreported, henqueued⟩ => ?_
  refine ⟨hwriting, hreported, henqueued, fun hacknowledged => ?_⟩
  rw [hacknowledged hwriting, henqueued] at hreported
  omega

end VlfProto.Relay.Upload
