import VlfProto.Relay.Upload

/-!
# Reading from a relayed flow by polling

`Read` hands over what an earlier answer left in its buffer, or polls the gateway until an
answer brings something, a hundred times at most. It never looks at the header that marks the
end of the stream: an answer with nothing but the mark makes it return no bytes and no error.
-/
namespace VlfProto.Relay
open Platform

/-- The answer to a poll. The flag is the header `X-VLF-EOS`. -/
structure RecvResponse where
  status : ℕ
  body : Bytes
  eos : Bool
  deriving DecidableEq

namespace RecvResponse

def noContent : RecvResponse := ⟨204, [], false⟩

/-- The JSON text of an error. -/
def failed (status : ℕ) (err : String) : RecvResponse :=
  ⟨status, ascii "\x7b\"error\":\"recv failed: " ++ ascii err ++ ascii "\"\x7d\n", false⟩

end RecvResponse

/-- The answer of `handleRecv` to a result of `Manager.Recv`. -/
def handleRecv : CallResult → Option RecvResponse
  | .received data eos => some (if data = [] ∧ ¬eos then .noContent else ⟨200, data, eos⟩)
  | .unknownConn => some (.failed 404 "unknown conn_id")
  | .connClosed => some (.failed 502 "relay connection closed")
  | _ => none

inductive ReadError where
  | eof
  | status (code : ℕ) (body : Bytes)

/-- What a call of `Read` returns and what it leaves in the buffer, with the answers
it has consumed and those that are still to come. -/
structure ReadOutcome where
  data : Bytes
  err : Option ReadError
  readBuf : Bytes
  polled : List RecvResponse
  rest : List RecvResponse

namespace RelayTCPFlow

/-- The loop over the attempts, with the answers polled so far; `none` while an
answer is outstanding. -/
def pollLoop (n : ℕ) : (attempts : ℕ) → (polled rest : List RecvResponse) → Option ReadOutcome
  | 0, polled, rest => some ⟨[], some .eof, [], polled, rest⟩
  | _ + 1, _, [] => none
  | attempts + 1, polled, resp :: rest =>
    if resp.status = 204 then pollLoop n attempts (polled ++ [resp]) rest
    else if resp.status ≠ 200 then
      some ⟨[], some (.status resp.status resp.body), [], polled ++ [resp], rest⟩
    else some ⟨resp.body.take n, none, resp.body.drop n, polled ++ [resp], rest⟩

/-- `Read` into a buffer of size `n`. -/
def read (readBuf : Bytes) (n : ℕ) (polled rest : List RecvResponse) : Option ReadOutcome :=
  if readBuf ≠ [] then some ⟨readBuf.take n, none, readBuf.drop n, polled, rest⟩
  else pollLoop n 100 polled rest

end RelayTCPFlow

/-- The gateway has marked the end of the stream. -/
def Signalled (polled : List RecvResponse) : Prop := ∃ resp ∈ polled, resp.status = 200 ∧ resp.eos

namespace ReadOutcome

/-- The call reports the end when the gateway has marked it and there was nothing
left to hand over, and only then; and once it is marked, no other error. -/
structure Honest (o : ReadOutcome) : Prop where
  eof_iff : o.err = some .eof ↔ Signalled o.polled ∧ o.data = [] ∧ o.readBuf = []
  no_error : Signalled o.polled → ∀ code body, o.err ≠ some (.status code body)

end ReadOutcome

namespace RelayTCPFlow

/-- Calls of `Read` with buffers of these sizes are all honest. A call for which the
answers run out has not returned. -/
def Faithful : (readBuf : Bytes) → (polled rest : List RecvResponse) → List ℕ → Prop
  | _, _, _, [] => True
  | readBuf, polled, rest, n :: sizes =>
    ∀ o, read readBuf n polled rest = some o → o.Honest ∧ Faithful o.readBuf o.polled o.rest sizes

/-- Each answer is without content or brings data, and never a hundred in a row are
without content; `idle` of them have just been. -/
def KeepsComing : (idle : ℕ) → List RecvResponse → Prop
  | _, [] => True
  | idle, resp :: rest =>
    if resp.status = 204 then idle + 1 < 100 ∧ KeepsComing (idle + 1) rest
    else resp.status = 200 ∧ resp.body ≠ [] ∧ KeepsComing 0 rest

end RelayTCPFlow

/-- What the gateway has told about the connection: nothing yet, that its end has
been reached, or, with an empty answer, that it is being removed. -/
inductive Told where
  | nothing
  | ended
  | removed
  deriving DecidableEq

namespace Told

/-- What an answer tells, if it can be given at all. -/
def next : Told → RecvResponse → Option Told
  | .nothing, resp =>
    if resp.status = 204 then if resp.body = [] ∧ ¬resp.eos then some .nothing else none
    else if resp.status ≠ 200 then none
    else if resp.body = [] then if resp.eos then some .removed else none
    else some (if resp.eos then .ended else .nothing)
  | .ended, resp =>
    if resp.status = 200 ∧ resp.body = [] ∧ resp.eos then some .removed else none
  | .removed, resp => if resp.status = 404 ∧ ¬resp.eos then some .removed else none

/-- What a sequence of answers tells, if it can be given. -/
def run : Told → List RecvResponse → Option Told
  | told, [] => some told
  | told, resp :: rest => (told.next resp).bind fun told => told.run rest

/-- An answer is without content, or brings data, or is the empty mark of the end, or
tells that the connection is gone. -/
theorem next_cases {told told' : Told} {resp : RecvResponse} (h : told.next resp = some told') :
    (resp.status = 204 ∧ told = .nothing ∧ told' = .nothing) ∨
    (resp.status = 200 ∧ resp.body ≠ [] ∧ told = .nothing ∧ (told' ≠ .nothing ↔ resp.eos)) ∨
    (resp.status = 200 ∧ resp.body = [] ∧ resp.eos) ∨
    (resp.status = 404 ∧ told = .removed) := by
  cases told <;> simp only [next] at h
  case nothing =>
    split_ifs at h with h204 hplain h200 hempty heos <;> simp_all
    cases heos : resp.eos <;> simp_all
    simp [← h]
  all_goals
    split_ifs at h with hresp
    simp_all

theorem run_append (told : Told) (first second : List RecvResponse) :
    told.run (first ++ second) = (told.run first).bind fun told => told.run second := by
  induction first generalizing told with
  | nil => rfl
  | cons resp first ih =>
    simp only [List.cons_append, run]
    cases told.next resp with
    | none => rfl
    | some told => exact ih told

end Told

theorem signalled_append (polled : List RecvResponse) (resp : RecvResponse) :
    Signalled (polled ++ [resp]) ↔ Signalled polled ∨ resp.status = 200 ∧ resp.eos := by
  simp [Signalled, or_and_right, exists_or]

/-- A call that had something to hand over is honest without an error. -/
theorem ReadOutcome.honest_of_pending {o : ReadOutcome} (herr : o.err = none)
    (hpending : o.data ++ o.readBuf ≠ []) : o.Honest where
  eof_iff := by
    rw [herr]
    refine iff_of_false (by simp) fun ⟨_, hdata, hbuf⟩ => hpending (by simp [hdata, hbuf])
  no_error _ code body := by simp [herr]

namespace RelayTCPFlow

variable {polled rest : List RecvResponse} {resp : RecvResponse} {attempts : ℕ} {told : Told}

/-- A call that is in its loop, and those after it, are all honest. -/
def FaithfulLoop (attempts : ℕ) (polled rest : List RecvResponse) : Prop :=
  ∀ n sizes o, pollLoop n attempts polled rest = some o →
    o.Honest ∧ Faithful o.readBuf o.polled o.rest sizes

theorem faithful_of_loop (h : FaithfulLoop 100 polled rest) (readBuf : Bytes) (sizes : List ℕ) :
    Faithful readBuf polled rest sizes := by
  induction sizes generalizing readBuf with
  | nil => trivial
  | cons n sizes ih =>
    intro o ho
    rw [read] at ho
    split_ifs at ho with hbuf
    · cases ho
      exact ⟨ReadOutcome.honest_of_pending rfl (by simpa using hbuf), ih _⟩
    · exact h n sizes o ho

theorem faithful_iff_loop :
    (∀ sizes, Faithful [] polled rest sizes) ↔ FaithfulLoop 100 polled rest :=
  ⟨fun h n sizes o ho => h (n :: sizes) o ho, fun h sizes => faithful_of_loop h [] sizes⟩

theorem faithfulLoop_noContent (hstatus : resp.status = 204) :
    FaithfulLoop (attempts + 1) polled (resp :: rest) ↔
      FaithfulLoop attempts (polled ++ [resp]) rest := by
  simp only [FaithfulLoop, pollLoop, hstatus, if_true]

theorem faithfulLoop_content (hstatus : resp.status = 200) (hbody : resp.body ≠ []) :
    FaithfulLoop (attempts + 1) polled (resp :: rest) ↔
      FaithfulLoop 100 (polled ++ [resp]) rest := by
  have hloop (n : ℕ) : pollLoop n (attempts + 1) polled (resp :: rest) =
      some ⟨resp.body.take n, none, resp.body.drop n, polled ++ [resp], rest⟩ := by
    simp [pollLoop, hstatus]
  constructor
  · intro h
    rw [← faithful_iff_loop]
    intro sizes
    have hwhole := (h resp.body.length sizes _ (hloop _)).2
    rwa [List.drop_length] at hwhole
  · intro h n sizes o ho
    rw [hloop] at ho
    cases ho
    exact ⟨ReadOutcome.honest_of_pending rfl (by simpa using hbody), faithful_of_loop h _ _⟩

/-- An empty answer that marks the end makes the call return neither bytes nor the
end. -/
theorem not_faithfulLoop_empty (hstatus : resp.status = 200) (hbody : resp.body = [])
    (heos : resp.eos) : ¬FaithfulLoop (attempts + 1) polled (resp :: rest) := by
  intro h
  have hloop : pollLoop 0 (attempts + 1) polled (resp :: rest) =
      some ⟨[], none, [], polled ++ [resp], rest⟩ := by simp [pollLoop, hstatus, hbody]
  have heof := (h 0 [] _ hloop).1.eof_iff.mpr
    ⟨(signalled_append polled resp).mpr (.inr ⟨hstatus, heos⟩), rfl, rfl⟩
  cases heof

/-- An error status after the end has been marked is reported as it is. -/
theorem not_faithfulLoop_status (hstatus : resp.status ≠ 204 ∧ resp.status ≠ 200)
    (hsignalled : Signalled polled) : ¬FaithfulLoop (attempts + 1) polled (resp :: rest) := by
  intro h
  have hloop : pollLoop 0 (attempts + 1) polled (resp :: rest) =
      some ⟨[], some (.status resp.status resp.body), [], polled ++ [resp], rest⟩ := by
    simp [pollLoop, hstatus.1, hstatus.2]
  exact (h 0 [] _ hloop).1.no_error ((signalled_append polled resp).mpr (.inl hsignalled)) _ _ rfl

/-- Giving up before the end has been marked reports an end that is none. -/
theorem not_faithfulLoop_zero (hsignalled : ¬Signalled polled) :
    ¬FaithfulLoop 0 polled rest := by
  intro h
  exact hsignalled ((h 0 [] _ rfl).1.eof_iff.mp rfl).1

/-- For answers that can follow what was told, the loop is faithful exactly when the
data keeps coming. -/
theorem faithfulLoop_iff {last : Told} (hattempts : attempts < 100)
    (hsignalled : Signalled polled ↔ told ≠ .nothing) (hrun : told.run rest = some last) :
    FaithfulLoop (attempts + 1) polled rest ↔ KeepsComing (99 - attempts) rest := by
  induction rest generalizing attempts polled told with
  | nil => simp [FaithfulLoop, pollLoop, KeepsComing]
  | cons resp rest ih =>
    obtain ⟨told', hnext, hrest⟩ := Option.bind_eq_some_iff.mp hrun
    have hmore := signalled_append polled resp
    rw [KeepsComing]
    rcases Told.next_cases hnext with ⟨hstatus, rfl, rfl⟩ | ⟨hstatus, hbody, rfl, htold⟩ |
      ⟨hstatus, hbody, heos⟩ | ⟨hstatus, rfl⟩
    · rw [if_pos hstatus, faithfulLoop_noContent hstatus]
      have hstill : Signalled (polled ++ [resp]) ↔ Told.nothing ≠ .nothing := by
        rw [hmore, hsignalled]
        simp [hstatus]
      cases attempts with
      | zero =>
        exact iff_of_false (not_faithfulLoop_zero (by simp [hstill])) (by omega)
      | succ attempts =>
        rw [ih (by omega) hstill hrest,
          show 99 - (attempts + 1) + 1 = 99 - attempts by omega]
        exact ⟨fun h => ⟨by omega, h⟩, fun h => h.2⟩
    · have hstill : Signalled (polled ++ [resp]) ↔ told' ≠ .nothing := by
        rw [hmore, hsignalled, htold]
        simp [hstatus]
      rw [if_neg (by omega), faithfulLoop_content hstatus hbody,
        ih (show 99 < 100 by omega) hstill hrest]
      exact ⟨fun h => ⟨hstatus, hbody, h⟩, fun h => h.2.2⟩
    · rw [if_neg (by omega)]
      exact iff_of_false (not_faithfulLoop_empty hstatus hbody heos) fun h => h.2.1 hbody
    · rw [if_neg (by omega)]
      exact iff_of_false (not_faithfulLoop_status (by omega) (by simp [hsignalled])) (by omega)

end RelayTCPFlow

end VlfProto.Relay
