import VlfProto.Platform.Text

/-!
# One flow of the TCP-session client

A push into a full channel drops what it carries. `Read` first serves the leftover of the
last chunk; with none left it takes whichever ready branch of its select the runtime picks.
-/
namespace VlfProto.Client
open Platform

inductive FlowError where
  | eof
  | other (code : ℕ)
  deriving DecidableEq

structure FramedFlow where
  buf : Bytes
  dataCh : List Bytes
  dataClosed : Bool
  errCh : List FlowError
  deriving DecidableEq

/-- The branch that a select in `Read` takes. -/
inductive Branch where
  | data
  | err
  | done

inductive ReadResult where
  | data (bytes : Bytes)
  | fail (err : FlowError)

namespace FramedFlow

def dataCap : ℕ := 1024
def errCap : ℕ := 1

def new : FramedFlow := ⟨[], [], false, []⟩

/-- A send on the closed channel panics. -/
def pushData (f : FramedFlow) (data : Bytes) : Option FramedFlow :=
  if f.dataClosed then none
  else if f.dataCh.length < dataCap then some { f with dataCh := f.dataCh ++ [data] }
  else some f

def pushErr (f : FramedFlow) (err : FlowError) : FramedFlow :=
  if f.errCh.length < errCap then { f with errCh := f.errCh ++ [err] } else f

def closeData (f : FramedFlow) : FramedFlow := { f with dataClosed := true }

/-- Hand out up to `n` bytes of the leftover. -/
def readBuf (f : FramedFlow) (n : ℕ) : FramedFlow × ReadResult :=
  ({ f with buf := f.buf.drop n }, .data (f.buf.take n))

/-- One `Read` into a buffer of `n` bytes, taking `branch` when it has to
select; `none` while that branch is not ready. -/
def read (f : FramedFlow) (ctxDone : Bool) (n : ℕ) (branch : Branch) :
    Option (FramedFlow × ReadResult) :=
  if f.buf ≠ [] then some (f.readBuf n)
  else
    match branch with
    | .data =>
      match f.dataCh with
      | [] => if f.dataClosed then some (f, .fail .eof) else none
      | data :: dataCh =>
        let f := { f with dataCh }
        if data = [] then some (f, .fail .eof) else some ({ f with buf := data }.readBuf n)
    | .err =>
      match f.errCh with
      | [] => none
      | err :: errCh => some ({ f with errCh }, .fail err)
    | .done => if ctxDone then some (f, .fail .eof) else none

/-- The bytes a reader has not got yet. -/
def pending (f : FramedFlow) : Bytes := f.buf ++ f.dataCh.flatten

/-- An end of the stream that a select could take now. -/
def EndReady (f : FramedFlow) (ctxDone : Bool) : Prop :=
  f.errCh ≠ [] ∨ ctxDone = true ∨ f.dataCh.head? = some [] ∨ (f.dataCh = [] ∧ f.dataClosed = true)

instance (f : FramedFlow) (ctxDone : Bool) : Decidable (f.EndReady ctxDone) := by
  unfold EndReady
  infer_instance

variable {f f' : FramedFlow} {ctxDone : Bool} {n : ℕ} {branch : Branch} {bytes data : Bytes}
  {err : FlowError}

theorem pushErr_data (f : FramedFlow) (err : FlowError) :
    (f.pushErr err).buf = f.buf ∧ (f.pushErr err).dataCh = f.dataCh ∧
      (f.pushErr err).dataClosed = f.dataClosed := by
  unfold pushErr
  split_ifs <;> exact ⟨rfl, rfl, rfl⟩

/-- What a `Read` can do: serve the leftover, open the next chunk, or report an
end that was ready. -/
theorem read_cases {result : ReadResult} (h : f.read ctxDone n branch = some (f', result)) :
    (f.buf ≠ [] ∧ f' = { f with buf := f.buf.drop n } ∧ result = .data (f.buf.take n)) ∨
    (f.buf = [] ∧ ∃ data rest, f.dataCh = data :: rest ∧ data ≠ [] ∧
      f' = { f with dataCh := rest, buf := data.drop n } ∧ result = .data (data.take n)) ∨
    (f.buf = [] ∧ f.EndReady ctxDone ∧ f'.pending = f.pending ∧ f'.dataClosed = f.dataClosed ∧
      ∃ err, result = .fail err) := by
  unfold read at h
  by_cases hbuf : f.buf = []
  · rw [if_neg (not_not.mpr hbuf)] at h
    refine .inr ?_
    cases branch with
    | data =>
      dsimp only at h
      cases hch : f.dataCh with
      | nil =>
        rw [hch] at h
        dsimp only at h
        split_ifs at h with hclosed
        cases h
        exact .inr ⟨hbuf, .inr (.inr (.inr ⟨hch, hclosed⟩)), rfl, rfl, _, rfl⟩
      | cons data rest =>
        rw [hch] at h
        dsimp only at h
        split_ifs at h with hempty
        · cases h
          refine .inr ⟨hbuf, .inr (.inr (.inl (by rw [hch, hempty]; rfl))), ?_, rfl, _, rfl⟩
          simp [pending, hch, hempty]
        · cases h
          exact .inl ⟨hbuf, data, rest, rfl, hempty, rfl, rfl⟩
    | err =>
      dsimp only at h
      cases hch : f.errCh with
      | nil => simp [hch] at h
      | cons err rest =>
        rw [hch] at h
        cases h
        exact .inr ⟨hbuf, .inl (by simp [hch]), rfl, rfl, _, rfl⟩
    | done =>
      dsimp only at h
      split_ifs at h with hdone
      cases h
      exact .inr ⟨hbuf, .inr (.inl hdone), rfl, rfl, _, rfl⟩
  · rw [if_pos hbuf] at h
    cases h
    exact .inl ⟨hbuf, rfl, rfl⟩

/-- A successful `Read` takes its bytes off the front of what is pending. -/
theorem read_data (h : f.read ctxDone n branch = some (f', .data bytes)) :
    f.pending = bytes ++ f'.pending ∧ f'.dataClosed = f.dataClosed := by
  obtain ⟨-, rfl, hbytes⟩ | ⟨hbuf, data, rest, hch, -, rfl, hbytes⟩ | ⟨-, -, -, -, err, ⟨⟩⟩ :=
    read_cases h
  · obtain rfl := ReadResult.data.inj hbytes
    simp [pending, ← List.append_assoc]
  · obtain rfl := ReadResult.data.inj hbytes
    simp [pending, hbuf, hch, ← List.append_assoc]

theorem read_fail (h : f.read ctxDone n branch = some (f', .fail err)) :
    f.buf = [] ∧ f.EndReady ctxDone ∧ f'.pending = f.pending ∧ f'.dataClosed = f.dataClosed := by
  obtain ⟨-, -, ⟨⟩⟩ | ⟨-, -, -, -, -, -, ⟨⟩⟩ | ⟨hbuf, hend, hpending, hclosed, -⟩ := read_cases h
  exact ⟨hbuf, hend, hpending, hclosed⟩

end FramedFlow
end VlfProto.Client
