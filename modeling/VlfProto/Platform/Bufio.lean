import VlfProto.Platform.Layout

/-!
# Buffered reading from a transport

A read of the transport returns bytes that have arrived, as many as there is room for, or
fails because the read deadline has passed; a later read goes on from there. Up to the first
such failure, the operations of the buffered reader do what the plain readers do on the bytes
that arrive before it, in whatever pieces these come.
-/
namespace VlfProto.Platform

/-- What a read of the transport meets: a piece of the stream, or a deadline. -/
inductive Arrival where
  | data (first : UInt8) (rest : Bytes)
  | deadline

/-- The bytes read ahead, what the transport has still to give, and the error of its
reads after that. -/
structure Bufio where
  buf : Bytes
  arrivals : List Arrival
  fault : ReadError

/-- An operation on a buffered reader, which may fail and still have consumed bytes. -/
abbrev Buffered (α : Type) := ExceptT (Stop ReadError) (StateM Bufio) α

namespace Bufio

def new (arrivals : List Arrival) (fault : ReadError) : Bufio := ⟨[], arrivals, fault⟩

def bufSize : ℕ := 4096

/-- The arrival of some bytes, if there are any. -/
def arriving : Bytes → List Arrival
  | [] => []
  | c :: rest => [.data c rest]

/-- A reader over a stream that arrives in the given pieces, with no deadline. -/
def chunked (chunks : List Bytes) (fault : ReadError) : Bufio :=
  .new (chunks.flatMap arriving) fault

/-- One read of the transport into `room` bytes, at least one. The part of a piece that
does not fit stays with the transport. -/
def transportRead (room : ℕ) : Buffered (UInt8 × Bytes) := fun b =>
  match b.arrivals with
  | [] => (.error (.error b.fault), b)
  | .deadline :: arrivals => (.error (.error .timeout), { b with arrivals })
  | .data c rest :: arrivals => (.ok (c, rest.take (room - 1)),
      { b with arrivals := arriving (rest.drop (room - 1)) ++ arrivals })

def readByte : Buffered UInt8 := fun b =>
  match b.buf with
  | c :: buf => (.ok c, { b with buf })
  | [] =>
    match transportRead bufSize b with
    | (.ok (c, rest), b) => (.ok c, { b with buf := rest })
    | (.error stop, b) => (.error stop, b)

/-- `Read` into `n` bytes, at least one; a large read goes around the buffer. -/
def read (n : ℕ) : Buffered Bytes := fun b =>
  if b.buf ≠ [] then (.ok (b.buf.take n), { b with buf := b.buf.drop n })
  else if bufSize ≤ n then
    match transportRead n b with
    | (.ok (c, rest), b) => (.ok (c :: rest), b)
    | (.error stop, b) => (.error stop, b)
  else
    match transportRead bufSize b with
    | (.ok (c, rest), b) => (.ok ((c :: rest).take n), { b with buf := (c :: rest).drop n })
    | (.error stop, b) => (.error stop, b)

/-- An end of the stream that comes after the first byte cuts something short. -/
def cutShort (started : Bool) : Stop ReadError → Stop ReadError
  | .error .eof => .error (if started then .unexpectedEOF else .eof)
  | stop => stop

theorem cutShort_error {α : Type} (started : Prop) [Decidable started] (e : ReadError) :
    (.error (cutShort started (.error e)) : Except (Stop ReadError) α) =
      if started ∧ e = .eof then .error (.error .unexpectedEOF) else .error (.error e) := by
  cases e <;> by_cases h : started <;> simp [cutShort, h]

/-- The loop of `ReadFull`, with the bytes that it has and the number that it needs. -/
def readFullLoop : (rounds need : ℕ) → Bytes → Buffered Bytes
  | 0, _, got => fun b => (.ok got, b)
  | rounds + 1, need, got => fun b =>
    if need = 0 then (.ok got, b)
    else
      match read need b with
      | (.ok chunk, b) => readFullLoop rounds (need - chunk.length) (got ++ chunk) b
      | (.error stop, b) => (.error (cutShort (got ≠ []) stop), b)

def readFull (n : ℕ) : Buffered Bytes := readFullLoop n n []

/-- The loop of `ReadUvarint` in its `i`-th round. -/
def uvarintLoop : (rounds i x shift : ℕ) → Buffered ℕ
  | 0, _, _, _ => fun b => (.error (.error .overflow), b)
  | rounds + 1, i, x, shift => fun b =>
    match readByte b with
    | (.error stop, b) => (.error (cutShort (0 < i) stop), b)
    | (.ok c, b) =>
      if c < 0x80 then
        if i = 9 ∧ 1 < c then (.error (.error .overflow), b)
        else (.ok (x ||| (c.toNat <<< shift) % 2 ^ 64), b)
      else
        uvarintLoop rounds (i + 1) (x ||| ((c &&& 0x7f).toNat <<< shift) % 2 ^ 64) (shift + 7) b

def readUvarint : Buffered ℕ := uvarintLoop 10 0 0 0

def makeSlice (n : ℕ) : Buffered Unit := fun b =>
  if maxAlloc < n then (.error .panic, b) else (.ok (), b)

/-- The bytes that arrive before the first deadline. -/
def ahead : List Arrival → Bytes
  | [] => []
  | .data c rest :: arrivals => c :: rest ++ ahead arrivals
  | .deadline :: _ => []

/-- What arrives from the first deadline on. -/
def behind : List Arrival → List Arrival
  | [] => []
  | .data _ _ :: arrivals => behind arrivals
  | .deadline :: arrivals => .deadline :: arrivals

/-- The stream as it looks up to the first deadline. -/
def source (b : Bufio) : Source :=
  ⟨b.buf ++ ahead b.arrivals, if behind b.arrivals = [] then b.fault else .timeout⟩

/-- The reader has moved on, but not past a deadline. -/
structure Forward (b b' : Bufio) : Prop where
  fault : b'.fault = b.fault
  behind : behind b'.arrivals = behind b.arrivals

/-- The reader after it has used up everything before the first deadline, and the
deadline. -/
def exhausted (b : Bufio) : Bufio := ⟨[], (behind b.arrivals).tail, b.fault⟩

variable {α β : Type} {b b' : Bufio} {n need rounds : ℕ} {p : Reader ReadError α} {q : Buffered α}

theorem Forward.refl (b : Bufio) : b.Forward b := ⟨rfl, rfl⟩

theorem Forward.trans {b'' : Bufio} (h : b.Forward b') (h' : b'.Forward b'') :
    b.Forward b'' := ⟨h'.fault.trans h.fault, h'.behind.trans h.behind⟩

theorem Forward.source_fault (h : b.Forward b') : b'.source.fault = b.source.fault := by
  simp only [source, h.fault, h.behind]

theorem ahead_arriving (rest : Bytes) (arrivals : List Arrival) :
    ahead (arriving rest ++ arrivals) = rest ++ ahead arrivals := by
  cases rest <;> rfl

theorem behind_arriving (rest : Bytes) (arrivals : List Arrival) :
    behind (arriving rest ++ arrivals) = behind arrivals := by
  cases rest <;> rfl

theorem ahead_flatMap_arriving (chunks : List Bytes) :
    ahead (chunks.flatMap arriving) = chunks.flatten := by
  induction chunks with
  | nil => rfl
  | cons chunk chunks ih => rw [List.flatMap_cons, ahead_arriving, ih, List.flatten_cons]

theorem behind_flatMap_arriving (chunks : List Bytes) : behind (chunks.flatMap arriving) = [] := by
  induction chunks with
  | nil => rfl
  | cons chunk chunks ih => rw [List.flatMap_cons, behind_arriving, ih]

theorem source_chunked (chunks : List Bytes) (fault : ReadError) :
    (chunked chunks fault).source = ⟨chunks.flatten, fault⟩ := by
  simp only [source, chunked, new, ahead_flatMap_arriving, behind_flatMap_arriving,
    List.nil_append, if_pos]

/-- Nothing is left before the deadline, or the end. -/
theorem transportRead_of_nil (h : ahead b.arrivals = []) (room : ℕ) :
    transportRead room b = (.error (.error b.source.fault),
      { b with arrivals := (behind b.arrivals).tail }) := by
  obtain ⟨buf, arrivals, fault⟩ := b
  rcases arrivals with _ | ⟨_ | _, arrivals⟩
  · rfl
  · cases h
  · rfl

/-- The transport gives some of the bytes before the deadline. -/
theorem transportRead_of_cons (h : ahead b.arrivals ≠ []) (room : ℕ) :
    ∃ c rest b', transportRead room b = (.ok (c, rest), b') ∧ b'.buf = b.buf ∧ b.Forward b' ∧
      rest.length ≤ room - 1 ∧ ahead b.arrivals = c :: rest ++ ahead b'.arrivals := by
  obtain ⟨buf, arrivals, fault⟩ := b
  rcases arrivals with _ | ⟨⟨c, rest⟩ | _, arrivals⟩
  · exact absurd rfl h
  · refine ⟨c, rest.take (room - 1), _, rfl, rfl, ⟨rfl, behind_arriving _ _⟩,
      List.length_take_le _ _, ?_⟩
    simp only [ahead, ahead_arriving, List.cons_append, ← List.append_assoc,
      List.take_append_drop]
  · exact absurd rfl h

theorem exhausted_of_nil (h : b.source.data = []) :
    b.exhausted = { b with arrivals := (behind b.arrivals).tail } := by
  obtain ⟨hbuf, -⟩ := List.append_eq_nil_iff.mp h
  rw [exhausted, ← hbuf]

theorem readByte_of_nil (h : b.source.data = []) :
    readByte b = (.error (.error b.source.fault), b.exhausted) := by
  obtain ⟨hbuf, hahead⟩ := List.append_eq_nil_iff.mp h
  rw [readByte, hbuf]
  dsimp only
  rw [transportRead_of_nil hahead, exhausted_of_nil h]

theorem readByte_of_cons {c : UInt8} {data : Bytes} (h : b.source.data = c :: data) :
    ∃ b', readByte b = (.ok c, b') ∧ b.Forward b' ∧ b'.source.data = data := by
  cases hbuf : b.buf with
  | cons c' buf =>
    rw [source, hbuf, List.cons_append] at h
    obtain ⟨rfl, rfl⟩ := List.cons.inj h
    refine ⟨{ b with buf }, ?_, ⟨rfl, rfl⟩, rfl⟩
    rw [readByte, hbuf]
  | nil =>
    have hdata : ahead b.arrivals = c :: data := by simpa [source, hbuf] using h
    obtain ⟨c', rest, b', hread, -, hforward, -, hahead⟩ :=
      transportRead_of_cons (b := b) (by simp [hdata]) bufSize
    rw [hdata, List.cons_append] at hahead
    obtain ⟨rfl, rfl⟩ := List.cons.inj hahead
    refine ⟨{ b' with buf := rest }, ?_, ⟨hforward.fault, hforward.behind⟩, rfl⟩
    rw [readByte, hbuf]
    dsimp only
    rw [hread]

theorem read_of_nil (h : b.source.data = []) (n : ℕ) :
    read n b = (.error (.error b.source.fault), b.exhausted) := by
  obtain ⟨hbuf, hahead⟩ := List.append_eq_nil_iff.mp h
  rw [read, if_neg (not_not.mpr hbuf)]
  split_ifs <;> rw [transportRead_of_nil hahead, exhausted_of_nil h]

/-- A read gives at least one byte when there is one. -/
theorem read_of_ne_nil (h : b.source.data ≠ []) (hn : 0 < n) :
    ∃ chunk b', read n b = (.ok chunk, b') ∧ b.Forward b' ∧ chunk ≠ [] ∧ chunk.length ≤ n ∧
      b.source.data = chunk ++ b'.source.data := by
  by_cases hbuf : b.buf = []
  · have hahead : ahead b.arrivals ≠ [] := by simpa [source, hbuf] using h
    rw [read, if_neg (not_not.mpr hbuf)]
    split_ifs with hlarge
    · obtain ⟨c, rest, b', hread, hbuf', hforward, hlength, hahead⟩ :=
        transportRead_of_cons hahead n
      refine ⟨c :: rest, b', by rw [hread], hforward, by simp, ?_, ?_⟩
      · rw [List.length_cons]
        omega
      · simp only [source, hbuf', hbuf, List.nil_append, hahead]
    · obtain ⟨c, rest, b', hread, hbuf', hforward, -, hahead⟩ :=
        transportRead_of_cons hahead bufSize
      refine ⟨(c :: rest).take n, { b' with buf := (c :: rest).drop n }, by rw [hread],
        ⟨hforward.fault, hforward.behind⟩, ?_, List.length_take_le _ _, ?_⟩
      · simp [Nat.pos_iff_ne_zero.mp hn]
      · simp only [source, hbuf, List.nil_append, hahead, ← List.append_assoc,
          List.take_append_drop]
  · refine ⟨b.buf.take n, { b with buf := b.buf.drop n }, by rw [read, if_pos hbuf], ⟨rfl, rfl⟩,
      ?_, List.length_take_le _ _, ?_⟩
    · simp [hbuf, Nat.pos_iff_ne_zero.mp hn]
    · simp only [source, ← List.append_assoc, List.take_append_drop]

/-- The outcome of an operation from `b` and that of a plain reader agree. -/
def Agrees (b : Bufio) :
    Except (Stop ReadError) α × Bufio → Except (Stop ReadError) (α × Source) → Prop
  | (r, b'), .ok (a, s) => r = .ok a ∧ b.Forward b' ∧ b'.source = s
  | (r, b'), .error stop => r = .error stop ∧ (b' = b.exhausted ∨ b.Forward b')

/-- Up to the first deadline, the operation does what the plain reader does. -/
def Implements (q : Buffered α) (p : Reader ReadError α) : Prop :=
  ∀ b : Bufio, b.Agrees (q b) (p b.source)

theorem bind_eq (q : Buffered α) (g : α → Buffered β) (b : Bufio) :
    (q >>= g) b = match q b with
      | (.ok a, b') => g a b'
      | (.error stop, b') => (.error stop, b') := by
  simp only [bind, ExceptT.bind, ExceptT.mk, StateT.bind, ExceptT.bindCont]
  rcases q b with ⟨_ | _, b'⟩ <;> rfl

theorem Forward.source_eq {data : Bytes} (h : b.Forward b') (hdata : b'.source.data = data) :
    b'.source = ⟨data, b.source.fault⟩ := by
  rw [← h.source_fault, ← hdata]

theorem Forward.exhausted (h : b.Forward b') : b'.exhausted = b.exhausted := by
  rw [Bufio.exhausted, Bufio.exhausted, h.behind, h.fault]

theorem Forward.agrees {r : Except (Stop ReadError) α × Bufio}
    {r' : Except (Stop ReadError) (α × Source)} (h : b.Forward b') (hr : b'.Agrees r r') :
    b.Agrees r r' := by
  cases r' with
  | error stop =>
    obtain ⟨hvalue, hstop⟩ := hr
    exact ⟨hvalue, hstop.imp (·.trans h.exhausted) h.trans⟩
  | ok r' =>
    obtain ⟨hvalue, hforward, hsource⟩ := hr
    exact ⟨hvalue, h.trans hforward, hsource⟩

theorem Implements.ok {a : α} {s : Source} (h : Implements q p) (hp : p b.source = .ok (a, s)) :
    ∃ b', q b = (.ok a, b') ∧ b.Forward b' ∧ b'.source = s := by
  have hagrees := h b
  rw [hp] at hagrees
  generalize q b = outcome at hagrees ⊢
  obtain ⟨r, b'⟩ := outcome
  obtain ⟨rfl, hforward, hsource⟩ := hagrees
  exact ⟨b', rfl, hforward, hsource⟩

theorem Implements.error {stop : Stop ReadError} (h : Implements q p)
    (hp : p b.source = .error stop) :
    ∃ b', q b = (.error stop, b') ∧ (b' = b.exhausted ∨ b.Forward b') := by
  have hagrees := h b
  rw [hp] at hagrees
  generalize q b = outcome at hagrees ⊢
  obtain ⟨r, b'⟩ := outcome
  obtain ⟨rfl, hstop⟩ := hagrees
  exact ⟨b', rfl, hstop⟩

theorem implements_pure (a : α) : Implements (pure a) (pure a) :=
  fun b => ⟨rfl, .refl b, rfl⟩

theorem Implements.bind {g : α → Buffered β} {f : α → Reader ReadError β} (hq : Implements q p)
    (hg : ∀ a, Implements (g a) (f a)) : Implements (q >>= g) (p >>= f) := by
  intro b
  rw [Reader.bind_eq, bind_eq]
  cases hp : p b.source with
  | error stop =>
    obtain ⟨b', hfail, hstop⟩ := hq.error hp
    rw [hfail]
    exact ⟨rfl, hstop⟩
  | ok r =>
    obtain ⟨a, s⟩ := r
    obtain ⟨b', hstart, hforward, rfl⟩ := hq.ok hp
    rw [hstart]
    exact hforward.agrees (hg a b')

theorem makeSlice_implements (n : ℕ) : Implements (makeSlice n) (Reader.makeSlice n) := by
  intro b
  rw [makeSlice, Reader.makeSlice]
  split_ifs with hn
  · exact ⟨rfl, .inr (.refl b)⟩
  · exact ⟨rfl, .refl b, rfl⟩

theorem readFullLoop_zero (rounds : ℕ) (got : Bytes) (b : Bufio) :
    readFullLoop rounds 0 got b = (.ok got, b) := by
  cases rounds <;> rfl

/-- One round of `ReadFull` over a stream with bytes left. -/
theorem readFullLoop_step (hneed : 0 < need) (h : b.source.data ≠ []) (rounds : ℕ)
    (got : Bytes) :
    ∃ chunk b', readFullLoop (rounds + 1) need got b =
        readFullLoop rounds (need - chunk.length) (got ++ chunk) b' ∧ b.Forward b' ∧
      0 < chunk.length ∧ chunk.length ≤ need ∧ b.source.data = chunk ++ b'.source.data := by
  obtain ⟨chunk, b', hread, hforward, hchunk, hlength, hsplit⟩ := read_of_ne_nil h hneed
  refine ⟨chunk, b', ?_, hforward, List.length_pos_of_ne_nil hchunk, hlength, hsplit⟩
  simp only [readFullLoop, if_neg hneed.ne', hread]

theorem readFullLoop_ok (hrounds : need ≤ rounds) (got : Bytes)
    (h : need ≤ b.source.data.length) :
    ∃ b', readFullLoop rounds need got b = (.ok (got ++ b.source.data.take need), b') ∧
      b.Forward b' ∧ b'.source.data = b.source.data.drop need := by
  induction rounds generalizing need got b with
  | zero =>
    obtain rfl : need = 0 := Nat.le_zero.mp hrounds
    exact ⟨b, by simp [readFullLoop], .refl b, rfl⟩
  | succ rounds ih =>
    rcases Nat.eq_zero_or_pos need with rfl | hneed
    · exact ⟨b, by simp [readFullLoop_zero], .refl b, rfl⟩
    · have hdata : b.source.data ≠ [] := List.ne_nil_of_length_pos (hneed.trans_le h)
      obtain ⟨chunk, b', hstep, hforward, hpos, hlength, hsplit⟩ :=
        readFullLoop_step hneed hdata rounds got
      have hrest : need - chunk.length ≤ b'.source.data.length := by
        rw [hsplit, List.length_append] at h
        omega
      obtain ⟨b'', hloop, hforward', hdrop⟩ := ih (by omega) (got ++ chunk) hrest
      refine ⟨b'', ?_, hforward.trans hforward', ?_⟩
      · rw [hstep, hloop, hsplit, List.take_append, List.take_of_length_le hlength,
          List.append_assoc]
      · rw [hdrop, hsplit, List.drop_append, List.drop_eq_nil_of_le hlength, List.nil_append]

theorem readFullLoop_short (hrounds : need ≤ rounds) (got : Bytes)
    (h : b.source.data.length < need) :
    readFullLoop rounds need got b =
      (.error (cutShort (got ++ b.source.data ≠ []) (.error b.source.fault)), b.exhausted) := by
  induction rounds generalizing need got b with
  | zero => omega
  | succ rounds ih =>
    have hneed : 0 < need := by omega
    by_cases hdata : b.source.data = []
    · simp [readFullLoop, hneed.ne', read_of_nil hdata, hdata]
    · obtain ⟨chunk, b', hstep, hforward, hpos, hlength, hsplit⟩ :=
        readFullLoop_step hneed hdata rounds got
      have hrest : b'.source.data.length < need - chunk.length := by
        rw [hsplit, List.length_append] at h
        omega
      rw [hstep, ih (by omega) (got ++ chunk) hrest, hforward.source_fault, hforward.exhausted,
        hsplit, List.append_assoc]

theorem readFull_implements (n : ℕ) : Implements (readFull n) (Reader.readFull n) := by
  intro b
  rw [Reader.readFull, readFull]
  by_cases hn : n ≤ b.source.data.length
  · rw [if_pos hn]
    obtain ⟨b', hloop, hforward, hdrop⟩ := readFullLoop_ok le_rfl [] hn
    rw [hloop]
    exact ⟨rfl, hforward, hforward.source_eq hdrop⟩
  · rw [if_neg hn, ← cutShort_error, readFullLoop_short le_rfl [] (not_le.mp hn)]
    exact ⟨rfl, .inl rfl⟩

/-- The loop of `ReadUvarint` consumes byte by byte what the plain loop does. -/
theorem uvarintLoop_agrees {i : ℕ} (hi : rounds + i = 10) (x shift : ℕ) (b : Bufio) :
    b.Agrees (uvarintLoop rounds i x shift b)
      (Reader.uvarintLoop b.source.fault b.source.data i x shift) := by
  induction rounds generalizing i x shift b with
  | zero =>
    have hround : 10 ≤ i := by omega
    cases b.source.data with
    | nil | cons c data =>
      rw [Reader.uvarintLoop, if_pos hround]
      exact ⟨rfl, .inr (.refl b)⟩
  | succ rounds ih =>
    have hround : ¬10 ≤ i := by omega
    cases hdata : b.source.data with
    | nil =>
      rw [Reader.uvarintLoop, if_neg hround, ← cutShort_error]
      simp only [uvarintLoop, readByte_of_nil hdata]
      exact ⟨rfl, .inl rfl⟩
    | cons c data =>
      obtain ⟨b', hread, hforward, rfl⟩ := readByte_of_cons hdata
      rw [Reader.uvarintLoop, if_neg hround]
      simp only [uvarintLoop, hread]
      split_ifs with hlast htenth
      · exact ⟨rfl, .inr hforward⟩
      · exact ⟨rfl, hforward, hforward.source_eq rfl⟩
      · rw [← hforward.source_fault]
        exact hforward.agrees (ih (by omega) _ _ b')

theorem readUvarint_implements : Implements readUvarint Reader.readUvarint :=
  fun b => uvarintLoop_agrees rfl 0 0 b

theorem readUvarint_of_nil (h : b.source.data = []) :
    readUvarint b = (.error (.error b.source.fault), b.exhausted) := by
  have hstop : cutShort (0 < 0) (.error b.source.fault) = .error b.source.fault := by
    cases b.source.fault <;> rfl
  simp only [readUvarint, uvarintLoop, readByte_of_nil h, hstop]

end Bufio
end VlfProto.Platform
