import VlfProto.Platform.Reader

/-!
# Readers that follow a layout

A layout is a list of field shapes. It already tells which lengths a byte string announces,
field after field, up to the point where the bytes run out. A reader that follows a layout
panics exactly when one of these lengths cannot be allocated.
-/
namespace VlfProto.Platform

inductive Field where
  | uvarint
  | fixed (width : ℕ)
  | bytes

namespace Field

def announced : Field → Bytes → List ℕ
  | .bytes, data => ((uvarint? data).map Prod.fst).toList
  | _, _ => []

/-- The bytes after a field, when it is all there. -/
def rest : Field → Bytes → Option Bytes
  | .uvarint, data => (uvarint? data).map Prod.snd
  | .fixed width, data => if width ≤ data.length then some (data.drop width) else none
  | .bytes, data => (uvarint? data).bind fun r =>
    if r.1 ≤ r.2.length then some (r.2.drop r.1) else none

def lengths : List Field → Bytes → List ℕ
  | [], _ => []
  | field :: fields, data =>
    field.announced data ++ ((field.rest data).map (lengths fields)).getD []

end Field

namespace Reader

variable {ε δ α β : Type} {p : Reader ε α} {f : α → Reader ε β} {s t : Source} {n : ℕ}
  {field : Field}

def Panics (p : Reader ε α) (s : Source) : Prop := p s = .error .panic

theorem bind_eq (p : Reader ε α) (f : α → Reader ε β) (s : Source) :
    (p >>= f) s = match p s with
      | .ok (a, t) => f a t
      | .error stop => .error stop := by
  change (p s >>= fun r => f r.1 r.2) = _
  cases p s <;> rfl

theorem panics_bind :
    (p >>= f).Panics s ↔ p.Panics s ∨ ∃ a t, p s = .ok (a, t) ∧ (f a).Panics t := by
  unfold Panics
  rw [bind_eq]
  cases p s with
  | error stop => simp
  | ok r =>
    constructor
    · exact fun h => .inr ⟨r.1, r.2, rfl, h⟩
    · rintro (h | ⟨a, t, ⟨⟩, h⟩)
      · cases h
      · exact h

theorem bind_ok_iff {b : β} :
    (p >>= f) s = .ok (b, t) ↔ ∃ a u, p s = .ok (a, u) ∧ f a u = .ok (b, t) := by
  rw [bind_eq]
  cases p s with
  | error stop => simp
  | ok r => exact ⟨fun h => ⟨r.1, r.2, rfl, h⟩, by rintro ⟨a, u, ⟨⟩, h⟩; exact h⟩

theorem pure_ok_iff {a b : α} : (pure a : Reader ε α) s = .ok (b, t) ↔ b = a ∧ t = s := by
  change Except.ok (a, s) = Except.ok (b, t) ↔ _
  simp [eq_comm]

theorem not_panics_pure {a : α} : ¬(pure a : Reader ε α).Panics s := nofun

theorem mapError_ok_iff {g : ε → δ} {r : α × Source} : mapError g p s = .ok r ↔ p s = .ok r := by
  unfold mapError
  split <;> simp_all

theorem panics_mapError {g : ε → δ} : (mapError g p).Panics s ↔ p.Panics s := by
  unfold Panics mapError
  split <;> simp_all

theorem readFull_ok_iff {raw : Bytes} :
    readFull n s = .ok (raw, t) ↔
      n ≤ s.data.length ∧ raw = s.data.take n ∧ t = { s with data := s.data.drop n } := by
  unfold readFull
  split_ifs with hlen hcut
  · simp [hlen, eq_comm]
  · simp [hlen]
  · simp [hlen]

theorem not_panics_readFull : ¬(readFull n).Panics s := by
  unfold Panics readFull
  split_ifs <;> simp

theorem not_panics_readUvarint : ¬readUvarint.Panics s := by
  suffices h : ∀ data i x shift, uvarintLoop s.fault data i x shift ≠ .error .panic from h _ _ _ _
  intro data
  induction data with
  | nil =>
    intro i x shift
    rw [uvarintLoop]
    split_ifs <;> simp
  | cons b data ih =>
    intro i x shift
    rw [uvarintLoop]
    split_ifs <;> first | exact ih _ _ _ | simp

/-- One reader for one field: it panics on a length that cannot be allocated
and otherwise consumes the field if it is all there. -/
structure Reads (p : Reader ε α) (field : Field) : Prop where
  panics : ∀ s, p.Panics s ↔ ∃ n ∈ field.announced s.data, maxAlloc < n
  rest : ∀ s a t, p s = .ok (a, t) → field.rest s.data = some t.data
  total : ∀ s data, field.rest s.data = some data → ¬p.Panics s →
    ∃ a t, p s = .ok (a, t) ∧ t.data = data

/-- A reader panics exactly when a length announced along the layout cannot be
allocated. -/
def Follows (p : Reader ε α) (fields : List Field) : Prop :=
  ∀ s, p.Panics s ↔ ∃ n ∈ Field.lengths fields s.data, maxAlloc < n

theorem follows_nil (h : ∀ s, ¬p.Panics s) : p.Follows [] :=
  fun s => iff_of_false (h s) (by simp [Field.lengths])

theorem Reads.bind {fields : List Field} (hp : p.Reads field)
    (hf : ∀ a, (f a).Follows fields) : (p >>= f).Follows (field :: fields) := by
  intro s
  rw [panics_bind, hp.panics s, Field.lengths]
  simp only [List.mem_append, or_and_right, exists_or]
  by_cases hpanic : ∃ n ∈ field.announced s.data, maxAlloc < n
  · simp [hpanic]
  · refine or_congr_right ?_
    constructor
    · rintro ⟨a, t, hok, hlater⟩
      rw [hp.rest s a t hok, Option.map_some, Option.getD_some]
      exact (hf a t).mp hlater
    · rintro ⟨n, hn, hbig⟩
      cases hrest : field.rest s.data with
      | none => simp [hrest] at hn
      | some data =>
        obtain ⟨a, t, hok, rfl⟩ := hp.total s data hrest (by rwa [hp.panics s])
        rw [hrest, Option.map_some, Option.getD_some] at hn
        exact ⟨a, t, hok, (hf a t).mpr ⟨n, hn, hbig⟩⟩

theorem Reads.mapError (hp : p.Reads field) (g : ε → δ) :
    (p.mapError g).Reads field where
  panics s := panics_mapError.trans (hp.panics s)
  rest s a t h := hp.rest s a t (mapError_ok_iff.mp h)
  total s data h hsafe := by
    obtain ⟨a, t, hok, ht⟩ := hp.total s data h (fun hp => hsafe (panics_mapError.mpr hp))
    exact ⟨a, t, mapError_ok_iff.mpr hok, ht⟩

theorem Reads.map (hp : p.Reads field) (g : α → β) :
    (p >>= fun a => pure (g a)).Reads field where
  panics s := by
    rw [panics_bind, hp.panics]
    simp only [not_panics_pure, and_false, exists_false, or_false]
  rest s b t h := by
    obtain ⟨a, u, hok, hpure⟩ := bind_ok_iff.mp h
    obtain ⟨-, rfl⟩ := pure_ok_iff.mp hpure
    exact hp.rest s a t hok
  total s data h hsafe := by
    obtain ⟨a, t, hok, ht⟩ := hp.total s data h
      (fun hpanic => hsafe (panics_bind.mpr (.inl hpanic)))
    exact ⟨g a, t, bind_ok_iff.mpr ⟨a, t, hok, pure_ok_iff.mpr ⟨rfl, rfl⟩⟩, ht⟩

theorem readUvarint_reads : readUvarint.Reads .uvarint where
  panics s := by simp [not_panics_readUvarint, Field.announced]
  rest s a t h := by simp [Field.rest, (readUvarint_ok_iff.mp h).1]
  total s data h _ := by
    obtain ⟨⟨n, rest⟩, hn, rfl⟩ := Option.map_eq_some_iff.mp h
    exact ⟨n, ⟨rest, s.fault⟩, readUvarint_ok_iff.mpr ⟨hn, rfl⟩, rfl⟩

theorem readFull_reads (width : ℕ) : (readFull width).Reads (.fixed width) where
  panics s := by simp [not_panics_readFull, Field.announced]
  rest s a t h := by
    obtain ⟨hlen, -, rfl⟩ := readFull_ok_iff.mp h
    exact if_pos hlen
  total s data h _ := by
    rw [Field.rest] at h
    split_ifs at h with hlen
    exact ⟨_, _, readFull_ok_iff.mpr ⟨hlen, rfl, rfl⟩, Option.some.inj h⟩

theorem readBigEndian_reads (width : ℕ) : (readBigEndian width).Reads (.fixed width) :=
  (readFull_reads width).map _

theorem panics_makeSlice : (makeSlice n : Reader ε Unit).Panics s ↔ maxAlloc < n := by
  unfold makeSlice
  split_ifs with hbig
  · exact iff_of_true rfl hbig
  · exact iff_of_false not_panics_pure hbig

theorem makeSlice_ok_iff {a : Unit} :
    (makeSlice n : Reader ε Unit) s = .ok (a, t) ↔ n ≤ maxAlloc ∧ t = s := by
  unfold makeSlice
  split_ifs with hbig
  · exact iff_of_false nofun (fun h => absurd h.1 (by omega))
  · rw [pure_ok_iff]
    simp [not_lt.mp hbig]

/-- A slice of the announced length, filled from the stream. -/
theorem readSlice_reads :
    (readUvarint >>= fun n => makeSlice n >>= fun _ => readFull n).Reads .bytes := by
  constructor
  · intro s
    simp only [panics_bind, not_panics_readUvarint, not_panics_readFull, panics_makeSlice,
      readUvarint_ok_iff, false_or, and_false, exists_false, or_false, Field.announced,
      Option.mem_toList, Option.map_eq_some_iff]
    constructor
    · rintro ⟨n, t, ⟨hn, -⟩, hbig⟩
      exact ⟨n, ⟨_, hn, rfl⟩, hbig⟩
    · rintro ⟨n, ⟨⟨_, rest⟩, hn, rfl⟩, hbig⟩
      exact ⟨_, ⟨rest, s.fault⟩, ⟨hn, rfl⟩, hbig⟩
  · intro s raw t h
    obtain ⟨n, u, hn, h⟩ := bind_ok_iff.mp h
    obtain ⟨_, u', hmake, hfull⟩ := bind_ok_iff.mp h
    obtain ⟨-, rfl⟩ := makeSlice_ok_iff.mp hmake
    obtain ⟨hlen, -, rfl⟩ := readFull_ok_iff.mp hfull
    rw [Field.rest, (readUvarint_ok_iff.mp hn).1]
    exact if_pos hlen
  · intro s data h hsafe
    obtain ⟨⟨n, rest⟩, hn, hrest⟩ := Option.bind_eq_some_iff.mp h
    split_ifs at hrest with hlen
    have hread : readUvarint s = .ok (n, ⟨rest, s.fault⟩) := readUvarint_ok_iff.mpr ⟨hn, rfl⟩
    have hsmall : n ≤ maxAlloc := by
      by_contra hbig
      exact hsafe (panics_bind.mpr (.inr ⟨n, _, hread, panics_bind.mpr
        (.inl (panics_makeSlice.mpr (not_le.mp hbig)))⟩))
    refine ⟨rest.take n, ⟨rest.drop n, s.fault⟩, ?_, Option.some.inj hrest⟩
    exact bind_ok_iff.mpr ⟨n, _, hread, bind_ok_iff.mpr ⟨(), _, makeSlice_ok_iff.mpr ⟨hsmall, rfl⟩,
      readFull_ok_iff.mpr ⟨hlen, rfl, rfl⟩⟩⟩

/-- Skipping the allocation of an empty slice changes nothing. -/
theorem readBytes_eq :
    readBytes = readUvarint >>= fun n => makeSlice n >>= fun _ => readFull n := by
  unfold readBytes
  congr 1
  funext n
  split_ifs with hzero
  · subst hzero
    rfl
  · rfl

theorem readBytes_reads : readBytes.Reads .bytes := by
  rw [readBytes_eq]
  exact readSlice_reads

end Reader
end VlfProto.Platform

/-! ### Readers of a grammar

A grammar relates byte strings to the values that they stand for. A reader accepts a grammar
when it succeeds exactly on the sources that start with one of its strings, returns the value
and leaves what comes after. The grammar of a reader is put together field by field.
-/

namespace VlfProto.Platform.Reader

variable {ε δ α β : Type} {p : Reader ε α} {f : α → Reader ε β} {P Q : Bytes → α → Prop}
  {F : α → Bytes → β → Prop}

def failIf (c : Prop) [Decidable c] (e : ε) : Reader ε Unit := if c then fail e else pure ()

/-- The reader succeeds on exactly the strings of the grammar, whatever follows. -/
def Accepts (p : Reader ε α) (P : Bytes → α → Prop) : Prop :=
  ∀ s a t, p s = .ok (a, t) ↔ ∃ enc, s = ⟨enc ++ t.data, t.fault⟩ ∧ P enc a

theorem Accepts.congr (hp : p.Accepts P) (h : ∀ enc a, P enc a ↔ Q enc a) : p.Accepts Q := by
  intro s a t
  rw [hp]
  exact exists_congr fun enc => and_congr_right fun _ => h enc a

theorem accepts_pure (a : α) : (pure a : Reader ε α).Accepts fun enc b => enc = [] ∧ b = a := by
  intro s b t
  rw [pure_ok_iff]
  constructor
  · rintro ⟨rfl, rfl⟩
    exact ⟨[], rfl, rfl, rfl⟩
  · rintro ⟨_, rfl, rfl, rfl⟩
    exact ⟨rfl, rfl⟩

theorem accepts_fail (e : ε) : (fail e : Reader ε α).Accepts fun _ _ => False := by
  intro s a t
  exact iff_of_false nofun fun ⟨_, _, h⟩ => h

theorem accepts_readFull (n : ℕ) :
    (readFull n).Accepts fun enc raw => raw = enc ∧ enc.length = n := by
  intro s raw t
  rw [readFull_ok_iff]
  constructor
  · rintro ⟨hlen, rfl, rfl⟩
    exact ⟨s.data.take n, by rw [List.take_append_drop], rfl, List.length_take_of_le hlen⟩
  · rintro ⟨enc, rfl, rfl, rfl⟩
    simp

theorem Accepts.mapError (hp : p.Accepts P) (g : ε → δ) : (p.mapError g).Accepts P :=
  fun s a t => mapError_ok_iff.trans (hp s a t)

theorem Accepts.bind (hp : p.Accepts P) (hf : ∀ a, (f a).Accepts (F a)) :
    (p >>= f).Accepts fun enc b => ∃ a x y, enc = x ++ y ∧ P x a ∧ F a y b := by
  intro s b t
  rw [bind_ok_iff]
  constructor
  · rintro ⟨a, u, hpa, hfb⟩
    obtain ⟨x, rfl, hx⟩ := (hp s a u).mp hpa
    obtain ⟨y, hu, hy⟩ := (hf a u b t).mp hfb
    exact ⟨x ++ y, by rw [hu, List.append_assoc], a, x, y, rfl, hx, hy⟩
  · rintro ⟨_, rfl, a, x, y, rfl, hx, hy⟩
    refine ⟨a, ⟨y ++ t.data, t.fault⟩, (hp _ _ _).mpr ⟨x, ?_, hx⟩, (hf a _ _ _).mpr ⟨y, rfl, hy⟩⟩
    rw [List.append_assoc]

theorem Accepts.readFull_bind {n : ℕ} {g : ReadError → ε} {f : Bytes → Reader ε β}
    {F : Bytes → Bytes → β → Prop} (hf : ∀ raw, (f raw).Accepts (F raw)) :
    ((readFull n).mapError g >>= f).Accepts fun enc b =>
      ∃ x y, enc = x ++ y ∧ x.length = n ∧ F x y b := by
  refine (((accepts_readFull n).mapError g).bind hf).congr fun enc b => ?_
  constructor
  · rintro ⟨_, x, y, rfl, ⟨rfl, hx⟩, hy⟩
    exact ⟨_, y, rfl, hx, hy⟩
  · rintro ⟨x, y, rfl, hx, hy⟩
    exact ⟨x, x, y, rfl, ⟨rfl, hx⟩, hy⟩

theorem accepts_failIf {c : Prop} {_ : Decidable c} {e : ε} :
    (failIf c e).Accepts fun enc _ => ¬c ∧ enc = [] := by
  by_cases hc : c
  · rw [failIf, if_pos hc]
    exact (accepts_fail e).congr fun enc a => iff_of_false id fun h => h.1 hc
  · rw [failIf, if_neg hc]
    exact (accepts_pure ()).congr fun enc a => ⟨fun h => ⟨hc, h.1⟩, fun h => ⟨h.2, rfl⟩⟩

theorem Accepts.failIf_bind {c : Prop} {_ : Decidable c} {e : ε} (hp : p.Accepts P) :
    (failIf c e >>= fun _ => p).Accepts fun enc a => ¬c ∧ P enc a := by
  refine (accepts_failIf.bind fun _ => hp).congr fun enc a => ?_
  constructor
  · rintro ⟨_, _, y, rfl, ⟨hc, rfl⟩, hy⟩
    exact ⟨hc, hy⟩
  · rintro ⟨hc, hy⟩
    exact ⟨(), [], enc, rfl, ⟨hc, rfl⟩, hy⟩

end VlfProto.Platform.Reader
