import VlfProto.Session.Reassembly

/-! # Feeding a reassembly -/

namespace VlfProto.Session
open Platform List

/-- A packet, and the clock when it is handed to the reassembly. -/
abbrev TimedPacket := ℤ × DatagramPacket

/-- The state and the payloads handed over, each with its flow. -/
def Reassembly.feed (r : Reassembly) : List TimedPacket → Reassembly × List (UInt64 × Bytes)
  | [] => (r, [])
  | p :: rest =>
    let fed := (r.add p.1 p.2).1.feed rest
    (fed.1, ((r.add p.1 p.2).2.map fun payload => (p.2.flowID, payload)).toList ++ fed.2)

theorem Reassembly.feed_append (r : Reassembly) (ps qs : List TimedPacket) :
    r.feed (ps ++ qs) = (((r.feed ps).1.feed qs).1,
      (r.feed ps).2 ++ ((r.feed ps).1.feed qs).2) := by
  induction ps generalizing r with
  | nil => rfl
  | cons p ps ih => simp only [cons_append, feed, ih, append_assoc]

/-- The fragments of each message that have not been handed over. -/
abbrev Gathered := UInt64 → UInt32 → Option FragmentState

namespace Gathered

variable {m m' : Gathered} {p : TimedPacket} {ps own : List TimedPacket} {flowID : UInt64}

def data (m : Gathered) (pkt : DatagramPacket) : Bytes :=
  ((m pkt.flowID pkt.seq).map FragmentState.data).getD []

def add (m : Gathered) (p : TimedPacket) : Gathered := fun flowID seq =>
  if p.2.flags &&& datagramFlagFragmented ≠ 0 ∧ flowID = p.2.flowID ∧ seq = p.2.seq then
    if p.2.flags &&& datagramFlagLast = 0 then some ⟨m.data p.2 ++ p.2.payload, p.1⟩ else none
  else m flowID seq

def completes (m : Gathered) (pkt : DatagramPacket) : Option Bytes :=
  if pkt.flags &&& datagramFlagFragmented = 0 then some pkt.payload
  else if pkt.flags &&& datagramFlagLast = 0 then none
  else some (m.data pkt ++ pkt.payload)

def outputs (m : Gathered) : List TimedPacket → List (UInt64 × Bytes)
  | [] => []
  | p :: rest =>
    ((m.completes p.2).map fun payload => (p.2.flowID, payload)).toList ++ (m.add p).outputs rest

/-- No message waits for its next fragment longer than it is kept. -/
def NoGap (m : Gathered) : List TimedPacket → Prop
  | [] => True
  | p :: rest =>
    (p.2.flags &&& datagramFlagFragmented ≠ 0 →
      ∀ st ∈ m p.2.flowID p.2.seq, p.1 - Reassembly.partTTL ≤ st.updatedAt) ∧
    (m.add p).NoGap rest

instance decidableNoGap (m : Gathered) : (ps : List TimedPacket) → Decidable (m.NoGap ps)
  | [] => inferInstanceAs (Decidable True)
  | p :: rest =>
    have := (m.add p).decidableNoGap rest
    inferInstanceAs (Decidable (_ ∧ _))

theorem NoGap.of_append (h : m.NoGap (ps ++ own)) : m.NoGap ps := by
  induction ps generalizing m with
  | nil => trivial
  | cons p ps ih => exact ⟨h.1, ih h.2⟩

/-- The reassembly holds what is gathered, but for what was too old at its last reading of
the clock. -/
def Keeps (r : Reassembly) (m : Gathered) (clock : ℤ) : Prop :=
  ∀ flowID seq, r.find flowID seq = m flowID seq ∨
    r.find flowID seq = none ∧ ∃ st, m flowID seq = some st ∧
      st.updatedAt < clock - Reassembly.partTTL

theorem keeps_new (clock : ℤ) : Keeps newReassembly (fun _ _ => none) clock :=
  fun _ _ => .inl rfl

variable {r : Reassembly} {clock now : ℤ} {pkt : DatagramPacket}

theorem Keeps.cleanupLocked (h : Keeps r m clock) (hclock : clock ≤ now) :
    Keeps (r.cleanupLocked now) m now := by
  intro flowID seq
  rw [Reassembly.find_cleanupLocked]
  rcases h flowID seq with hsame | ⟨hnone, st, hst, hold⟩
  · rw [hsame]
    cases hm : m flowID seq with
    | none => exact .inl rfl
    | some st =>
      rw [Option.bind_some]
      split_ifs with hold
      · exact .inr ⟨rfl, st, rfl, hold⟩
      · exact .inl rfl
  · rw [hnone]
    exact .inr ⟨rfl, st, hst, by omega⟩

/-- What is held for a message that has not waited too long is all that is gathered. -/
theorem Keeps.held (h : Keeps r m clock) (hclock : clock ≤ now)
    (hfresh : ∀ st ∈ m pkt.flowID pkt.seq, now - Reassembly.partTTL ≤ st.updatedAt) :
    r.held now pkt = m.data pkt := by
  rw [Reassembly.held, Gathered.data]
  rcases h.cleanupLocked hclock pkt.flowID pkt.seq with hsame | ⟨-, st, hst, hold⟩
  · rw [hsame]
  · exact absurd hold (not_lt.mpr (hfresh st hst))

theorem Keeps.add (h : Keeps r m clock) (hclock : clock ≤ p.1)
    (hfresh : p.2.flags &&& datagramFlagFragmented ≠ 0 →
      ∀ st ∈ m p.2.flowID p.2.seq, p.1 - Reassembly.partTTL ≤ st.updatedAt) :
    Keeps (r.add p.1 p.2).1 (m.add p) p.1 ∧ (r.add p.1 p.2).2 = m.completes p.2 := by
  by_cases hwhole : p.2.flags &&& datagramFlagFragmented = 0
  · rw [Reassembly.add_of_unfragmented r p.1 p.2 hwhole, completes, if_pos hwhole]
    refine ⟨fun flowID seq => ?_, rfl⟩
    rw [Gathered.add, if_neg fun hfrag => hfrag.1 hwhole]
    rcases h flowID seq with hsame | ⟨hnone, st, hst, hold⟩
    · exact .inl hsame
    · exact .inr ⟨hnone, st, hst, by omega⟩
  · obtain ⟨hout, hfind⟩ := Reassembly.add_of_fragmented r p.1 p.2 hwhole
    rw [h.held hclock (hfresh hwhole)] at hout hfind
    refine ⟨fun flowID seq => ?_, ?_⟩
    · simp only [hfind, Gathered.add, ne_eq, hwhole, not_false_eq_true, true_and]
      split_ifs
      · exact .inl rfl
      · exact .inl rfl
      · exact h.cleanupLocked hclock flowID seq
    · rw [hout, completes, if_neg hwhole]

theorem Keeps.feed (h : Keeps r m clock) (hclock : ∀ p ∈ ps, clock ≤ p.1)
    (hsorted : ps.Pairwise fun p q => p.1 ≤ q.1) (hgap : m.NoGap ps) :
    (r.feed ps).2 = m.outputs ps := by
  induction ps generalizing r m clock with
  | nil => rfl
  | cons p ps ih =>
    obtain ⟨hlater, hsorted⟩ := pairwise_cons.mp hsorted
    obtain ⟨hkeeps, hout⟩ := h.add (hclock p mem_cons_self) hgap.1
    rw [Reassembly.feed, outputs, hout, ih hkeeps hlater hsorted hgap.2]

theorem data_congr (h : ∀ seq, (m flowID seq).map FragmentState.data =
    (m' flowID seq).map FragmentState.data) (hflow : pkt.flowID = flowID) :
    m.data pkt = m'.data pkt := by
  rw [data, data, hflow, h]

theorem add_congr {now' : ℤ} (h : ∀ seq, (m flowID seq).map FragmentState.data =
    (m' flowID seq).map FragmentState.data) (hflow : pkt.flowID = flowID) (seq : UInt32) :
    ((m.add (now, pkt)) flowID seq).map FragmentState.data =
      ((m'.add (now', pkt)) flowID seq).map FragmentState.data := by
  simp only [Gathered.add, data_congr h hflow]
  split_ifs
  · rfl
  · rfl
  · exact h seq

theorem completes_congr (h : ∀ seq, (m flowID seq).map FragmentState.data =
    (m' flowID seq).map FragmentState.data) (hflow : pkt.flowID = flowID) :
    m.completes pkt = m'.completes pkt := by
  rw [completes, completes, data_congr h hflow]

theorem add_of_ne (h : p.2.flowID ≠ flowID) : m.add p flowID = m flowID := by
  funext seq
  rw [Gathered.add, if_neg fun hsame => h hsame.2.1.symm]

theorem outputs_flow (h : ∀ seq, (m flowID seq).map FragmentState.data =
    (m' flowID seq).map FragmentState.data)
    (hown : own.map Prod.snd = (ps.map Prod.snd).filter fun pkt => pkt.flowID = flowID) :
    m'.outputs own = (m.outputs ps).filter fun out => out.1 = flowID := by
  induction ps generalizing m m' own with
  | nil =>
    obtain rfl : own = [] := map_eq_nil_iff.mp hown
    rfl
  | cons p ps ih =>
    rw [outputs, filter_append]
    by_cases hflow : p.2.flowID = flowID
    · simp only [map_cons, hflow, filter_cons, decide_true, if_true] at hown
      obtain ⟨q, own, rfl, hpkt, hrest⟩ := map_eq_cons_iff.mp hown
      obtain ⟨now, pkt⟩ := q
      obtain ⟨now', pkt'⟩ := p
      dsimp only at hpkt hflow
      subst hpkt
      rw [outputs, ih (add_congr h hflow) hrest, completes_congr h hflow]
      congr 1
      cases m'.completes pkt <;> simp [hflow]
    · simp only [map_cons, hflow, filter_cons, decide_false, Bool.false_eq_true,
        if_false] at hown
      rw [ih (m := m.add p) (by rw [add_of_ne hflow]; exact h) hown]
      cases m.completes p.2 <;> simp [hflow]

end Gathered

/-- The clock does not go back, and no fragment comes later after the one before it than a
message is kept. -/
structure Gapless (ps : List TimedPacket) : Prop where
  clock : ps.Pairwise fun p q => p.1 ≤ q.1
  noGap : Gathered.NoGap (fun _ _ => none) ps

instance (ps : List TimedPacket) : Decidable (Gapless ps) :=
  decidable_of_iff ((ps.Pairwise fun p q => p.1 ≤ q.1) ∧ Gathered.NoGap (fun _ _ => none) ps)
    ⟨fun h => ⟨h.1, h.2⟩, fun h => ⟨h.clock, h.noGap⟩⟩

namespace Gapless

variable {ps own : List TimedPacket} {flowID : UInt64}

theorem of_append (h : Gapless (ps ++ own)) : Gapless ps :=
  ⟨(pairwise_append.mp h.clock).1, h.noGap.of_append⟩

theorem feed_eq (h : Gapless ps) :
    (newReassembly.feed ps).2 = Gathered.outputs (fun _ _ => none) ps := by
  cases ps with
  | nil => rfl
  | cons p ps =>
    refine (Gathered.keeps_new p.1).feed (fun q hq => ?_) h.clock h.noGap
    rcases mem_cons.mp hq with rfl | hq
    · exact le_rfl
    · exact (pairwise_cons.mp h.clock).1 q hq

/-- A reassembly for all flows hands over for each of them what one of its own would. -/
theorem feed_flow (h : Gapless ps) (hown : Gapless own)
    (hpackets : own.map Prod.snd = (ps.map Prod.snd).filter fun pkt => pkt.flowID = flowID) :
    (newReassembly.feed own).2 = (newReassembly.feed ps).2.filter fun out => out.1 = flowID := by
  rw [h.feed_eq, hown.feed_eq]
  exact Gathered.outputs_flow (fun _ => rfl) hpackets

end Gapless
end VlfProto.Session
