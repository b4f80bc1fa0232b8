import VlfProto.Client.PendingOwners

/-! # Runs of the pending requests -/

namespace VlfProto.Client
open Platform Transition

theorem PendingKey.offer_new (key : PendingKey) (ok : Bool) :
    key.offer .new ok = .done ⟨some ok, 1, 0⟩ := by
  cases key <;> rfl

namespace PendingState

variable {s t : PendingState} {key : PendingKey} {k c : ℕ} {ok : Bool}

theorem unlocked {closer : CloserPc} (h : ¬closer.locked) (key : PendingKey) (c : ℕ) :
    closer ≠ .sweepClose key c := by
  rintro rfl
  exact h rfl

namespace Owned

theorem write (h : s.Owned) (hstep : s.write k ok = some t) : t.Owned := by
  unfold PendingState.write at hstep
  split_ifs at hstep with hpc hok <;> cases hstep
  · exact h.setPc (by rw [hpc]; rfl) (fun _ _ _ => rfl) nofun
  · exact h.setPc (by rw [hpc]; rfl) (fun _ _ _ => rfl) nofun

theorem timeout (h : s.Owned) (hstep : s.timeout k = some t) : t.Owned := by
  unfold PendingState.timeout at hstep
  split_ifs at hstep with hpc
  cases hstep
  exact h.setPc (by rw [hpc]; rfl) (fun _ _ _ => rfl) nofun

/-- The answer is there, so the channel is in nobody's hands who would still send. -/
theorem receive (h : s.Owned) (hstep : s.receive k = some t) : t.Owned := by
  unfold PendingState.receive at hstep
  split_ifs at hstep with hpc
  obtain ⟨⟨out, r⟩, hreceive, rfl⟩ := Option.map_eq_some_iff.mp hstep
  have hused : s.chans k ≠ .new := by
    intro hnew
    rw [hnew, Reply.receive_new] at hreceive
    cases hreceive
  have hlive : (s.calls k).pc.live := by rw [hpc]; rfl
  obtain ⟨hsent, hcloses, -⟩ := Reply.receive_counts hreceive
  have hopen : (s.chans k).Open → r.Open := fun hopen =>
    ⟨hsent.trans_le hopen.sent, hcloses.trans hopen.closes⟩
  have hcounts := h.counts k
  have hreturned : (s.setPc k (.returned ((s.calls k).key.result out))).Owned :=
    h.setPc hlive (fun key hlookup hcloser => absurd (h.waiting key k hlookup hcloser).2 hused)
      nofun
  refine hreturned.setChan (h.created_of_live hlive) ?_ ?_ ?_ ?_ ?_
  · intro key hlookup
    by_cases hsweep : s.closer = .sweepClose key k
    · exact ⟨hsweep, hopen (h.sweeping key k hsweep).2⟩
    · exact absurd (h.waiting key k hlookup hsweep).2 hused
  · exact fun key ok hread => hused (h.sending key k ok hread).2
  · exact fun hread => hopen (h.closing k hread).2
  · intro c'
    rw [calls_setPc, if_pos rfl]
    exact nofun
  · exact ⟨hsent.trans_le hcounts.1, hcloses.trans_le hcounts.2⟩

theorem own_channel (h : s.Owned) (hlock : ¬s.closer.locked) (hlive : (s.calls k).pc.live)
    (hlookup : s.pending.lookup (s.calls k).key = some c) : c = k := by
  have hfiled := (h.waiting _ c hlookup (unlocked hlock _ c)).1
  exact h.distinct c k (CallPc.live_of_filed hfiled) hlive (h.filed _ c hlookup).2

theorem unregister (h : s.Owned) (hstep : s.unregister k = some t) : t.Owned := by
  unfold PendingState.unregister at hstep
  split_ifs at hstep with hlock hpc
  have hlive : (s.calls k).pc.live := by rw [hpc]; rfl
  have herased : { s with pending := s.pending.erase (s.calls k).key }.Owned :=
    h.erase (fun c => unlocked hlock _ c) fun _ _ _ => Iff.rfl
  have hunfiled : ∀ key, (s.pending.erase (s.calls k).key).lookup key ≠ some k := by
    intro key hlookup
    rw [Table.lookup_erase_eq] at hlookup
    split_ifs at hlookup with hkey
    exact hkey (h.filed key k hlookup).2.symm
  dsimp only at hstep
  split at hstep <;> cases hstep
  case h_1 c hlookup =>
    obtain rfl := h.own_channel hlock hlive hlookup
    refine herased.setPc hlive (fun key hfiled => absurd hfiled (hunfiled key)) ?_
    rintro _ ⟨⟩
    refine ⟨rfl, hunfiled _, (h.waiting _ c hlookup (unlocked hlock _ c)).2, ?_, ?_⟩
    · exact fun hread => (h.closing c hread).1.unfiled hlookup
    · exact fun key ok hread => (h.sending key c ok hread).1.unfiled hlookup
  case h_2 =>
    exact herased.setPc hlive (fun key hfiled => absurd hfiled (hunfiled key)) nofun

theorem closeReply (h : s.Owned) (hstep : s.closeReply k = some t) : t.Owned := by
  unfold PendingState.closeReply at hstep
  split at hstep
  case h_2 => cases hstep
  case h_1 c hpc =>
    obtain ⟨rfl, hunfiled, hnew⟩ := h.givenUp k c hpc
    have hlive : (s.calls c).pc.live := by rw [hpc]; rfl
    rw [hnew, Reply.open_new.close_eq] at hstep
    cases hstep
    have hreturned : (s.setPc c (.returned .failure)).Owned :=
      h.setPc hlive (fun key hlookup => absurd hlookup (h.not_filed hunfiled key)) nofun
    refine hreturned.setChan (h.created_of_live hlive) ?_ ?_ ?_ ?_ ⟨Nat.zero_le 1, le_rfl⟩
    · exact fun key hlookup => absurd hlookup (h.not_filed hunfiled key)
    · exact fun key ok hread => (h.sending key c ok hread).1.notClosing c hpc
    · exact fun hread => absurd hpc ((h.closing c hread).1.notClosing c)
    · intro c'
      rw [calls_setPc, if_pos rfl]
      exact nofun

theorem readAnswer (h : s.Owned) (hstep : s.readAnswer key ok = some t) : t.Owned := by
  unfold PendingState.readAnswer at hstep
  split_ifs at hstep with hreading
  cases hstep
  exact h.setReader nofun nofun

theorem readError (h : s.Owned) (hstep : s.readError = some t) : t.Owned := by
  unfold PendingState.readError at hstep
  split_ifs at hstep with hreading
  cases hstep
  exact h.setReader nofun nofun

/-- Taking a channel out of the table, for the answer that has been read. -/
theorem resolve (h : s.Owned) (hlock : ¬s.closer.locked)
    (hlookup : s.pending.lookup key = some c) (ok : Bool) :
    { s with pending := s.pending.erase key, reader := .send key c ok }.Owned := by
  have herased : { s with pending := s.pending.erase key }.Owned :=
    h.erase (fun c => unlocked hlock _ c) fun _ _ _ => Iff.rfl
  obtain ⟨hfiled, hnew⟩ := h.waiting key c hlookup (unlocked hlock key c)
  obtain ⟨hcreated, hkey⟩ := h.filed key c hlookup
  refine herased.takeSend ⟨hcreated, ?_, ?_⟩ hnew key ok
  · dsimp only
    rw [hkey, Table.lookup_erase_eq, if_pos rfl]
    exact nofun
  · intro c' hclosing
    dsimp only at hclosing
    rw [hclosing] at hfiled
    cases hfiled

theorem readerSend (h : s.Owned) (hread : s.reader = .send key c ok) :
    { s.setChan c ⟨some ok, 1, 0⟩ with reader := .close c }.Owned := by
  obtain ⟨htaken, hnew⟩ := h.sending key c ok hread
  have hfree : { s with reader := .reading }.Owned := h.setReader nofun nofun
  have hsent : ({ s with reader := .reading }.setChan c ⟨some ok, 1, 0⟩).Owned := by
    refine hfree.setChan htaken.created ?_ nofun nofun htaken.notClosing ⟨le_rfl, Nat.zero_le 1⟩
    exact fun key hlookup => absurd hlookup (h.not_filed htaken.unfiled key)
  refine hsent.takeClose ⟨htaken.created, htaken.unfiled, htaken.notClosing⟩ ?_
  rw [chans_setChan, if_pos rfl]
  exact Reply.open_answered ok

theorem readerClose (h : s.Owned) (hread : s.reader = .close c) :
    { s.setChan c { s.chans c with closes := 1 } with reader := .reading }.Owned := by
  obtain ⟨htaken, hopen⟩ := h.closing c hread
  have hfree : { s with reader := .reading }.Owned := h.setReader nofun nofun
  refine hfree.setChan htaken.created ?_ nofun nofun htaken.notClosing ⟨hopen.sent, le_rfl⟩
  exact fun key hlookup => absurd hlookup (h.not_filed htaken.unfiled key)

theorem readerStep (h : s.Owned) (hstep : s.readerStep = some t) : t.Owned := by
  unfold PendingState.readerStep at hstep
  split at hstep
  case h_1 key ok hread =>
    split_ifs at hstep with hlock
    dsimp only at hstep
    split at hstep <;> cases hstep
    case h_1 c hlookup => exact h.resolve hlock hlookup ok
    case h_2 =>
      have herased : { s with pending := s.pending.erase key }.Owned :=
        h.erase (fun c => unlocked hlock _ c) fun _ _ _ => Iff.rfl
      exact herased.setReader nofun nofun
  case h_2 key c ok hread =>
    rw [(h.sending key c ok hread).2, PendingKey.offer_new] at hstep
    cases hstep
    exact h.readerSend hread
  case h_3 c hread =>
    rw [(h.closing c hread).2.close_eq] at hstep
    cases hstep
    exact h.readerClose hread
  case h_4 => cases hstep

theorem closeStart (h : s.Owned) (hstep : s.closeStart = some t) : t.Owned := by
  unfold PendingState.closeStart at hstep
  split_ifs at hstep with hidle
  cases hstep
  exact h.setCloser (by rw [hidle]; exact nofun) nofun

theorem closeLock (h : s.Owned) (hstep : s.closeLock = some t) : t.Owned := by
  unfold PendingState.closeLock at hstep
  split_ifs at hstep with hcancelled
  cases hstep
  exact h.setCloser (by rw [hcancelled]; exact nofun) nofun

theorem sweepSend (h : s.Owned) (hstep : s.sweepSend key = some t) : t.Owned := by
  unfold PendingState.sweepSend at hstep
  split_ifs at hstep with hsweep
  split at hstep
  case h_2 => cases hstep
  case h_1 c hlookup =>
    have hbetween : ∀ key c, s.closer ≠ .sweepClose key c := by rw [hsweep]; exact nofun
    obtain ⟨hfiled, hnew⟩ := h.waiting key c hlookup (hbetween key c)
    obtain ⟨hcreated, hkey⟩ := h.filed key c hlookup
    rw [hnew, PendingKey.offer_new] at hstep
    cases hstep
    have hat : { s with closer := .sweepClose key c }.Owned :=
      h.setCloser hbetween (by rintro _ _ ⟨⟩; exact hlookup)
    refine hat.setChan hcreated ?_ ?_ ?_ ?_ ⟨le_rfl, Nat.zero_le 1⟩
    · intro key' hlookup'
      obtain rfl : key = key' := hkey.symm.trans (h.filed key' c hlookup').2
      exact ⟨rfl, Reply.open_answered false⟩
    · exact fun key' ok hread => h.not_filed (h.sending key' c ok hread).1.unfiled key hlookup
    · exact fun hread => absurd hlookup (h.not_filed (h.closing c hread).1.unfiled key)
    · intro c' hclosing
      dsimp only at hclosing
      rw [hclosing] at hfiled
      cases hfiled

theorem sweepClose (h : s.Owned) (hstep : s.sweepClose = some t) : t.Owned := by
  unfold PendingState.sweepClose at hstep
  split at hstep
  case h_2 => cases hstep
  case h_1 key c hsweep =>
    obtain ⟨hlookup, hopen⟩ := h.sweeping key c hsweep
    obtain ⟨hcreated, hkey⟩ := h.filed key c hlookup
    rw [hopen.close_eq] at hstep
    cases hstep
    have herased : { s with pending := s.pending.erase key, closer := .sweep key.kind }.Owned := by
      refine h.erase nofun fun key' c' hne => ⟨nofun, fun hother => ?_⟩
      rw [hsweep] at hother
      cases hother
      exact absurd rfl hne
    refine herased.setChan hcreated ?_ ?_ ?_ ?_ ⟨hopen.sent, le_rfl⟩
    · intro key' hlookup'
      dsimp only at hlookup'
      rw [Table.lookup_erase_eq] at hlookup'
      split_ifs at hlookup' with hne
      exact absurd ((h.filed key' c hlookup').2.symm.trans hkey) hne
    · exact fun key' ok hread => h.not_filed (h.sending key' c ok hread).1.unfiled key hlookup
    · exact fun hread => absurd hlookup (h.not_filed (h.closing c hread).1.unfiled key)
    · exact fun c' hclosing => h.not_filed (h.givenUp c c' hclosing).2.1 key hlookup

theorem sweepNext (h : s.Owned) (hstep : s.sweepNext = some t) : t.Owned := by
  unfold PendingState.sweepNext at hstep
  split at hstep
  case h_2 => cases hstep
  case h_1 kind hsweep =>
    split_ifs at hstep with hempty
    cases hstep
    refine h.setCloser (by rw [hsweep]; exact nofun) ?_
    cases kind <;> exact nofun

theorem step (h : s.Owned) {a : PendingStep} (hstep : s.step a = some t) : t.Owned := by
  unfold PendingState.step at hstep
  rw [if_neg (by simp [h.running])] at hstep
  cases a with
  | call key => exact h.call hstep
  | write k ok => exact h.write hstep
  | receive k => exact h.receive hstep
  | timeout k => exact h.timeout hstep
  | unregister k => exact h.unregister hstep
  | closeReply k => exact h.closeReply hstep
  | read key ok => exact h.readAnswer hstep
  | reader => exact h.readerStep hstep
  | readError => exact h.readError hstep
  | closeStart => exact h.closeStart hstep
  | closeLock => exact h.closeLock hstep
  | sweepSend key => exact h.sweepSend hstep
  | sweepClose => exact h.sweepClose hstep
  | sweepNext => exact h.sweepNext hstep

end Owned
end PendingState
end VlfProto.Client
