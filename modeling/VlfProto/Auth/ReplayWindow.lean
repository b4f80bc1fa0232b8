import VlfProto.Auth.RejectedCalls
import VlfProto.Transition.Path

/-! # The nonce cache is an exact sliding window -/

namespace VlfProto.Auth
open Platform Transition

structure ReplayCall where
  clientID : Bytes
  nonce : Bytes
  now : ℤ
  deriving DecidableEq

/-- A nonce cache with the last clock reading and the calls that it has accepted. -/
structure ReplayHistory where
  cache : ReplayCache
  clock : ℤ
  accepted : List ReplayCall

namespace ReplayHistory

def new (ttl : Duration) (clock : ℤ) : ReplayHistory := ⟨newReplayCache ttl, clock, []⟩

def step (s : ReplayHistory) (call : ReplayCall) : Option ReplayHistory :=
  if s.clock ≤ call.now then
    let r := s.cache.checkAndStore call.clientID call.nonce call.now
    some ⟨r.2, call.now, if r.1 = .ok () then call :: s.accepted else s.accepted⟩
  else none

/-- The nonce of the client was accepted at `t`, and never after that. -/
def Latest (s : ReplayHistory) (clientID nonce : Bytes) (t : ℤ) : Prop :=
  ⟨clientID, nonce, t⟩ ∈ s.accepted ∧ ∀ t', ⟨clientID, nonce, t'⟩ ∈ s.accepted → t' ≤ t

/-- The cache holds latest acceptances only, and all of them that are not too old. -/
structure Exact (ttl : Duration) (s : ReplayHistory) : Prop where
  ttl_eq : s.cache.ttl = ttl
  past : ∀ call ∈ s.accepted, call.now ≤ s.clock
  latest : ∀ clientID nonce t, s.cache.Stored clientID nonce t → s.Latest clientID nonce t
  kept : ∀ clientID nonce t, s.Latest clientID nonce t → s.clock - ttl.toInt ≤ t →
    s.cache.Stored clientID nonce t

variable {s s' : ReplayHistory} {ttl : Duration} {call : ReplayCall} {clientID nonce : Bytes}
  {now t : ℤ}

theorem new_exact (ttl : Duration) (clock : ℤ) : (new ttl clock).Exact ttl where
  ttl_eq := rfl
  past call hcall := by cases hcall
  latest clientID nonce t h := by
    obtain ⟨nonces, hclient, -⟩ := h
    simp [new, newReplayCache] at hclient
  kept clientID nonce t h := by cases h.1

theorem Exact.replay_iff (h : s.Exact ttl) (hnow : s.clock ≤ now) :
    (s.cache.checkAndStore clientID nonce now).1 = .error .replay ↔
      ∃ t, s.Latest clientID nonce t ∧ now - t < ttl.toInt := by
  constructor
  · intro hreplay
    by_contra hnone
    have hok : (s.cache.checkAndStore clientID nonce now).1 = .ok () := by
      rw [ReplayCache.checkAndStore_ok_iff, h.ttl_eq]
      intro t hstored
      by_contra hfresh
      exact hnone ⟨t, h.latest _ _ t hstored, by omega⟩
    rw [hok] at hreplay
    cases hreplay
  · rintro ⟨t, hlatest, ht⟩
    have hstored := h.kept _ _ t hlatest (by omega)
    rw [ReplayCache.checkAndStore_of_remembers ⟨t, hstored, le_rfl⟩ (by rw [h.ttl_eq]; omega)]

/-- An accepted call is the latest one for its nonce. -/
theorem latest_step (h : s.Exact ttl) (hstep : s.step call = some s') (clientID nonce : Bytes)
    (t : ℤ) :
    s'.Latest clientID nonce t ↔
      if (s.cache.checkAndStore call.clientID call.nonce call.now).1 = .ok () ∧
        clientID = call.clientID ∧ nonce = call.nonce then t = call.now
      else s.Latest clientID nonce t := by
  obtain ⟨hnow, rfl⟩ := of_guard hstep
  have hpast : ∀ c ∈ s.accepted, c.now ≤ call.now := fun c hc => (h.past c hc).trans hnow
  obtain ⟨client, n, now⟩ := call
  by_cases hok : (s.cache.checkAndStore client n now).1 = .ok ()
  · simp only [Latest, hok, if_true, true_and, List.mem_cons, ReplayCall.mk.injEq]
    split_ifs with hsame
    · obtain ⟨rfl, rfl⟩ := hsame
      constructor
      · rintro ⟨⟨-, -, rfl⟩ | hold, hmax⟩
        · rfl
        · exact le_antisymm (hpast _ hold) (hmax now (.inl ⟨rfl, rfl, rfl⟩))
      · rintro rfl
        refine ⟨.inl ⟨rfl, rfl, rfl⟩, ?_⟩
        rintro t' (⟨-, -, rfl⟩ | hold)
        · exact le_rfl
        · exact hpast _ hold
    · have hother (t : ℤ) : ¬(clientID = client ∧ nonce = n ∧ t = now) :=
        fun hnew => hsame ⟨hnew.1, hnew.2.1⟩
      simp [hother]
  · simp only [Latest, hok, false_and, if_false]

/-- A call leaves nothing of its client in the cache that is older than the window. -/
theorem step_exact (httl : 0 < ttl.toInt) (h : s.Exact ttl) (hstep : s.step call = some s') :
    s'.Exact ttl ∧ ∀ nonce t, s'.cache.Stored call.clientID nonce t → call.now - t ≤ ttl.toInt := by
  have hlatest := latest_step h hstep
  obtain ⟨hnow, rfl⟩ := of_guard hstep
  refine ⟨⟨?_, fun c hc => ?_, fun clientID nonce t hstored => ?_,
    fun clientID nonce t hlast ht => ?_⟩, fun nonce t hstored => ?_⟩
  · exact (ReplayCache.checkAndStore_ttl ..).trans h.ttl_eq
  · dsimp only at hc
    split_ifs at hc
    · rcases List.mem_cons.mp hc with rfl | hold
      · exact le_rfl
      · exact (h.past c hold).trans hnow
    · exact (h.past c hc).trans hnow
  · rw [hlatest]
    replace hstored := ReplayCache.stored_checkAndStore_iff.mp hstored
    split_ifs at hstored with hclient hnew
    · rwa [if_pos ⟨hnew.1, hclient, hnew.2⟩]
    · rw [if_neg fun hall => hnew ⟨hall.1, hall.2.2⟩, hclient]
      exact h.latest _ _ _ hstored.1
    · rw [if_neg fun hall => hclient hall.2.1]
      exact h.latest _ _ _ hstored
  · replace ht : call.now - ttl.toInt ≤ t := ht
    rw [hlatest] at hlast
    refine ReplayCache.stored_checkAndStore_iff.mpr ?_
    split_ifs at hlast with hall
    · rwa [if_pos hall.2.1, if_pos ⟨hall.1, hall.2.2⟩]
    · have hold := h.kept _ _ _ hlast (by omega)
      split_ifs with hclient hnew
      · exact absurd ⟨hnew.1, hclient, hnew.2⟩ hall
      · exact ⟨hclient ▸ hold, h.ttl_eq ▸ ht⟩
      · exact hold
  · replace hstored := ReplayCache.stored_checkAndStore_iff.mp hstored
    rw [if_pos rfl, h.ttl_eq] at hstored
    split_ifs at hstored <;> omega

/-- A call is refused exactly if its nonce was last accepted less than `ttl` ago, and leaves of
its client exactly the latest acceptances that are at most `ttl` old. -/
theorem replay_window_exact (ttl : Duration) (clock : ℤ) (calls : List ReplayCall)
    (s : ReplayHistory) (httl : 0 < ttl.toInt) (hpath : Path step anyLabel (new ttl clock) calls s)
    (call : ReplayCall) (hnow : s.clock ≤ call.now) :
    ((s.cache.checkAndStore call.clientID call.nonce call.now).1 = .error .replay ↔
      ∃ t, s.Latest call.clientID call.nonce t ∧ call.now - t < ttl.toInt) ∧
    ∃ s', s.step call = some s' ∧ ∀ nonce t, s'.cache.Stored call.clientID nonce t ↔
      s'.Latest call.clientID nonce t ∧ call.now - t ≤ ttl.toInt := by
  have hs : s.Exact ttl := hpath.invariant
    (fun _ _ _ h _ hstep => (step_exact httl h hstep).1) (new_exact ttl clock)
  obtain ⟨s', hstep⟩ : ∃ s', s.step call = some s' := ⟨_, if_pos hnow⟩
  obtain ⟨hs', hwindow⟩ := step_exact httl hs hstep
  have hclock : s'.clock = call.now := by
    obtain ⟨-, rfl⟩ := of_guard hstep
    rfl
  refine ⟨hs.replay_iff hnow, s', hstep, fun nonce t => ⟨fun hstored => ?_, fun ⟨hlast, ht⟩ => ?_⟩⟩
  · exact ⟨hs'.latest _ _ _ hstored, hwindow _ _ hstored⟩
  · exact hs'.kept _ _ _ hlast (by omega)

/-- A nonce is refused one nanosecond before its window ends. -/
theorem repeated_nonce_refused : ∃ s, Path step anyLabel (new 2 0) [⟨[1], [2], 0⟩] s ∧
    (s.cache.checkAndStore [1] [2] 1).1 = .error .replay := by
  refine Path.exists_of_run_imp (P := fun s => s.clock = 0 ∧ s.accepted = [⟨[1], [2], 0⟩])
    (by decide +kernel) fun s hpath ⟨hclock, haccepted⟩ => ?_
  refine (replay_window_exact 2 0 _ s (by decide) hpath ⟨[1], [2], 1⟩ ?_).1.mpr ⟨0, ?_, by decide⟩
  · simp [hclock]
  · simp [Latest, haccepted]

end ReplayHistory
end VlfProto.Auth
