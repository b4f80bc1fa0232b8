import VlfProto.Auth.ReplayProtection
import VlfProto.Platform.TextRoundTrip

/-! # Rejected and foreign messages leave no trace -/

namespace VlfProto.Auth
open Platform Option List

namespace ReplayCache

variable {r full kept : ReplayCache} {clientID clientID' nonce nonce' : Bytes} {now t t' : ℤ}

theorem checkAndStore_ok_iff : (r.checkAndStore clientID nonce now).1 = .ok () ↔
    ∀ t, r.Stored clientID nonce t → t ≤ now - r.ttl.toInt := by
  constructor
  · intro hok t hstored
    by_contra hfresh
    rw [checkAndStore_of_remembers ⟨t, hstored, le_rfl⟩ (not_le.mp hfresh)] at hok
    cases hok
  · intro hstale
    by_cases hstored : ∃ t, r.Stored clientID nonce t
    · obtain ⟨t, hstored⟩ := hstored
      exact checkAndStore_of_stale hstored (hstale t hstored)
    · have hnone : (r.pruned clientID now).lookup nonce = none := by
        rw [pruned_lookup]
        cases hclient : r.items.lookup clientID with
        | none => rfl
        | some nonces =>
          rw [getD_some]
          cases hnonce : nonces.lookup nonce with
          | none => rfl
          | some t => exact absurd ⟨t, nonces, hclient, hnonce⟩ hstored
      simp [checkAndStore, hnone]

theorem stored_checkAndStore_iff :
    (r.checkAndStore clientID nonce now).2.Stored clientID' nonce' t ↔
    if clientID' = clientID then
      if (r.checkAndStore clientID nonce now).1 = .ok () ∧ nonce' = nonce then t = now
      else r.Stored clientID nonce' t ∧ now - r.ttl.toInt ≤ t
    else r.Stored clientID' nonce' t := by
  have hpruned : (r.pruned clientID now).lookup nonce' = some t ↔
      r.Stored clientID nonce' t ∧ now - r.ttl.toInt ≤ t := by
    rw [pruned_lookup, Stored]
    cases hclient : r.items.lookup clientID with
    | none => simp
    | some nonces =>
      simp only [getD_some, bind_eq_some_iff, some.injEq, exists_eq_left',
        ite_none_left_eq_some, not_lt]
      constructor
      · rintro ⟨t, hnonce, hkeep, rfl⟩
        exact ⟨hnonce, hkeep⟩
      · rintro ⟨hnonce, hkeep⟩
        exact ⟨t, hnonce, hkeep, rfl⟩
  by_cases hclient : clientID' = clientID
  · subst hclient
    rw [if_pos rfl]
    unfold checkAndStore
    dsimp only
    split_ifs with hrefused haccepted haccepted
    · cases haccepted.1
    · rw [← hpruned]
      simp [Stored]
    · obtain ⟨-, rfl⟩ := haccepted
      simp [Stored, eq_comm]
    · have hne : nonce' ≠ nonce := fun heq => haccepted ⟨rfl, heq⟩
      rw [← hpruned]
      simp [Stored, Finmap.lookup_insert_of_ne _ hne]
  · rw [if_neg hclient]
    unfold checkAndStore
    dsimp only
    split_ifs <;> simp [Stored, Finmap.lookup_insert_of_ne _ hclient]

/-- For one client, the cache `kept` holds nothing that `full` does not hold, except
for what was already too old at `now`. -/
structure Trails (full kept : ReplayCache) (clientID : Bytes) (now : ℤ) : Prop where
  ttl : kept.ttl = full.ttl
  stored : ∀ nonce t, kept.Stored clientID nonce t →
    full.Stored clientID nonce t ∨ t < now - full.ttl.toInt

theorem Trails.refl (r : ReplayCache) (clientID : Bytes) (now : ℤ) : r.Trails r clientID now :=
  ⟨rfl, fun _ _ => .inl⟩

theorem Trails.mono (h : full.Trails kept clientID now) (hle : now ≤ t) :
    full.Trails kept clientID t where
  ttl := h.ttl
  stored nonce ts hstored := by
    rcases h.stored nonce ts hstored with hfull | hold
    · exact .inl hfull
    · exact .inr (by omega)

/-- A call that is refused, or names another client, is made on one side only. -/
theorem Trails.skip (h : full.Trails kept clientID now)
    (hskip : clientID' = clientID → (full.checkAndStore clientID' nonce' now).1 ≠ .ok ()) :
    (full.checkAndStore clientID' nonce' now).2.Trails kept clientID now where
  ttl := by rw [checkAndStore_ttl, h.ttl]
  stored nonce t hstored := by
    rw [checkAndStore_ttl, stored_checkAndStore_iff]
    rcases h.stored nonce t hstored with hfull | hold
    · by_cases hclient : clientID = clientID'
      · rw [if_pos hclient, if_neg fun haccepted => hskip hclient.symm haccepted.1, ← hclient]
        by_cases hkeep : now - full.ttl.toInt ≤ t
        · exact .inl ⟨hfull, hkeep⟩
        · exact .inr (not_le.mp hkeep)
      · rw [if_neg hclient]
        exact .inl hfull
    · exact .inr hold

theorem Trails.accepted (h : full.Trails kept clientID now)
    (hok : (full.checkAndStore clientID nonce now).1 = .ok ()) :
    (kept.checkAndStore clientID nonce now).1 = .ok () ∧
      (full.checkAndStore clientID nonce now).2.Trails (kept.checkAndStore clientID nonce now).2
        clientID now := by
  have hok' : (kept.checkAndStore clientID nonce now).1 = .ok () := by
    rw [checkAndStore_ok_iff, h.ttl]
    intro t hstored
    rcases h.stored nonce t hstored with hfull | hold
    · exact checkAndStore_ok_iff.mp hok t hfull
    · exact hold.le
  refine ⟨hok', by simp only [checkAndStore_ttl, h.ttl], fun nonce' t hstored => ?_⟩
  rw [stored_checkAndStore_iff, if_pos rfl] at hstored
  rw [checkAndStore_ttl, stored_checkAndStore_iff, if_pos rfl]
  by_cases hnonce : nonce' = nonce
  · rw [if_pos ⟨hok', hnonce⟩] at hstored
    rw [if_pos ⟨hok, hnonce⟩]
    exact .inl hstored
  · rw [if_neg fun haccepted => hnonce haccepted.2, h.ttl] at hstored
    rw [if_neg fun haccepted => hnonce haccepted.2]
    rcases h.stored nonce' t hstored.1 with hfull | hold
    · exact .inl ⟨hfull, hstored.2⟩
    · exact .inr hold

end ReplayCache

namespace Verifier

variable {v : Verifier} {full kept : ReplayCache} {clientID : Bytes} {now : ℤ}

/-- A sequence of messages, each with the verdict on it. -/
def verdicts (v : Verifier) : List Event → List (Event × Bool)
  | [] => []
  | e :: events => (e, (v.handle e.1 e.2).1) :: (v.handle e.1 e.2).2.verdicts events

def acceptedFor (clientID : Bytes) (p : Event × Bool) : Bool :=
  p.2 && p.1.2.cacheKey.1 = clientID

theorem isOk_iff (result : Except AuthError Unit) : result.isOk = true ↔ result = .ok () := by
  cases result <;> simp [Except.isOk, Except.toBool]

theorem handle_trails_of_skipped (h : full.Trails kept clientID now) (q : Request)
    (hskip : acceptedFor clientID ((now, q), ({ v with replay := full }.handle now q).1) = false) :
    ∃ full', ({ v with replay := full }.handle now q).2 = { v with replay := full' } ∧
      full'.Trails kept clientID now := by
  rcases v.handle_replay_cases now q with hnone | ⟨-, -, -, hstore⟩
  · exact ⟨full, by rw [hnone full], h⟩
  · refine ⟨_, by rw [hstore full]; rfl, h.skip fun hclient hok => ?_⟩
    subst hclient
    rw [hstore full] at hskip
    simp [acceptedFor, remember, (isOk_iff _).mpr hok] at hskip

theorem handle_trails_of_accepted (h : full.Trails kept clientID now) (q : Request)
    (haccepted : acceptedFor clientID ((now, q), ({ v with replay := full }.handle now q).1)) :
    ({ v with replay := kept }.handle now q).1 = ({ v with replay := full }.handle now q).1 ∧
    ∃ full' kept', ({ v with replay := full }.handle now q).2 = { v with replay := full' } ∧
      ({ v with replay := kept }.handle now q).2 = { v with replay := kept' } ∧
      full'.Trails kept' clientID now := by
  obtain ⟨hverdict, hclient⟩ : ({ v with replay := full }.handle now q).1 = true ∧
      q.cacheKey.1 = clientID := by simpa [acceptedFor] using haccepted
  rcases v.handle_replay_cases now q with hnone | ⟨-, -, -, hstore⟩
  · rw [hnone full] at hverdict
    cases hverdict
  · subst hclient
    rw [hstore full] at hverdict
    have hok : (full.checkAndStore q.cacheKey.1 q.cacheKey.2 now).1 = .ok () :=
      (isOk_iff _).mp hverdict
    obtain ⟨hok', htrails⟩ := h.accepted hok
    refine ⟨?_, _, _, by rw [hstore full]; rfl, by rw [hstore kept]; rfl, htrails⟩
    rw [hstore full, hstore kept]
    simp [remember, hok, hok']

theorem verdicts_trails {events : List Event} (h : full.Trails kept clientID now)
    (hclock : ((now :: events.map Prod.fst)).Pairwise (· ≤ ·)) :
    { v with replay := kept }.verdicts
        ((({ v with replay := full }.verdicts events).filter (acceptedFor clientID)).map Prod.fst) =
      ({ v with replay := full }.verdicts events).filter (acceptedFor clientID) := by
  induction events generalizing full kept now with
  | nil => rfl
  | cons e events ih =>
    obtain ⟨now', q⟩ := e
    rw [map_cons, pairwise_cons] at hclock
    replace h := h.mono (hclock.1 now' (by simp))
    rw [verdicts]
    cases hkeep : acceptedFor clientID ((now', q), ({ v with replay := full }.handle now' q).1) with
    | false =>
      obtain ⟨full', hfull, h'⟩ := handle_trails_of_skipped h q hkeep
      rw [filter_cons_of_neg (by simpa using hkeep), hfull]
      exact ih h' hclock.2
    | true =>
      obtain ⟨hverdict, full', kept', hfull, hkept, h'⟩ := handle_trails_of_accepted h q hkeep
      rw [filter_cons_of_pos hkeep, hfull, map_cons, verdicts, hverdict, hkept]
      rw [ih h' hclock.2]

/-- Of a sequence of messages, take out those that are rejected and those that name
another client: every message that is left gets the verdict that it got before. -/
theorem verdicts_acceptedFor (v : Verifier) (clientID : Bytes) (events : List Event)
    (hclock : (events.map Prod.fst).Pairwise (· ≤ ·)) :
    v.verdicts (((v.verdicts events).filter (acceptedFor clientID)).map Prod.fst) =
      (v.verdicts events).filter (acceptedFor clientID) := by
  cases events with
  | nil => rfl
  | cons e events =>
    have hrefl := ReplayCache.Trails.refl v.replay clientID e.1
    refine verdicts_trails (v := v) hrefl ?_
    rw [map_cons] at hclock ⊢
    rw [pairwise_cons]
    refine ⟨fun now hnow => ?_, hclock⟩
    rcases mem_cons.mp hnow with rfl | hlater
    · exact le_rfl
    · exact (pairwise_cons.mp hclock).1 now hlater

/-- A message of the smoke client, the same message again, one of a client that is not
registered, and a message with another nonce. -/
def mixedCalls : List Event :=
  [(1760000000000000000, .http capturedRequest), (1760000001000000000, .http capturedRequest),
    (1760000002000000000, .http { capturedRequest with clientHeader := ascii "other" }),
    (1760000003000000000, .http { capturedRequest with nonceHeader := ascii "n2" })]

theorem mixedCalls_acceptedFor :
    ((newVerifier constantCrypto Config.default.clientSecrets.lookup Config.default).verdicts
      mixedCalls).map Prod.snd = [true, false, false, true] ∧
    (newVerifier constantCrypto Config.default.clientSecrets.lookup Config.default).verdicts
        ((((newVerifier constantCrypto Config.default.clientSecrets.lookup
          Config.default).verdicts mixedCalls).filter
            (acceptedFor (ascii "smoke-client"))).map Prod.fst) =
      ((newVerifier constantCrypto Config.default.clientSecrets.lookup Config.default).verdicts
        mixedCalls).filter (acceptedFor (ascii "smoke-client")) :=
  ⟨by decide +kernel, verdicts_acceptedFor _ _ mixedCalls (by decide)⟩

/-! ### Fresh nonces and signed requests -/

def AcceptedAt (v : Verifier) (events : List Event) (key : Bytes × Bytes) (t : ℤ) : Prop :=
  ∃ pre e post, events = pre ++ e :: post ∧ (v.after pre).accepts e ∧ e.2.cacheKey = key ∧ e.1 = t

/-- No message with this cache cell was accepted within the replay window before `now`. -/
def FreshAt (v : Verifier) (events : List Event) (key : Bytes × Bytes) (now : ℤ) : Prop :=
  ∀ t, v.AcceptedAt events key t → t ≤ now - v.replay.ttl.toInt

variable {events : List Event} {nonce secret : Bytes} {t : ℤ}

theorem AcceptedAt.cons {key : Bytes × Bytes} {e : Event}
    (h : (v.handle e.1 e.2).2.AcceptedAt events key t) : v.AcceptedAt (e :: events) key t := by
  obtain ⟨pre, e', post, rfl, haccepts, hkey, ht⟩ := h
  exact ⟨e :: pre, e', post, rfl, haccepts, hkey, ht⟩

theorem stored_handle {e : Event} (h : (v.handle e.1 e.2).2.replay.Stored clientID nonce t) :
    v.replay.Stored clientID nonce t ∨ v.accepts e ∧ e.2.cacheKey = (clientID, nonce) ∧
      e.1 = t := by
  obtain hnone | ⟨-, -, -, hstore⟩ := v.handle_cases e.1 e.2
  · rw [hnone] at h
    exact .inl h
  · rw [hstore] at h
    have hstored := ReplayCache.stored_checkAndStore_iff.mp h
    split_ifs at hstored with hclient haccepted
    · refine .inr ⟨?_, Prod.ext hclient.symm haccepted.2.symm, hstored.symm⟩
      rw [accepts, hstore, isOk_iff]
      exact haccepted.1
    · exact .inl (hclient ▸ hstored.1)
    · exact .inl hstored

theorem stored_after (h : (v.after events).replay.Stored clientID nonce t) :
    v.replay.Stored clientID nonce t ∨ v.AcceptedAt events (clientID, nonce) t := by
  induction events generalizing v with
  | nil => exact .inl h
  | cons e events ih =>
    rcases ih h with hstored | haccepted
    · rcases stored_handle hstored with hstored | ⟨haccepts, hkey, ht⟩
      · exact .inl hstored
      · exact .inr ⟨[], e, events, rfl, haccepts, hkey, ht⟩
    · exact .inr haccepted.cons

theorem remember_of_fresh (hempty : v.replay.items = ∅)
    (hfresh : v.FreshAt events (clientID, nonce) now) :
    ((v.after events).remember clientID nonce now).1 = .ok () := by
  refine ReplayCache.checkAndStore_ok_iff.mpr fun t hstored => ?_
  rw [(v.after_settings events).1]
  rcases stored_after hstored with ⟨nonces, hlookup, -⟩ | haccepted
  · rw [hempty, Finmap.lookup_empty] at hlookup
    cases hlookup
  · exact hfresh t haccepted

theorem not_skewed {instant : ℤ} (h : |now - instant| ≤ v.clockSkew.toInt) :
    ¬v.skewed now instant := by
  obtain ⟨hlo, hhi⟩ := abs_le.mp h
  obtain ⟨hmin, hmax⟩ := duration_bounds v.clockSkew
  rw [skewed, instantSub_of_mem (by unfold minDuration maxDuration at *; omega) (by omega)]
  omega

theorem after_crypto (v : Verifier) (events : List Event) : (v.after events).crypto = v.crypto := by
  induction events generalizing v with
  | nil => rfl
  | cons e events ih =>
    rw [after_cons, ih]
    obtain h | ⟨-, -, -, h⟩ := v.handle_cases e.1 e.2 <;> rw [h]
    rfl

/-- A request whose headers carry the values the signature was made for. -/
theorem verifyHTTP_signed {r : HTTPRequest} {tsMS : ℤ} (hclient : r.clientID ≠ [])
    (hnonce : r.nonce ≠ []) (hts : trimSpace r.tsHeader ≠ []) (hparse : r.tsMS = some tsMS)
    (hskew : ¬v.skewed now (unixMilli tsMS)) (hsecret : v.secretFor r.clientID = some secret)
    (hsig : trimSpace r.sigHeader =
      hexEncode (v.crypto.hmac secret (httpMaterial v.crypto r tsMS))) :
    v.verifyHTTP now r = ((v.remember r.clientID r.nonce now).1.map fun _ => r.clientID,
      (v.remember r.clientID r.nonce now).2) := by
  have hdecode : hexDecode (trimSpace r.sigHeader) =
      some (v.crypto.hmac secret (httpMaterial v.crypto r tsMS)) := by
    rw [hsig, hexDecode_hexEncode]
  have hpresent : trimSpace r.sigHeader ≠ [] := by
    intro hempty
    have hlength := v.crypto.hmac_length secret (httpMaterial v.crypto r tsMS)
    rw [hempty, hexDecode, Option.some.injEq] at hdecode
    rw [← hdecode] at hlength
    cases hlength
  simp only [verifyHTTP, hclient, hts, hnonce, hpresent, or_false, if_false, hparse, if_neg hskew,
    hsecret, hdecode, ne_eq, not_true_eq_false]

end Verifier
end VlfProto.Auth
