import VlfProto.Platform.Table
import VlfProto.Platform.Text
import VlfProto.Platform.Clock

/-!
# Gateway configuration

Validation is an ordered list of checks, each naming the setting it refuses; the first one that
fires is the error returned.
-/
namespace VlfProto
open Platform

structure LimitsConfig where
  maxRecvWindowBytes : Int64
  relaySendWindowBytes : Int64
  sessionDatagramWorkers : Int64
  sessionDatagramQueue : Int64

structure TimeoutsConfig where
  relayIdle : Duration
  sessionIdle : Duration
  dialTimeout : Duration

structure AuthConfig where
  clockSkew : Duration
  replayTTL : Duration

structure Config where
  maxDgramPayload : Int64
  clientSecrets : Table Bytes Bytes
  limits : LimitsConfig
  timeouts : TimeoutsConfig
  auth : AuthConfig

namespace Config

def second : Duration := 1000000000

/-- The configuration a gateway runs with when its file sets nothing. -/
def default : Config where
  maxDgramPayload := 1200
  clientSecrets := Finmap.singleton (ascii "smoke-client") (ascii "smoke-secret")
  limits :=
    { maxRecvWindowBytes := 64 * 1024
      relaySendWindowBytes := 64 * 1024
      sessionDatagramWorkers := 4
      sessionDatagramQueue := 4096 }
  timeouts := { relayIdle := 20 * second, sessionIdle := 60 * second, dialTimeout := 10 * second }
  auth := { clockSkew := 60 * second, replayTTL := 60 * second }

/-- The refusals of validation in source order, each with its error text. -/
def checks (c : Config) : List (Bool × String) :=
  [(c.clientSecrets.keys.card = 0, "client_secrets is required"),
    (c.maxDgramPayload < 256,
      "max_dgram_payload must be >= 256, got " ++ toString c.maxDgramPayload),
    (c.limits.maxRecvWindowBytes ≤ 0, "limits.max_recv_window_bytes must be > 0"),
    (c.limits.relaySendWindowBytes ≤ 0, "limits.relay_send_window_bytes must be > 0"),
    (c.limits.sessionDatagramWorkers ≤ 0, "limits.session_datagram_workers must be > 0"),
    (c.limits.sessionDatagramQueue ≤ 0, "limits.session_datagram_queue must be > 0"),
    (c.timeouts.relayIdle ≤ 0, "timeouts.relay_idle must be > 0"),
    (c.timeouts.sessionIdle ≤ 0, "timeouts.session_idle must be > 0"),
    (c.timeouts.dialTimeout ≤ 0, "timeouts.dial_timeout must be > 0"),
    (c.auth.clockSkew ≤ 0, "auth.clock_skew must be > 0"),
    (c.auth.replayTTL ≤ 0, "auth.replay_ttl must be > 0")]

def validate (c : Config) : Except String Unit :=
  match c.checks.find? (fun check => check.1) with
  | some check => .error check.2
  | none => .ok ()

theorem validate_ok_iff (c : Config) :
    c.validate = .ok () ↔ ∀ check ∈ c.checks, check.1 = false := by
  unfold validate
  cases hfind : c.checks.find? (fun check => check.1) with
  | none => simpa using hfind
  | some check =>
    have htrue := List.find?_some hfind
    have hmem := List.mem_of_find?_eq_some hfind
    simp only [reduceCtorEq, false_iff, not_forall]
    exact ⟨check, hmem, by simp [htrue]⟩

/-- An accepted configuration has two positive authentication windows. -/
theorem validate_auth {c : Config} (h : c.validate = .ok ()) :
    0 < c.auth.clockSkew.toInt ∧ 0 < c.auth.replayTTL.toInt := by
  rw [validate_ok_iff] at h
  have hskew := h (c.auth.clockSkew ≤ 0, "auth.clock_skew must be > 0") (by simp [checks])
  have httl := h (c.auth.replayTTL ≤ 0, "auth.replay_ttl must be > 0") (by simp [checks])
  simp only [decide_eq_false_iff_not, Int64.le_iff_toInt_le] at hskew httl
  exact ⟨by simpa using hskew, by simpa using httl⟩

end Config
end VlfProto
