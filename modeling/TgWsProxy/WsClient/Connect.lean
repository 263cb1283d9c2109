import TgWsProxy.World

set_option relaxedAutoImplicit false
set_option autoImplicit false

/-!
# The connectors of `ws_client.rs`

Walking the hostnames of a DC, the records of the Cloudflare zones, a single record, or a Worker.
Each attempt is one `dial`.

## Main definitions

* `TgWsProxy.WsAttempt`, `connectWsForDc` — the direct hostnames of a DC.
* `TgWsProxy.connectCfWsForDc` — the Cloudflare records, in the order `CfAttempts` gives.
* `TgWsProxy.connectCfRecord`, `connectCfWorkerWsForDc` — one record, one Worker.
-/

namespace TgWsProxy

open Process

/-- One connect attempt. -/
def dial (request : DialRequest) : Action WsConnectResult := Prog.perform (Op.dial request)

/-- The stream of a successful attempt. -/
def WsConnectResult.stream : WsConnectResult → Option Stream
  | .connected ws => some ws
  | _ => none

/-- A stream remembers the request that opened it. -/
theorem request_of_exec_dial (cfg : Config) (request : DialRequest) (env : Env) (w : World)
    {ws : Stream} (h : (exec cfg (.dial request) env w).1.stream = some ws) :
    ws.request = request := by
  simp only [exec, execAt] at h
  cases houtcome : env.outcome <;> rw [houtcome] at h <;> cases h
  rfl

/-- TCP to `ip`, upgrade at `wss://{domain}/apiws`. -/
def apiwsRequest (ip domain : Host) (skipTlsVerify : Bool) (timeout : ℕ)
    (sniOverride : Option Host) : DialRequest :=
  ⟨ip, domain, "/apiws".toList, true, skipTlsVerify, timeout, sniOverride⟩

/-- `connect_ws_with_outbound`. -/
def connectWs (ip domain : Host) (skipTlsVerify : Bool) (timeout : ℕ)
    (sniOverride : Option Host) : Action WsConnectResult :=
  dial (apiwsRequest ip domain skipTlsVerify timeout sniOverride)

/-! ## The direct hostnames -/

/-- The outcome of walking one DC's hostnames. -/
structure WsAttempt where
  ws : Option Stream
  /-- Every hostname answered with a redirect. -/
  allRedirects : Bool
  /-- A TLS handshake or upgrade stalled. -/
  upgradeTimedOut : Bool
  /-- A TCP connect stalled. -/
  connectTimedOut : Bool

def WsAttempt.connected (ws : Stream) : WsAttempt := ⟨some ws, false, false, false⟩

/-- The loop of `connect_ws_for_dc_with_outbound` over the remaining hostnames, with the flags
collected so far. -/
def connectWsLoop (ip : Host) (skipTlsVerify : Bool) (timeout : ℕ) (sniOverride : Option Host) :
    List Host → WsAttempt → Action WsAttempt
  | [], flags => return flags
  | domain :: domains, flags => do
    match ← connectWs ip domain skipTlsVerify timeout sniOverride with
    | .connected ws => return .connected ws
    | .redirect _ => connectWsLoop ip skipTlsVerify timeout sniOverride domains flags
    | .failed _ =>
      connectWsLoop ip skipTlsVerify timeout sniOverride domains
        { flags with allRedirects := false }
    | .timedOut =>
      connectWsLoop ip skipTlsVerify timeout sniOverride domains
        { flags with allRedirects := false, upgradeTimedOut := true }
    | .connectTimedOut _ =>
      connectWsLoop ip skipTlsVerify timeout sniOverride domains
        { flags with allRedirects := false, connectTimedOut := true }

/-- `connect_ws_for_dc_with_outbound`. -/
def connectWsForDc (ip : Host) (dc : ℕ) (isMedia skipTlsVerify : Bool) (timeout : ℕ)
    (sniOverride : Option Host) : Action WsAttempt :=
  connectWsLoop ip skipTlsVerify timeout sniOverride (wsDomains dc isMedia)
    ⟨none, true, false, false⟩

/-! ## The Cloudflare records -/

/-- What follows a failed attempt on `domain`: the queue and the redirect flag to go on with. A
record missing from DNS queues its base record, silently. -/
def afterFailure (attempts : CfAttempts) (allRedirects : Bool) (domain : Host) :
    WsConnectResult → CfAttempts × Bool
  | .failed reason =>
    if isDnsNotFound reason then
      match attempts.retryBaseOf domain with
      | some attempts => (attempts, allRedirects)
      | none => (attempts, false)
    else (attempts, false)
  | .timedOut => (attempts.noteTimedOut domain, false)
  | .connectTimedOut _ => (attempts.noteTimedOut domain, false)
  | .redirect _ => (attempts, allRedirects)
  | .connected _ => (attempts, allRedirects)

/-- Every attempt uses up part of the queue, also when it queues a base record. -/
theorem weight_afterFailure {attempts next : CfAttempts} {domain : Host}
    (h : attempts.nextDomain = some (domain, next)) (allRedirects : Bool)
    (outcome : WsConnectResult) :
    (afterFailure next allRedirects domain outcome).1.weight < attempts.weight := by
  have hnext := CfAttempts.weight_nextDomain h
  cases outcome with
  | failed reason =>
    simp only [afterFailure]
    split_ifs
    · split
      · rename_i retried hretry
        have := CfAttempts.weight_retryBaseOf hretry
        simp only
        omega
      · simp only
        omega
    · simp only
      omega
  | connected ws => simp only [afterFailure]; omega
  | redirect code => simp only [afterFailure]; omega
  | connectTimedOut reason => simp only [afterFailure, CfAttempts.weight_noteTimedOut]; omega
  | timedOut => simp only [afterFailure, CfAttempts.weight_noteTimedOut]; omega

/-- The loop of `connect_cf_ws_for_dc_with_outbound` for at most `fuel` turns: the stream, the
record that answered, and whether every attempt was a redirect. -/
def connectCfFuel (skipTlsVerify : Bool) (timeout : ℕ) :
    ℕ → CfAttempts → Bool → Action (Option Stream × Option Host × Bool)
  | 0, _, allRedirects => return (none, none, allRedirects)
  | fuel + 1, attempts, allRedirects =>
    match attempts.nextDomain with
    | none => return (none, none, allRedirects)
    | some (domain, next) => do
      match ← connectWs domain domain skipTlsVerify timeout none with
      | .connected ws => return (some ws, some domain, false)
      | outcome =>
        connectCfFuel skipTlsVerify timeout fuel (afterFailure next allRedirects domain outcome).1
          (afterFailure next allRedirects domain outcome).2

/-- The loop; it ends before its fuel does (`connectCfFuel_eq`). -/
def connectCfLoop (skipTlsVerify : Bool) (timeout : ℕ) (attempts : CfAttempts)
    (allRedirects : Bool) : Action (Option Stream × Option Host × Bool) :=
  connectCfFuel skipTlsVerify timeout (attempts.weight + 1) attempts allRedirects

/-- `connect_cf_ws_for_dc_with_outbound`. -/
def connectCfWsForDc (dc : ℕ) (cfDomains : List Host) (isMedia skipTlsVerify : Bool)
    (timeout : ℕ) : Action (Option Stream × Option Host × Bool) :=
  connectCfLoop skipTlsVerify timeout (.new (cfWsDomains dc cfDomains isMedia)) true

/-- One turn of the loop. -/
theorem connectCfFuel_some {skipTlsVerify : Bool} {timeout fuel : ℕ} {attempts next : CfAttempts}
    {allRedirects : Bool} {domain : Host} (h : attempts.nextDomain = some (domain, next)) :
    connectCfFuel skipTlsVerify timeout (fuel + 1) attempts allRedirects =
      Prog.act (.dial (apiwsRequest domain domain skipTlsVerify timeout none))
        fun outcome => match outcome with
          | .connected ws => .ret (some ws, some domain, false)
          | outcome =>
            connectCfFuel skipTlsVerify timeout fuel
              (afterFailure next allRedirects domain outcome).1
              (afterFailure next allRedirects domain outcome).2 := by
  simp only [connectCfFuel, h, connectWs, dial, Prog.perform_bind]
  congr 1
  funext outcome
  cases outcome <;> rfl

/-- Every attempt uses up part of the queue, so more fuel than the queue's weight changes
nothing. -/
theorem connectCfFuel_eq (skipTlsVerify : Bool) (timeout : ℕ) (n : ℕ) :
    ∀ (m : ℕ) (attempts : CfAttempts) (allRedirects : Bool), attempts.weight < n →
      attempts.weight < m →
      connectCfFuel skipTlsVerify timeout n attempts allRedirects =
        connectCfFuel skipTlsVerify timeout m attempts allRedirects := by
  induction n with
  | zero => intro m attempts allRedirects hn; omega
  | succ n ih =>
    intro m attempts allRedirects hn hm
    obtain ⟨m, rfl⟩ : ∃ m', m = m' + 1 := ⟨m - 1, by omega⟩
    cases hnext : attempts.nextDomain with
    | none => simp only [connectCfFuel, hnext]
    | some x =>
      obtain ⟨domain, next⟩ := x
      rw [connectCfFuel_some hnext, connectCfFuel_some hnext]
      congr 1
      funext outcome
      have hlt := weight_afterFailure hnext allRedirects outcome
      have hgo := ih m (afterFailure next allRedirects domain outcome).1
        (afterFailure next allRedirects domain outcome).2 (by omega) (by omega)
      cases outcome with
      | connected ws => rfl
      | redirect code => exact hgo
      | failed reason => exact hgo
      | connectTimedOut reason => exact hgo
      | timedOut => exact hgo

/-- The loop at its next record. -/
theorem connectCfLoop_some {skipTlsVerify : Bool} {timeout : ℕ} {attempts next : CfAttempts}
    {allRedirects : Bool} {domain : Host} (h : attempts.nextDomain = some (domain, next)) :
    connectCfLoop skipTlsVerify timeout attempts allRedirects =
      Prog.act (.dial (apiwsRequest domain domain skipTlsVerify timeout none))
        fun outcome => match outcome with
          | .connected ws => .ret (some ws, some domain, false)
          | outcome =>
            connectCfLoop skipTlsVerify timeout
              (afterFailure next allRedirects domain outcome).1
              (afterFailure next allRedirects domain outcome).2 := by
  rw [connectCfLoop, connectCfFuel_some h]
  congr 1
  funext outcome
  have hgo := connectCfFuel_eq skipTlsVerify timeout attempts.weight _
    (afterFailure next allRedirects domain outcome).1
    (afterFailure next allRedirects domain outcome).2
    (weight_afterFailure h allRedirects outcome) (Nat.lt_succ_self _)
  cases outcome with
  | connected ws => rfl
  | redirect code => exact hgo
  | failed reason => exact hgo
  | connectTimedOut reason => exact hgo
  | timedOut => exact hgo

/-- The loop on an exhausted queue. -/
theorem connectCfLoop_none {skipTlsVerify : Bool} {timeout : ℕ} {attempts : CfAttempts}
    {allRedirects : Bool} (h : attempts.nextDomain = none) :
    connectCfLoop skipTlsVerify timeout attempts allRedirects =
      .ret (none, none, allRedirects) := by
  simp only [connectCfLoop, connectCfFuel, h]
  rfl

/-- `connect_cf_record_with_outbound`: one already expanded record. -/
def connectCfRecord (record : Host) (skipTlsVerify : Bool) (timeout : ℕ) :
    Action (Option Stream) := do
  return (← connectWs record record skipTlsVerify timeout none).stream

/-! ## Workers -/

/-- `cf_worker_path`. -/
def cfWorkerPath (dst : Host) (dc : ℕ) (isMedia : Bool) : Host :=
  "/apiws?dst=".toList ++ dst ++ "&dc=".toList ++ showNat dc ++ "&media=".toList ++
    (if isMedia then "1".toList else "0".toList)

/-- `connect_cf_worker_ws_for_dc_with_outbound`. -/
def connectCfWorkerWsForDc (workerDomain dst : Host) (dc : ℕ) (isMedia skipTlsVerify : Bool)
    (timeout : ℕ) : Action (Option Stream) := do
  return (← dial ⟨workerDomain, workerDomain, cfWorkerPath dst dc isMedia, false, skipTlsVerify,
    timeout, none⟩).stream

end TgWsProxy
