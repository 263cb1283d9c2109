import TgWsProxy.Pool.Basic

set_option relaxedAutoImplicit false
set_option autoImplicit false

/-!
# The routing ladder of `proxy.rs`

How one client connection finds its upstream: the direct WebSocket with its pool, fronting and
cooldowns, the two Cloudflare tiers, the upstream MTProto proxies and raw TCP.

## Main definitions

* `TgWsProxy.balanced`, `balanceOrder` — the rotation of `--cf-balance`.
* `TgWsProxy.Route.cfWorker`, `cfProxy`, `upstreamProxies`, `directWs` — the tiers.
* `TgWsProxy.Route.cfTarget` — the spare connection that a tier asks the pool for.
* `TgWsProxy.selectUpstream` — the ladder.

## Design

The `reason` arguments of the source only reach log lines and are left out.
-/

namespace TgWsProxy

open Process

/-- The upstream a connection was routed to. -/
inductive Upstream
  | ws (ws : Stream) (framing : WsFraming)
  | mtproto (conn : UpstreamConnection)
  | tcp (dst : Host)
  deriving DecidableEq

/-- `upstream_key`. -/
def upstreamKey (proxy : MtProtoProxy) : Host := proxy.host ++ ":".toList ++ showNat proxy.port

/-! ## Cloudflare domain balancing -/

/-- The domains from index `idx` on, wrapping around. -/
def rotation (domains : List Host) (idx : ℕ) : List Host :=
  (List.range domains.length).map fun i => domains.getD ((idx + i) % domains.length) []

/-- A rotation starts at its index. -/
theorem rotation_eq_cons {domains : List Host} (hdomains : domains ≠ []) (idx : ℕ) :
    ∃ rest, rotation domains (idx % domains.length) =
      domains.getD (idx % domains.length) [] :: rest := by
  obtain ⟨n, hn⟩ := Nat.exists_eq_succ_of_ne_zero (mt List.length_eq_zero_iff.mp hdomains)
  rw [rotation, hn, List.range_succ_eq_map, List.map_cons, ← hn, Nat.add_zero, Nat.mod_mod]
  exact ⟨_, rfl⟩

/-- `balanced`: a list of one domain or none does not touch the counter. -/
def balanced (domains : List Host) (tier : CfTier) : Action (List Host) := do
  if domains.length ≤ 1 then return domains
  else
    let count : ℕ ← Prog.perform (Op.fetchAdd tier)
    return rotation domains (count % domains.length)

/-- `balance_order`. -/
def balanceOrder (domains : List Host) (enabled : Bool) (tier : CfTier) : Action (List Host) :=
  if enabled then balanced domains tier else pure domains

namespace Route

variable (cfg : Config) (route : Route)

/-! ## The Cloudflare tiers -/

/-- `cf_target`: the connection to hold as a spare. With `--cf-balance` its domain is the next one
of the rotation, otherwise the one that just answered. -/
def cfTarget (tier : CfTier) (dst domain : Host) (domains : List Host) : Action CfTarget := do
  let rotated ← if cfg.cfBalance then balanced domains tier else pure [domain]
  let domain := rotated.head?.getD domain
  return ⟨tier, route.dc, route.isMedia, dst, domain, cfg.skipTlsVerify, cfg.timeouts.cfConnect⟩

/-- `has_fallback`. -/
def hasFallback : Bool :=
  !cfg.cfWorkerDomains.isEmpty || !cfg.cfDomains.isEmpty || !cfg.mtprotoProxies.isEmpty

/-- The loop of `cf_worker` over the Workers. -/
def cfWorkerLoop (dst : Host) : List Host → Action (Option Stream)
  | [] => return none
  | worker :: workers => do
    let cooling : Bool ← Prog.perform (Op.cooldownActive (.cfWorkerFail worker))
    if cooling then cfWorkerLoop dst workers
    else
      match ← connectCfWorkerWsForDc worker dst route.dc route.isMedia cfg.skipTlsVerify
          cfg.timeouts.cfConnect with
      | some ws =>
        Prog.perform (Op.cooldownClear (.cfWorkerFail worker))
        WsPool.cfPrefetch (← cfTarget cfg route .worker dst worker cfg.cfWorkerDomains)
        return some ws
      | none =>
        Prog.perform (Op.cooldownSet (.cfWorkerFail worker) cfg.timeouts.cfFailCooldown)
        cfWorkerLoop dst workers

/-- `cf_worker`: the Worker always tunnels to the built-in DC address if there is one. -/
def cfWorker (dst : Host) : Action (Option Stream) := do
  if cfg.cfWorkerDomains = [] then return none
  else
    let dst := (fallbackIp route.dc).getD dst
    match ← WsPool.cfGet .worker route.dc route.isMedia with
    | some (ws, _) => return some ws
    | none =>
      cfWorkerLoop cfg route dst (← balanceOrder cfg.cfWorkerDomains cfg.cfBalance .worker)

/-- `cf_proxy`. -/
def cfProxy : Action (Option Stream) := do
  if cfg.cfDomains = [] then return none
  else
    let cfDomains ← balanceOrder cfg.cfDomains cfg.cfBalance .proxy
    match ← WsPool.cfGet .proxy route.dc route.isMedia with
    | some (ws, _) => return some ws
    | none =>
      let (ws, domain, _) ← connectCfWsForDc route.dc cfDomains route.isMedia cfg.skipTlsVerify
        cfg.timeouts.cfConnect
      match ws, domain with
      | some ws, some domain =>
        WsPool.cfPrefetch (← cfTarget cfg route .proxy [] domain cfg.cfDomains)
        return some ws
      | ws, _ => return ws

/-- `cf_tiers`: Worker tunnel first, then the Cloudflare proxy. -/
def cfTiers (dst : Host) : Action (Option Upstream) := do
  match ← cfWorker cfg route dst with
  | some ws => return some (.ws ws .tunnel)
  | none => return (← cfProxy cfg route).map fun ws => .ws ws .packets

/-! ## Upstream MTProto proxies -/

/-- The loop of `upstream_proxies`. -/
def upstreamLoop : List MtProtoProxy → Action (Option UpstreamConnection)
  | [] => return none
  | proxy :: proxies => do
    let key := upstreamKey proxy
    let cooling : Bool ← Prog.perform (Op.cooldownActive (.upstreamFail key))
    if cooling then upstreamLoop proxies
    else
      let conn : Option UpstreamConnection ← Prog.perform
        (Op.dialUpstream proxy route.dcIdx route.proto cfg.timeouts.upstreamConnect)
      match conn with
      | some conn =>
        Prog.perform (Op.cooldownClear (.upstreamFail key))
        return some conn
      | none =>
        Prog.perform (Op.cooldownSet (.upstreamFail key) cfg.timeouts.upstreamFailCooldown)
        upstreamLoop proxies

/-- `upstream_proxies`. -/
def upstreamProxies : Action (Option UpstreamConnection) :=
  upstreamLoop cfg route cfg.mtprotoProxies

/-- `fallback_chain`. -/
def fallbackChain (dst : Host) (skipCf : Bool) : Action (Option Upstream) := do
  let viaCf ← if skipCf then pure none else cfTiers cfg route dst
  match viaCf with
  | some upstream => return some upstream
  | none => return (← upstreamProxies cfg route).map .mtproto

/-! ## The direct WebSocket -/

/-- `connect_ws`: a DC inside its cooldown is probed on the short clock. -/
def connectWs (targetIp : Host) (sniOverride : Option Host) : Action WsAttempt := do
  let cooling : Bool ← Prog.perform (Op.cooldownActive (.wsFail route.dc route.isMedia))
  connectWsForDc targetIp (websocketDc route.dc) route.isMedia cfg.skipTlsVerify
    (if cooling then cfg.timeouts.wsFailProbe else cfg.timeouts.wsConnect) sniOverride

/-- `on_fronting_success`. -/
def onFrontingSuccess : Action Unit := do
  Prog.perform (Op.cooldownClear (.frontingFail route.dc route.isMedia))
  Prog.perform Op.activateFronting

/-- `cool_down_ws`. -/
def coolDownWs (allRedirects : Bool) : Action Unit :=
  Prog.perform (Op.cooldownSet (.wsFail route.dc route.isMedia)
    (if allRedirects then cfg.timeouts.wsRedirectCooldown else cfg.timeouts.wsFailCooldown))

/-- `cool_down_ip`. -/
def coolDownIp (targetIp : Host) : Action Unit :=
  Prog.perform (Op.cooldownSet (.ipFail targetIp) cfg.timeouts.ipFailCooldown)

/-- `reactive_fronting`: retry a stalled handshake once with the fronted SNI. -/
def reactiveFronting (targetIp : Host) (upgradeTimedOut : Bool) : Action (Option Stream) := do
  if !upgradeTimedOut then return none
  else
    let cooling : Bool ← Prog.perform (Op.cooldownActive (.frontingFail route.dc route.isMedia))
    if cooling then return none
    else
      match cfg.frontingDomain with
      | none => return none
      | some domain =>
        match (← connectWs cfg route targetIp (some domain)).ws with
        | some ws =>
          onFrontingSuccess route
          return some ws
        | none =>
          Prog.perform (Op.cooldownSet (.frontingFail route.dc route.isMedia)
            cfg.timeouts.frontingFailCooldown)
          return none

/-- The cooldowns that `direct_ws` sets when it gives up. -/
def directWsFailed (targetIp : Host) (attempt : WsAttempt) (probing : Bool) :
    Action (Option Stream) := do
  coolDownWs cfg route attempt.allRedirects
  if attempt.connectTimedOut && !probing then
    coolDownIp cfg targetIp
  return none

/-- `direct_ws`. -/
def directWs (targetIp : Host) : Action (Option Stream) := do
  let active : Bool ← Prog.perform Op.frontingActive
  let stickyFronting := if active then cfg.frontingDomain else none
  let probing : Bool ← Prog.perform (Op.cooldownActive (.wsFail route.dc route.isMedia))
  let attempt ← connectWs cfg route targetIp stickyFronting
  match stickyFronting, attempt.ws with
  | some _, some ws =>
    onFrontingSuccess route
    return some ws
  | some _, none =>
    Prog.perform Op.deactivateFronting
    Prog.perform (Op.cooldownSet (.frontingFail route.dc route.isMedia)
      cfg.timeouts.frontingFailCooldown)
    directWsFailed cfg route targetIp attempt probing
  | none, some ws =>
    Prog.perform (Op.cooldownClear (.wsFail route.dc route.isMedia))
    Prog.perform (Op.cooldownClear (.ipFail targetIp))
    return some ws
  | none, none =>
    match ← reactiveFronting cfg route targetIp attempt.upgradeTimedOut with
    | some ws => return some ws
    | none => directWsFailed cfg route targetIp attempt probing

/-! ## Raw TCP -/

/-- `tcp_fallback`. -/
def tcpFallback (dst : Host) : Upstream := .tcp dst

/-- `tcp_last_resort`: the built-in DC address before the `--dc-ip` override. -/
def tcpLastResort (targetIp : Host) : Upstream :=
  tcpFallback ((fallbackIp route.dc).getD targetIp)

end Route

/-! ## The ladder -/

open Route

/-- `select_upstream` behind the IP-cooldown detour: the pool, a fresh WebSocket, and then what is
left of the ladder. -/
def selectDirect (cfg : Config) (route : Route) (targetIp : Host) (ipCooling : Bool) :
    Action (Option Upstream) := do
  let cooling : Bool ← Prog.perform (Op.cooldownActive (.ipFail targetIp))
  match ← WsPool.get ⟨route.dc, route.isMedia, targetIp, cfg.skipTlsVerify⟩ !cooling with
  | some ws => return some (.ws ws .packets)
  | none =>
    match ← directWs cfg route targetIp with
    | some ws => return some (.ws ws .packets)
    | none =>
      if ipCooling then return some (tcpLastResort route targetIp)
      else
        return some ((← fallbackChain cfg route targetIp cfg.cfPriority).getD
          (tcpLastResort route targetIp))

/-- `select_upstream` with a `--dc-ip` target, behind `--cf-priority`. -/
def selectTarget (cfg : Config) (route : Route) (targetIp : Host) : Action (Option Upstream) := do
  let active : Bool ← Prog.perform (Op.cooldownActive (.ipFail targetIp))
  let ipCooling := active && hasFallback cfg
  if ipCooling then
    match ← fallbackChain cfg route targetIp cfg.cfPriority with
    | some upstream => return some upstream
    | none => selectDirect cfg route targetIp ipCooling
  else selectDirect cfg route targetIp ipCooling

/-- `select_upstream`. -/
def selectUpstream (cfg : Config) (route : Route) (targetIp : Option Host) :
    Action (Option Upstream) := do
  match targetIp with
  | none =>
    match fallbackIp route.dc with
    | none => return none
    | some fallback =>
      return some ((← fallbackChain cfg route fallback false).getD (tcpFallback fallback))
  | some targetIp =>
    let viaCf ← if cfg.cfPriority then cfTiers cfg route targetIp else pure none
    match viaCf with
    | some upstream => return some upstream
    | none => selectTarget cfg route targetIp

end TgWsProxy
