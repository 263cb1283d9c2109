import TgWsProxy.WsClient.Connect

set_option relaxedAutoImplicit false
set_option autoImplicit false

/-!
# The connection pool of `pool.rs`

Idle WebSockets per `(dc, is_media)`, and a smaller pool per Cloudflare tier. A `get` takes the
freshest usable entry and starts a refill in the background; a refill registers its key, measures
the bucket, connects what is missing, pushes what fits and gives the key back.

## Main definitions

* `TgWsProxy.WsPool.get`, `warmup`, `refill`, `connectBatch` — the direct pool.
* `TgWsProxy.WsPool.cfGet`, `cfRefill`, `cfConnectOne` — the Cloudflare pool.
-/

namespace TgWsProxy.WsPool

open Process

variable (cfg : Config)

/-! ## The direct pool -/

/-- `WsPool::get`: take a usable connection, and schedule a refill unless the caller vetoes it. -/
def get (args : RefillArgs) (allowRefill : Bool) : Action (Option Stream) := do
  let now : ℕ ← Prog.perform Op.now
  Prog.perform (Op.poolTake args.key now (if allowRefill then some args else none))

/-- The `for` loop of `connect_batch`: up to `count` more connections, until one fails. -/
def batchLoop (connect : Action WsAttempt) : ℕ → List Stream → Action (List Stream)
  | 0, results => return results
  | count + 1, results => do
    match (← connect).ws with
    | some ws => batchLoop connect count (results ++ [ws])
    | none => return results

/-- Pool connects give up after eight seconds. -/
def batchTimeout : ℕ := 8

/-- `connect_batch`: fronted connections while the fronting window is open. -/
def connectBatch (args : RefillArgs) (count : ℕ) : Action (List Stream) := do
  let active : Bool ← Prog.perform Op.frontingActive
  batchLoop (connectWsForDc args.targetIp args.dc args.isMedia args.skipTls batchTimeout
    (if active then cfg.frontingDomain else none)) count []

/-- The end of `refill`: push the new connections, if any, and drop the guard. -/
def refillFinish (key : PoolKey) (conns : List Stream) : Action Unit := do
  if conns ≠ [] then
    Prog.perform (Op.refillPush key conns)
  Prog.perform (Op.refillRelease key)

/-- `refill` behind the registration. -/
def refillRegistered (args : RefillArgs) : Action Unit := do
  let current : ℕ ← Prog.perform (Op.bucketLen args.key)
  if current ≥ cfg.poolSize then
    Prog.perform (Op.refillRelease args.key)
  else
    refillFinish args.key (← connectBatch cfg args (cfg.poolSize - current))

/-- `refill`: at most one runs per key, the others return at once. -/
def refill (args : RefillArgs) : Action Unit := do
  let registered : Bool ← Prog.perform (Op.refillRegister args.key)
  if registered then refillRegistered cfg args

/-- One bucket of `warmup`. -/
def warmupBucket (args : RefillArgs) : Action Unit := do
  let conns ← connectBatch cfg args cfg.poolSize
  Prog.perform (Op.warmupPush args.key conns)

/-- `warmup`: both buckets of every DC, in the order the map yields them. -/
def warmup : List (ℕ × Host) → Action Unit
  | [] => return ()
  | (dc, ip) :: dcs => do
    warmupBucket cfg ⟨dc, false, ip, cfg.skipTlsVerify⟩
    warmupBucket cfg ⟨dc, true, ip, cfg.skipTlsVerify⟩
    warmup dcs

/-! ## The Cloudflare pool -/

/-- `cf_prefetch`: open one spare connection in the background. -/
def cfPrefetch (target : CfTarget) : Action Unit := Prog.perform (Op.cfPrefetch target)

/-- `cf_get`: a usable connection and the domain it runs through. A hit schedules the same
connection again. -/
def cfGet (tier : CfTier) (dc : ℕ) (isMedia : Bool) : Action (Option (Stream × Host)) := do
  let now : ℕ ← Prog.perform Op.now
  let taken : Option CfEntry ← Prog.perform (Op.cfTake (tier, dc, isMedia) now)
  match taken with
  | none => return none
  | some entry =>
    cfPrefetch ⟨tier, dc, isMedia, entry.dst, entry.domain, entry.skipTlsVerify,
      entry.connectTimeout⟩
    return some (entry.ws, entry.domain)

/-- `cf_connect_one`. -/
def cfConnectOne (target : CfTarget) : Action (Option Stream) :=
  match target.tier with
  | .worker =>
    connectCfWorkerWsForDc target.domain target.dst target.dc target.isMedia target.skipTlsVerify
      target.connectTimeout
  | .proxy => connectCfRecord target.domain target.skipTlsVerify target.connectTimeout

/-- `cf_refill` behind the registration. -/
def cfRefillRegistered (target : CfTarget) : Action Unit := do
  let current : ℕ ← Prog.perform (Op.cfLen target.key)
  if current ≥ cfg.cfBudget then
    Prog.perform (Op.cfRelease target.key)
  else
    match ← cfConnectOne target with
    | none => Prog.perform (Op.cfRelease target.key)
    | some ws =>
      Prog.perform (Op.cfPush target ws)
      Prog.perform (Op.cfRelease target.key)

/-- `cf_refill`. -/
def cfRefill (target : CfTarget) : Action Unit := do
  let registered : Bool ← Prog.perform (Op.cfRegister target.key)
  if registered then cfRefillRegistered cfg target

end TgWsProxy.WsPool
