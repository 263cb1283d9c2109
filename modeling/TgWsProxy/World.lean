import Mathlib.Logic.Function.Basic
import TgWsProxy.Bridge
import TgWsProxy.Lib.Tasks
import TgWsProxy.WsClient.Records

set_option relaxedAutoImplicit false
set_option autoImplicit false

/-!
# The shared state of the proxy and its atomic operations

Everything that connections, the startup warm-up and background refills share: the failure
cooldowns and balance counters of `proxy.rs`, the fronting window of `runtime.rs` and the
connection pools of `pool.rs`. An operation is what happens under one lock, in one atomic
instruction, or in one connect attempt; between two operations of a task anything may happen.

## Main definitions

* `TgWsProxy.Config` — the settings that routing and pooling read.
* `TgWsProxy.World` — the shared state.
* `TgWsProxy.Op`, `Op.Resp` — the operations and what they return.
* `TgWsProxy.Env` — the input of the environment to one operation: elapsed time, the outcome of a
  connect, which idle connections have something to read, how long each push takes.
* `TgWsProxy.exec` — what an operation does.

## Design

The five cooldown maps are one map with tagged keys. A `HashMap` of buckets is a function that is
empty where there is no entry. Seconds are natural numbers. `WsPool::get` spawns its refill with
nothing but a log line after the lock is released, so taking an entry and spawning the refill are
one operation.
-/

namespace TgWsProxy

open Process

/-! ## Settings -/

/-- An upstream MTProto proxy. -/
structure MtProtoProxy where
  host : Host
  port : ℕ
  secret : Host
  deriving DecidableEq

/-- `Timeouts`, in seconds. -/
structure Timeouts where
  wsConnect : ℕ
  wsFailProbe : ℕ
  wsFailCooldown : ℕ
  wsRedirectCooldown : ℕ
  ipFailCooldown : ℕ
  upstreamConnect : ℕ
  upstreamFailCooldown : ℕ
  cfConnect : ℕ
  cfFailCooldown : ℕ
  frontingFailCooldown : ℕ

/-- The values that `CooldownMap::set` is called with. -/
def Timeouts.cooldowns (t : Timeouts) : List ℕ :=
  [t.wsFailCooldown, t.wsRedirectCooldown, t.ipFailCooldown, t.upstreamFailCooldown,
    t.cfFailCooldown, t.frontingFailCooldown]

/-- The settings that routing and pooling read. -/
structure Config where
  dcIp : List (ℕ × Host)
  skipTlsVerify : Bool
  poolSize : ℕ
  poolMaxAge : ℕ
  cfPriority : Bool
  cfBalance : Bool
  cfDomains : List Host
  cfWorkerDomains : List Host
  mtprotoProxies : List MtProtoProxy
  frontingDomain : Option Host
  frontingCooldown : ℕ
  timeouts : Timeouts

/-- `DEFAULT_DC_IPS`. -/
def defaultDcIps : List (ℕ × Host) :=
  [(1, "149.154.175.50".toList), (2, "149.154.167.51".toList), (3, "149.154.175.100".toList),
   (4, "149.154.167.91".toList), (5, "149.154.171.5".toList), (203, "91.105.192.100".toList)]

/-- `default_dc_ip`, which `Runtime::fallback_ip` passes through. -/
def fallbackIp (dc : ℕ) : Option Host := (defaultDcIps.find? fun e => e.1 == dc).map Prod.snd

/-- `Config::dc_target_ip`: the last `--dc-ip` given for the DC. -/
def Config.dcTargetIp (cfg : Config) (dc : ℕ) : Option Host :=
  (cfg.dcIp.reverse.find? fun e => e.1 == dc).map Prod.snd

/-! ## Connections -/

/-- The arguments of `connect_ws_with_path`: TCP goes to `host`, the request to `domain`. -/
structure DialRequest where
  host : Host
  domain : Host
  path : Host
  requestBinarySubprotocol : Bool
  skipTlsVerify : Bool
  timeout : ℕ
  sniOverride : Option Host
  deriving DecidableEq

/-- A live WebSocket, with the request it was opened by. -/
structure Stream where
  id : ℕ
  request : DialRequest
  deriving DecidableEq

/-- The outcome of a WebSocket connection attempt. -/
inductive WsConnectResult
  | connected (ws : Stream)
  | redirect (code : ℕ)
  | failed (reason : Host)
  | connectTimedOut (reason : Host)
  | timedOut
  deriving DecidableEq

/-- What the environment decides about a connect attempt. -/
inductive DialOutcome
  | connected
  | redirect (code : ℕ)
  | failed (reason : Host)
  | connectTimedOut (reason : Host)
  | timedOut
  deriving DecidableEq

/-- A connected upstream MTProto proxy. -/
structure UpstreamConnection where
  id : ℕ
  faketls : Bool
  deriving DecidableEq

/-! ## Pools -/

/-- A bucket of the direct pool: `(dc, is_media)`. -/
abbrev PoolKey := ℕ × Bool

/-- Which Cloudflare tier a connection belongs to. -/
inductive CfTier
  | worker
  | proxy
  deriving DecidableEq

/-- A bucket of the Cloudflare pool. -/
abbrev CfKey := CfTier × ℕ × Bool

structure PoolEntry where
  ws : Stream
  created : ℕ

structure CfEntry where
  ws : Stream
  created : ℕ
  domain : Host
  dst : Host
  skipTlsVerify : Bool
  connectTimeout : ℕ
  deriving DecidableEq

/-- What a background Cloudflare refill needs to reopen one connection. -/
structure CfTarget where
  tier : CfTier
  dc : ℕ
  isMedia : Bool
  dst : Host
  domain : Host
  skipTlsVerify : Bool
  connectTimeout : ℕ
  deriving DecidableEq

def CfTarget.key (t : CfTarget) : CfKey := (t.tier, t.dc, t.isMedia)

/-- The arguments of `WsPool::refill`. -/
structure RefillArgs where
  dc : ℕ
  isMedia : Bool
  targetIp : Host
  skipTls : Bool
  deriving DecidableEq

def RefillArgs.key (a : RefillArgs) : PoolKey := (a.dc, a.isMedia)

/-- `CF_POOL_MAX.min(pool_size)`. -/
def Config.cfBudget (cfg : Config) : ℕ := min 1 cfg.poolSize

/-- The `pop` loop of `get` and `cf_get`, on a bucket with the freshest entry first: unusable
entries are dropped until a usable one is found. -/
def popUsable {E : Type} (usable : E → Bool) : List E → Option E × List E
  | [] => (none, [])
  | e :: es => if usable e then (some e, es) else popUsable usable es

/-- Take from the back of a bucket. -/
def takeUsable {E : Type} (usable : E → Bool) (bucket : List E) : Option E × List E :=
  ((popUsable usable bucket.reverse).1, (popUsable usable bucket.reverse).2.reverse)

/-! ## The world -/

/-- The keys of the five cooldown maps. -/
inductive CooldownKey
  | wsFail (dc : ℕ) (isMedia : Bool)
  | ipFail (ip : Host)
  | upstreamFail (key : Host)
  | cfWorkerFail (domain : Host)
  | frontingFail (dc : ℕ) (isMedia : Bool)
  deriving DecidableEq

/-- The shared state. -/
structure World where
  clock : ℕ
  /-- The number of the next stream to be opened. -/
  nextStream : ℕ
  /-- Deadlines of the cooldowns. -/
  cooldowns : CooldownKey → Option ℕ
  frontingUntil : Option ℕ
  /-- `CF_WORKER_BALANCE_COUNTER` and `CF_BALANCE_COUNTER`. -/
  counters : CfTier → ℕ
  idle : PoolKey → List PoolEntry
  refilling : PoolKey → Bool
  cfIdle : CfKey → List CfEntry
  cfRefilling : CfKey → Bool

/-- A process that has just started. -/
def World.start : World where
  clock := 0
  nextStream := 0
  cooldowns _ := none
  frontingUntil := none
  counters _ := 0
  idle _ := []
  refilling _ := false
  cfIdle _ := []
  cfRefilling _ := false

/-! ## Operations -/

/-- The atomic operations. -/
inductive Op
  /-- `Instant::now()`. -/
  | now
  /-- `connect_ws_with_path`. -/
  | dial (request : DialRequest)
  /-- `connect_mtproto_upstream`. -/
  | dialUpstream (proxy : MtProtoProxy) (dcIdx : Int16) (proto : ProtoTag) (timeout : ℕ)
  /-- `CooldownMap::set`, `clear` and `active`. -/
  | cooldownSet (key : CooldownKey) (cooldown : ℕ)
  | cooldownClear (key : CooldownKey)
  | cooldownActive (key : CooldownKey)
  /-- `Runtime::fronting_active`, `activate_fronting` and `deactivate_fronting`. -/
  | frontingActive
  | activateFronting
  | deactivateFronting
  /-- `fetch_add` on the balance counter of a tier. -/
  | fetchAdd (tier : CfTier)
  /-- The locked part of `WsPool::get`, with the refill it spawns. -/
  | poolTake (key : PoolKey) (now : ℕ) (refill : Option RefillArgs)
  /-- The locked parts of `WsPool::refill`: register, measure, push, and the guard's drop. -/
  | refillRegister (key : PoolKey)
  | bucketLen (key : PoolKey)
  | refillPush (key : PoolKey) (conns : List Stream)
  | refillRelease (key : PoolKey)
  /-- The locked part of `WsPool::warmup`. -/
  | warmupPush (key : PoolKey) (conns : List Stream)
  /-- The locked part of `WsPool::cf_get`. -/
  | cfTake (key : CfKey) (now : ℕ)
  /-- `WsPool::cf_prefetch`. -/
  | cfPrefetch (target : CfTarget)
  /-- The locked parts of `WsPool::cf_refill`. -/
  | cfRegister (key : CfKey)
  | cfLen (key : CfKey)
  | cfPush (target : CfTarget) (ws : Stream)
  | cfRelease (key : CfKey)
  deriving DecidableEq

/-- What an operation returns. -/
@[reducible] def Op.Resp : Op → Type
  | .now => ℕ
  | .dial _ => WsConnectResult
  | .dialUpstream .. => Option UpstreamConnection
  | .cooldownSet .. => Unit
  | .cooldownClear _ => Unit
  | .cooldownActive _ => Bool
  | .frontingActive => Bool
  | .activateFronting => Unit
  | .deactivateFronting => Unit
  | .fetchAdd _ => ℕ
  | .poolTake .. => Option Stream
  | .refillRegister _ => Bool
  | .bucketLen _ => ℕ
  | .refillPush .. => Unit
  | .refillRelease _ => Unit
  | .warmupPush .. => Unit
  | .cfTake .. => Option CfEntry
  | .cfPrefetch _ => Unit
  | .cfRegister _ => Bool
  | .cfLen _ => ℕ
  | .cfPush .. => Unit
  | .cfRelease _ => Unit

instance : (op : Op) → DecidableEq op.Resp
  | .now => inferInstanceAs (DecidableEq ℕ)
  | .dial _ => inferInstanceAs (DecidableEq WsConnectResult)
  | .dialUpstream .. => inferInstanceAs (DecidableEq (Option UpstreamConnection))
  | .cooldownSet .. => inferInstanceAs (DecidableEq Unit)
  | .cooldownClear _ => inferInstanceAs (DecidableEq Unit)
  | .cooldownActive _ => inferInstanceAs (DecidableEq Bool)
  | .frontingActive => inferInstanceAs (DecidableEq Bool)
  | .activateFronting => inferInstanceAs (DecidableEq Unit)
  | .deactivateFronting => inferInstanceAs (DecidableEq Unit)
  | .fetchAdd _ => inferInstanceAs (DecidableEq ℕ)
  | .poolTake .. => inferInstanceAs (DecidableEq (Option Stream))
  | .refillRegister _ => inferInstanceAs (DecidableEq Bool)
  | .bucketLen _ => inferInstanceAs (DecidableEq ℕ)
  | .refillPush .. => inferInstanceAs (DecidableEq Unit)
  | .refillRelease _ => inferInstanceAs (DecidableEq Unit)
  | .warmupPush .. => inferInstanceAs (DecidableEq Unit)
  | .cfTake .. => inferInstanceAs (DecidableEq (Option CfEntry))
  | .cfPrefetch _ => inferInstanceAs (DecidableEq Unit)
  | .cfRegister _ => inferInstanceAs (DecidableEq Bool)
  | .cfLen _ => inferInstanceAs (DecidableEq ℕ)
  | .cfPush .. => inferInstanceAs (DecidableEq Unit)
  | .cfRelease _ => inferInstanceAs (DecidableEq Unit)

/-- A program of the proxy. -/
abbrev Action := Prog Op Op.Resp

/-- The kind of route a client connection asks for. -/
structure Route where
  dc : ℕ
  isMedia : Bool
  dcIdx : Int16
  proto : ProtoTag
  deriving DecidableEq

/-- The kinds of tasks: a client connection, a single call into the pool or one of the Cloudflare
tiers, the startup warm-up over the DCs in the order its map yields them, and the background
refills. -/
inductive Tag
  | client (route : Route)
  | get (args : RefillArgs) (allowRefill : Bool)
  | cfConnect (tier : CfTier) (route : Route) (dst : Host)
  | warmup (dcs : List (ℕ × Host))
  | refill (args : RefillArgs)
  | cfRefill (target : CfTarget)
  deriving DecidableEq

/-- The input of the environment to one operation. -/
structure Env where
  /-- Time that passes before the operation is through. -/
  elapsed : ℕ
  outcome : DialOutcome
  /-- Whether an upstream proxy answers, and over FakeTLS or not. -/
  upstream : Option Bool
  /-- Which idle connections have something to read. -/
  readable : ℕ → Bool
  /-- Time that passes before a connection is pushed, behind the one before it. -/
  tick : ℕ → ℕ

/-- The entries of a loop of pushes that has come to `instant` and is through at `latest`: each is
stamped with its own `Instant::now()`. -/
def Env.entries (env : Env) (latest : ℕ) : ℕ → List Stream → List PoolEntry
  | _, [] => []
  | instant, ws :: conns =>
    let instant := min latest (instant + env.tick ws.id)
    ⟨ws, instant⟩ :: env.entries latest instant conns

/-- Add connections to the back of a bucket. -/
def World.push (w : World) (env : Env) (key : PoolKey) (conns : List Stream) : World :=
  let bucket := w.idle key ++ env.entries w.clock (w.clock - env.elapsed) conns
  { w with idle := Function.update w.idle key bucket }

/-- The effect of an operation at its own point in time. -/
def execAt (cfg : Config) (env : Env) (w : World) : (op : Op) → op.Resp × World × List Tag
  | .now => (w.clock, w, [])
  | .dial request =>
    match env.outcome with
    | .connected =>
      (.connected ⟨w.nextStream, request⟩, { w with nextStream := w.nextStream + 1 }, [])
    | .redirect code => (.redirect code, w, [])
    | .failed reason => (.failed reason, w, [])
    | .connectTimedOut reason => (.connectTimedOut reason, w, [])
    | .timedOut => (.timedOut, w, [])
  | .dialUpstream .. =>
    (env.upstream.map fun faketls => ⟨w.nextStream, faketls⟩,
      { w with nextStream := w.nextStream + 1 }, [])
  | .cooldownSet key cooldown =>
    ((), { w with cooldowns := Function.update w.cooldowns key (some (w.clock + cooldown)) }, [])
  | .cooldownClear key =>
    ((), { w with cooldowns := Function.update w.cooldowns key none }, [])
  | .cooldownActive key => ((w.cooldowns key).any fun deadline => w.clock < deadline, w, [])
  | .frontingActive => (w.frontingUntil.any fun deadline => w.clock < deadline, w, [])
  | .activateFronting =>
    ((), { w with frontingUntil := some (w.clock + cfg.frontingCooldown) }, [])
  | .deactivateFronting => ((), { w with frontingUntil := none }, [])
  | .fetchAdd tier =>
    (w.counters tier,
      { w with counters := Function.update w.counters tier ((w.counters tier + 1) % 2 ^ 64) }, [])
  | .poolTake key now refill =>
    let usable := fun e : PoolEntry =>
      decide (now - e.created ≤ cfg.poolMaxAge) && !env.readable e.ws.id
    let taken := takeUsable usable (w.idle key)
    (taken.1.map PoolEntry.ws, { w with idle := Function.update w.idle key taken.2 },
      refill.toList.map Tag.refill)
  | .refillRegister key =>
    (!w.refilling key, { w with refilling := Function.update w.refilling key true }, [])
  | .bucketLen key => ((w.idle key).length, w, [])
  | .refillPush key conns =>
    ((), w.push env key (conns.take (cfg.poolSize - (w.idle key).length)), [])
  | .refillRelease key =>
    ((), { w with refilling := Function.update w.refilling key false }, [])
  | .warmupPush key conns => ((), w.push env key conns, [])
  | .cfTake key now =>
    let usable := fun e : CfEntry =>
      decide (now - e.created ≤ cfg.poolMaxAge) && !env.readable e.ws.id
    let taken := takeUsable usable (w.cfIdle key)
    (taken.1, { w with cfIdle := Function.update w.cfIdle key taken.2 }, [])
  | .cfPrefetch target => ((), w, [.cfRefill target])
  | .cfRegister key =>
    (!w.cfRefilling key, { w with cfRefilling := Function.update w.cfRefilling key true }, [])
  | .cfLen key => ((w.cfIdle key).length, w, [])
  | .cfPush t ws =>
    ((), if (w.cfIdle t.key).length < cfg.cfBudget then
        { w with cfIdle := Function.update w.cfIdle t.key (w.cfIdle t.key ++
            [⟨ws, w.clock, t.domain, t.dst, t.skipTlsVerify, t.connectTimeout⟩]) }
      else w, [])
  | .cfRelease key =>
    ((), { w with cfRefilling := Function.update w.cfRefilling key false }, [])

/-- What an operation does, some time having passed before it. -/
def exec (cfg : Config) (op : Op) (env : Env) (w : World) : op.Resp × World × List Tag :=
  execAt cfg env { w with clock := w.clock + env.elapsed } op

/-! ## What operations change -/

/-- A loop of pushes pushes every connection, in order. -/
@[simp] theorem map_ws_entries (env : Env) (latest instant : ℕ) (conns : List Stream) :
    (env.entries latest instant conns).map PoolEntry.ws = conns := by
  induction conns generalizing instant with
  | nil => rfl
  | cons ws conns ih => rw [Env.entries, List.map_cons, ih]

@[simp] theorem length_entries (env : Env) (latest instant : ℕ) (conns : List Stream) :
    (env.entries latest instant conns).length = conns.length := by
  rw [← List.length_map PoolEntry.ws, map_ws_entries]

theorem ws_mem_of_mem_entries {env : Env} {latest instant : ℕ} {conns : List Stream} {e : PoolEntry}
    (h : e ∈ env.entries latest instant conns) : e.ws ∈ conns := by
  have hmap := List.mem_map_of_mem (f := PoolEntry.ws) h
  rwa [map_ws_entries] at hmap

theorem popUsable_suffix {E : Type} (usable : E → Bool) (es : List E) :
    (popUsable usable es).2 <:+ es := by
  induction es with
  | nil => exact List.suffix_rfl
  | cons e es ih =>
    simp only [popUsable]
    split_ifs
    · exact List.suffix_cons e es
    · exact ih.trans (List.suffix_cons e es)

theorem popUsable_mem {E : Type} {usable : E → Bool} {es : List E} {e : E}
    (h : (popUsable usable es).1 = some e) : e ∈ es := by
  induction es with
  | nil => simp [popUsable] at h
  | cons a es ih =>
    simp only [popUsable] at h
    split_ifs at h
    · cases h
      exact List.mem_cons_self
    · exact List.mem_cons_of_mem a (ih h)

/-- What is taken was in the bucket. -/
theorem takeUsable_mem {E : Type} {usable : E → Bool} {bucket : List E} {e : E}
    (h : (takeUsable usable bucket).1 = some e) : e ∈ bucket :=
  List.mem_reverse.mp (popUsable_mem h)

/-- Taking from a bucket leaves its older entries. -/
theorem takeUsable_prefix {E : Type} (usable : E → Bool) (bucket : List E) :
    (takeUsable usable bucket).2 <+: bucket := by
  have h := List.reverse_prefix.mpr (popUsable_suffix usable bucket.reverse)
  rwa [List.reverse_reverse] at h

/-- `CooldownMap::active`. -/
def World.cooling (w : World) (key : CooldownKey) : Bool :=
  (w.cooldowns key).any fun deadline => w.clock < deadline

/-- The world some time later, with nothing else changed. -/
def World.later (w : World) (elapsed : ℕ) : World := { w with clock := w.clock + elapsed }

/-- Time passes with an operation as the environment has it. -/
@[simp] theorem exec_clock (cfg : Config) (op : Op) (env : Env) (w : World) :
    (exec cfg op env w).2.1.clock = w.clock + env.elapsed := by
  cases op with
  | dial request =>
    simp only [exec, execAt]
    cases env.outcome <;> rfl
  | cfPush t ws =>
    simp only [exec, execAt]
    split_ifs <;> rfl
  | _ => rfl

/-- What an operation does to a cooldown: nothing, or it sets it, or it clears it. -/
theorem exec_cooldowns (cfg : Config) (op : Op) (env : Env) (w : World) (key : CooldownKey) :
    (exec cfg op env w).2.1.cooldowns key = w.cooldowns key ∨
      (∃ cooldown, op = .cooldownSet key cooldown ∧ (exec cfg op env w).2.1.cooldowns key =
        some (w.clock + env.elapsed + cooldown)) ∨
      (op = .cooldownClear key ∧ (exec cfg op env w).2.1.cooldowns key = none) := by
  cases op with
  | cooldownSet k cooldown =>
    by_cases hk : key = k
    · subst hk
      exact .inr (.inl ⟨cooldown, rfl, by simp [exec, execAt]⟩)
    · exact .inl (by simp [exec, execAt, hk])
  | cooldownClear k =>
    by_cases hk : key = k
    · subst hk
      exact .inr (.inr ⟨rfl, by simp [exec, execAt]⟩)
    · exact .inl (by simp [exec, execAt, hk])
  | dial request =>
    refine .inl ?_
    simp only [exec, execAt]
    cases env.outcome <;> rfl
  | cfPush t ws =>
    refine .inl ?_
    simp only [exec, execAt]
    split_ifs <;> rfl
  | _ => exact .inl rfl

/-- What an operation does to a bucket of the direct pool: nothing, or it takes from it, or a
refill adds what fits, or a warm-up adds everything. -/
theorem exec_idle (cfg : Config) (op : Op) (env : Env) (w : World) (key : PoolKey) :
    (exec cfg op env w).2.1.idle key = w.idle key ∨
      (∃ now refill, op = .poolTake key now refill ∧
        (exec cfg op env w).2.1.idle key <+: w.idle key) ∨
      (∃ conns, op = .refillPush key conns ∧ (exec cfg op env w).2.1.idle key =
        w.idle key ++ env.entries (w.clock + env.elapsed) w.clock
          (conns.take (cfg.poolSize - (w.idle key).length))) ∨
      (∃ conns, op = .warmupPush key conns ∧ (exec cfg op env w).2.1.idle key =
        w.idle key ++ env.entries (w.clock + env.elapsed) w.clock conns) := by
  cases op with
  | poolTake k now refill =>
    by_cases hk : key = k
    · subst hk
      refine .inr (.inl ⟨now, refill, rfl, ?_⟩)
      simp only [exec, execAt, Function.update_self]
      exact takeUsable_prefix _ _
    · exact .inl (by simp [exec, execAt, hk])
  | refillPush k conns =>
    by_cases hk : key = k
    · subst hk
      exact .inr (.inr (.inl ⟨conns, rfl, by simp [exec, execAt, World.push]⟩))
    · exact .inl (by simp [exec, execAt, World.push, hk])
  | warmupPush k conns =>
    by_cases hk : key = k
    · subst hk
      exact .inr (.inr (.inr ⟨conns, rfl, by simp [exec, execAt, World.push]⟩))
    · exact .inl (by simp [exec, execAt, World.push, hk])
  | dial request =>
    refine .inl ?_
    simp only [exec, execAt]
    cases env.outcome <;> rfl
  | cfPush t ws =>
    refine .inl ?_
    simp only [exec, execAt]
    split_ifs <;> rfl
  | _ => exact .inl rfl

/-- What an operation does to a bucket of the Cloudflare pool: nothing, or it takes from it, or a
refill adds its connection. -/
theorem exec_cfIdle (cfg : Config) (op : Op) (env : Env) (w : World) (key : CfKey) :
    (exec cfg op env w).2.1.cfIdle key = w.cfIdle key ∨
      (∃ now, op = .cfTake key now ∧ (exec cfg op env w).2.1.cfIdle key <+: w.cfIdle key) ∨
      (∃ t ws, op = .cfPush t ws ∧ t.key = key ∧ (exec cfg op env w).2.1.cfIdle key =
        w.cfIdle key ++ [⟨ws, w.clock + env.elapsed, t.domain, t.dst, t.skipTlsVerify,
          t.connectTimeout⟩]) := by
  cases op with
  | cfTake k now =>
    by_cases hk : key = k
    · subst hk
      refine .inr (.inl ⟨now, rfl, ?_⟩)
      simp only [exec, execAt, Function.update_self]
      exact takeUsable_prefix _ _
    · exact .inl (by simp [exec, execAt, hk])
  | cfPush t ws =>
    by_cases hk : key = t.key
    · subst hk
      simp only [exec, execAt]
      split_ifs
      · exact .inr (.inr ⟨t, ws, rfl, rfl, by simp⟩)
      · exact .inl rfl
    · refine .inl ?_
      simp only [exec, execAt]
      split_ifs
      · simp [hk]
      · rfl
  | dial request =>
    refine .inl ?_
    simp only [exec, execAt]
    cases env.outcome <;> rfl
  | _ => exact .inl rfl

/-- The tasks an operation spawns: the refill of a `get`, or a Cloudflare refill. -/
theorem exec_spawn (cfg : Config) (op : Op) (env : Env) (w : World) {tag : Tag}
    (h : tag ∈ (exec cfg op env w).2.2) :
    (∃ key now args, op = .poolTake key now (some args) ∧ tag = .refill args) ∨
      ∃ target, op = .cfPrefetch target ∧ tag = .cfRefill target := by
  cases op with
  | poolTake key now refill =>
    cases refill with
    | none => simp [exec, execAt] at h
    | some args =>
      refine .inl ⟨key, now, args, rfl, ?_⟩
      simpa [exec, execAt] using h
  | cfPrefetch target => exact .inr ⟨target, rfl, by simpa [exec, execAt] using h⟩
  | dial request =>
    simp only [exec, execAt] at h
    cases houtcome : env.outcome <;> simp [houtcome] at h
  | _ => simp [exec, execAt] at h

end TgWsProxy
