import TgWsProxy.Proxy.Route
import TgWsProxy.WsClient.ConfiguredRecords

set_option relaxedAutoImplicit false
set_option autoImplicit false

/-!
# Contracts of the Cloudflare tiers

One rule for each function of the two Cloudflare tiers and of their pool: a contract that allows
the operations of the tiers is kept by them.

## Main definitions

* `TgWsProxy.TierRules` — what a contract has to allow.

## Main results

* `TgWsProxy.cfWorker_safe`, `cfProxy_safe` — the tiers keep to such a contract if it allows the
  spares they ask for.
* `TgWsProxy.cfRefill_safe` — so does the refill, if it allows what the refill stores.
-/

namespace TgWsProxy

open Process Route

variable {guar : Op → Prop} {rely : (op : Op) → op.Resp → Prop}

/-- The operations that both tiers perform on their way to a stream. A dial goes to the name it asks
for, a cooldown is set only after a failed attempt, and a hit asks for its replacement. -/
structure TierRules (cfg : Config) (guar : Op → Prop) (rely : (op : Op) → op.Resp → Prop) :
    Prop where
  now : guar .now
  take : ∀ key now, guar (.cfTake key now)
  advance : ∀ tier, guar (.fetchAdd tier)
  dial : ∀ request, request.host = request.domain → guar (.dial request)
  active : ∀ key, guar (.cooldownActive key)
  clear : ∀ key, guar (.cooldownClear key)
  set : ∀ request outcome, rely (.dial request) outcome → outcome.stream = none →
    ∀ key, ∀ cooldown ∈ cfg.timeouts.cooldowns, guar (.cooldownSet key cooldown)
  hit : ∀ tier dc isMedia now entry, rely (.cfTake (tier, dc, isMedia) now) (some entry) →
    guar (.cfPrefetch ⟨tier, dc, isMedia, entry.dst, entry.domain, entry.skipTlsVerify,
      entry.connectTimeout⟩)

/-- The spare that `cf_target` names for a connection through `domain`. -/
def spareTarget (cfg : Config) (route : Route) (tier : CfTier) (dst domain : Host) : CfTarget :=
  ⟨tier, route.dc, route.isMedia, dst, domain, cfg.skipTlsVerify, cfg.timeouts.cfConnect⟩

section Rules

variable {cfg : Config} (h : TierRules cfg guar rely)

include h

theorem cfGet_safe (tier : CfTier) (dc : ℕ) (isMedia : Bool) :
    Safe guar rely (fun _ => True) (WsPool.cfGet tier dc isMedia) := by
  refine safe_op h.now fun (now : ℕ) _ =>
    safe_op (h.take _ _) fun (taken : Option CfEntry) hrely => ?_
  cases taken with
  | none => trivial
  | some entry => exact safe_op (h.hit tier dc isMedia now entry hrely) fun _ _ => trivial

theorem balanced_safe (domains : List Host) (tier : CfTier) :
    Safe guar rely (fun _ => True) (balanced domains tier) := by
  rw [balanced]
  split_ifs
  · trivial
  · exact safe_op (h.advance tier) fun _ _ => trivial

/-- Without balancing the order is the configured one. -/
theorem balanceOrder_safe (domains : List Host) (enabled : Bool) (tier : CfTier) :
    Safe guar rely (fun order => enabled = false → order = domains)
      (balanceOrder domains enabled tier) := by
  rw [balanceOrder]
  cases enabled with
  | false => exact fun _ => rfl
  | true => exact (balanced_safe h domains tier).mono fun _ _ hoff => absurd hoff (by simp)

/-- The spare goes to the domain that answered or, with balancing, to some domain. -/
theorem cfTarget_safe (route : Route) (tier : CfTier) (dst domain : Host) (domains : List Host) :
    Safe guar rely (fun t => ∃ d, t = spareTarget cfg route tier dst d ∧
      (cfg.cfBalance = false → d = domain)) (cfTarget cfg route tier dst domain domains) := by
  rw [cfTarget]
  cases hbal : cfg.cfBalance with
  | false => exact ⟨domain, rfl, fun _ => rfl⟩
  | true =>
    exact safe_bind (balanced_safe h domains tier) fun _ _ =>
      ⟨_, rfl, fun hoff => absurd hoff (by simp)⟩

theorem cfWorkerLoop_safe (route : Route) (dst : Host)
    (hspare : ∀ d, guar (.cfPrefetch (spareTarget cfg route .worker dst d)))
    (workers : List Host) :
    Safe guar rely (fun _ => True) (cfWorkerLoop cfg route dst workers) := by
  induction workers with
  | nil => trivial
  | cons worker workers ih =>
    refine safe_op (h.active _) fun (cooling : Bool) _ => ?_
    cases cooling with
    | true => exact ih
    | false =>
      have hconnect : Safe guar rely
          (fun answer => answer = none →
            ∀ key, ∀ cooldown ∈ cfg.timeouts.cooldowns, guar (.cooldownSet key cooldown))
          (connectCfWorkerWsForDc worker dst route.dc route.isMedia cfg.skipTlsVerify
            cfg.timeouts.cfConnect) :=
        safe_op (h.dial _ rfl) fun outcome hrely => h.set _ outcome hrely
      refine safe_bind hconnect fun answer hfailed => ?_
      cases answer with
      | none =>
        exact safe_op (hfailed rfl _ _ (by simp [Timeouts.cooldowns])) fun _ _ => ih
      | some ws =>
        refine safe_op (h.clear _) fun _ _ =>
          safe_bind (cfTarget_safe h route .worker dst worker cfg.cfWorkerDomains) fun t ht => ?_
        obtain ⟨d, rfl, -⟩ := ht
        exact safe_op (hspare d) fun _ _ => trivial

/-- **The Worker tier** keeps to a contract that allows its spares. -/
theorem cfWorker_safe (route : Route) (dst : Host)
    (hspare : ∀ dst d, guar (.cfPrefetch (spareTarget cfg route .worker dst d))) :
    Safe guar rely (fun _ => True) (cfWorker cfg route dst) := by
  rw [cfWorker]
  split_ifs
  · trivial
  · refine safe_bind (cfGet_safe h .worker route.dc route.isMedia) fun hit _ => ?_
    cases hit with
    | some hit => trivial
    | none =>
      exact safe_bind (balanceOrder_safe h _ _ _) fun workers _ =>
        cfWorkerLoop_safe h route _ (hspare _) workers

/-- **The proxy tier** keeps to a contract that allows its spares: those of records that answer
and, with balancing, those of any domain. -/
theorem cfProxy_safe (route : Route) {answers : Host → Prop}
    (hconnect : ∀ domains, (cfg.cfBalance = false → domains = cfg.cfDomains) →
      Safe guar rely (fun out => ∀ d, out.2.1 = some d → cfg.cfBalance = false → answers d)
        (connectCfWsForDc route.dc domains route.isMedia cfg.skipTlsVerify
          cfg.timeouts.cfConnect))
    (hspare : ∀ d, (cfg.cfBalance = false → answers d) →
      guar (.cfPrefetch (spareTarget cfg route .proxy [] d))) :
    Safe guar rely (fun _ => True) (cfProxy cfg route) := by
  rw [cfProxy]
  split_ifs
  · trivial
  · refine safe_bind (balanceOrder_safe h _ _ _) fun domains hdomains =>
      safe_bind (cfGet_safe h .proxy route.dc route.isMedia) fun hit _ => ?_
    cases hit with
    | some hit => trivial
    | none =>
      refine safe_bind (hconnect domains hdomains) fun out hout => ?_
      obtain ⟨ws, domain, redirects⟩ := out
      cases ws with
      | none => trivial
      | some ws =>
        cases domain with
        | none => trivial
        | some domain =>
          refine safe_bind (cfTarget_safe h route .proxy [] domain cfg.cfDomains) fun t ht => ?_
          obtain ⟨d, rfl, hd⟩ := ht
          refine safe_op (hspare d fun hoff => ?_) fun _ _ => trivial
          rw [hd hoff]
          exact hout domain rfl hoff

/-- The proxy tier keeps to a contract that allows a spare through any domain. -/
theorem cfProxy_safe_any (route : Route)
    (hspare : ∀ d, guar (.cfPrefetch (spareTarget cfg route .proxy [] d))) :
    Safe guar rely (fun _ => True) (cfProxy cfg route) := by
  have hconnect : ∀ domains, (cfg.cfBalance = false → domains = cfg.cfDomains) →
      Safe guar rely (fun out => ∀ d, out.2.1 = some d → cfg.cfBalance = false → True)
        (connectCfWsForDc route.dc domains route.isMedia cfg.skipTlsVerify
          cfg.timeouts.cfConnect) := fun domains _ =>
    (connectCfWsForDc_safe_dials _ _ _ _ _ fun d => h.dial _ rfl).mono fun _ _ _ _ _ => trivial
  exact cfProxy_safe h route hconnect fun d _ => hspare d

end Rules

/-- **The refill** keeps to a contract that allows what it stores. With pooling off it does not
connect. -/
theorem cfRefill_safe {cfg : Config} {t : CfTarget} (hregister : guar (.cfRegister t.key))
    (hlen : guar (.cfLen t.key)) (hrelease : guar (.cfRelease t.key))
    (hconnect : cfg.poolSize ≠ 0 →
      Safe guar rely (fun answer => ∀ ws, answer = some ws → guar (.cfPush t ws))
        (WsPool.cfConnectOne t)) :
    Safe guar rely (fun _ => True) (WsPool.cfRefill cfg t) := by
  refine safe_op hregister fun (registered : Bool) _ => ?_
  cases registered with
  | false => trivial
  | true =>
    refine safe_op hlen fun (current : ℕ) _ => ?_
    split_ifs with hfull
    · exact safe_op hrelease fun _ _ => trivial
    · have hpool : cfg.poolSize ≠ 0 := by
        intro hzero
        simp [Config.cfBudget, hzero] at hfull
      refine safe_bind (hconnect hpool) fun answer hanswer => ?_
      cases answer with
      | none => exact safe_op hrelease fun _ _ => trivial
      | some ws => exact safe_op (hanswer ws rfl) fun _ _ => safe_op hrelease fun _ _ => trivial

/-- So it does if the contract allows whatever it dials and stores. -/
theorem cfRefill_safe_any {cfg : Config} {t : CfTarget} (hregister : guar (.cfRegister t.key))
    (hlen : guar (.cfLen t.key)) (hrelease : guar (.cfRelease t.key))
    (hdial : ∀ request, guar (.dial request)) (hpush : ∀ ws, guar (.cfPush t ws)) :
    Safe guar rely (fun _ => True) (WsPool.cfRefill cfg t) := by
  refine cfRefill_safe hregister hlen hrelease fun _ => ?_
  rw [WsPool.cfConnectOne]
  cases t.tier with
  | worker => exact safe_op (hdial _) fun _ _ ws _ => hpush ws
  | proxy => exact safe_op (hdial _) fun _ _ ws _ => hpush ws

end TgWsProxy
