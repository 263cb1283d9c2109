import TgWsProxy.Proxy.Ladder
import TgWsProxy.WsClient.Attempts

set_option relaxedAutoImplicit false
set_option autoImplicit false

/-!
# What a connection performs on its way down the ladder

Outside `direct_ws` a client connection performs few kinds of operations, all of them for its own
DC and none of them on the cooldowns of the direct tier. A stream that it ends up with was dialled
by the connection itself or taken from a pool bucket of its own DC.

## Main definitions

* `TgWsProxy.Op.Routing` — the operations outside `direct_ws`.
* `TgWsProxy.Upstream.Origin` — where an upstream comes from, by the history of its connection.

## Main results

* `TgWsProxy.cfWorker_obeys`, `cfProxy_obeys`, `upstreamLoop_obeys`, `get_obeys` — the tiers.
* `TgWsProxy.selectUpstream_obeys` — the ladder, given a guarantee of `direct_ws`.
-/

namespace TgWsProxy

open Process Route

/-! ## Where streams come from -/

/-- The task has taken the stream from a bucket of the Cloudflare pool. -/
def TookCf (key : CfKey) (ws : Stream) (history : History) : Prop :=
  ∃ now entry, entry.ws = ws ∧ (⟨.cfTake key now, some entry⟩ : Event Op Op.Resp) ∈ history

/-- The task has taken the stream from a bucket of the direct pool. -/
def TookPooled (key : PoolKey) (ws : Stream) (history : History) : Prop :=
  ∃ now refill, (⟨.poolTake key now refill, some ws⟩ : Event Op Op.Resp) ∈ history

theorem TookCf.append {key : CfKey} {ws : Stream} {history : History}
    (h : TookCf key ws history) (events : History) : TookCf key ws (history ++ events) := by
  obtain ⟨now, entry, hws, hmem⟩ := h
  exact ⟨now, entry, hws, List.mem_append_left events hmem⟩

/-- A stream with tunnel framing comes from the Worker tier, one with packet framing from another
tier, each of the connection's own DC. -/
def Upstream.Origin (route : Route) (history : History) : Upstream → Prop
  | .ws stream .tunnel =>
    TookCf (.worker, route.dc, route.isMedia) stream history ∨
      Dialled (DialRequest.IsWorker · route.dc route.isMedia) stream history
  | .ws stream .packets =>
    TookCf (.proxy, route.dc, route.isMedia) stream history ∨
      TookPooled (route.dc, route.isMedia) stream history ∨
      Dialled DialRequest.IsApiws stream history
  | _ => True

/-! ## The operations outside `direct_ws` -/

/-- The Cloudflare tier is configured. -/
def Config.HasTier (cfg : Config) : CfTier → Prop
  | .worker => cfg.cfWorkerDomains ≠ []
  | .proxy => cfg.cfDomains ≠ []

/-- What a connection performs outside `direct_ws`; the direct pool only if it has a target. -/
def Op.Routing (cfg : Config) (route : Route) (pooled : Prop) : Op → Prop
  | .now => True
  | .dial request => request.sniOverride = none ∧
      (request.IsWorker route.dc route.isMedia ∨ request.IsApiws)
  | .dialUpstream .. => True
  | .cooldownSet (.upstreamFail _) _ => True
  | .cooldownSet (.cfWorkerFail _) _ => True
  | .cooldownClear (.upstreamFail _) => True
  | .cooldownClear (.cfWorkerFail _) => True
  | .cooldownActive _ => True
  | .fetchAdd _ => True
  | .poolTake key _ refill =>
    pooled ∧ key = (route.dc, route.isMedia) ∧ ∀ args ∈ refill, args.key = key
  | .cfTake key _ => key.2 = (route.dc, route.isMedia)
  | .cfPrefetch target =>
    cfg.HasTier target.tier ∧ target.dc = route.dc ∧ target.isMedia = route.isMedia
  | _ => False

/-- What a connection does to the pools: it takes from buckets of its own DC and asks for refills
of them, and leaves the rest to the background tasks. -/
def Op.Asks (cfg : Config) (route : Route) (pooled : Prop) : Op → Prop
  | .poolTake key _ refill =>
    pooled ∧ key = (route.dc, route.isMedia) ∧ ∀ args ∈ refill, args.key = key
  | .cfTake key _ => key.2 = (route.dc, route.isMedia)
  | .cfPrefetch target =>
    cfg.HasTier target.tier ∧ target.dc = route.dc ∧ target.isMedia = route.isMedia
  | .refillRegister _ => False
  | .bucketLen _ => False
  | .refillPush .. => False
  | .refillRelease _ => False
  | .warmupPush .. => False
  | .cfRegister _ => False
  | .cfLen _ => False
  | .cfPush .. => False
  | .cfRelease _ => False
  | _ => True

theorem Op.Routing.asks {cfg : Config} {route : Route} {pooled : Prop} {op : Op}
    (h : op.Routing cfg route pooled) : op.Asks cfg route pooled := by
  cases op with
  | poolTake key now refill => exact h
  | cfTake key now => exact h
  | cfPrefetch target => exact h
  | refillRegister key => exact h
  | bucketLen key => exact h
  | refillPush key conns => exact h
  | refillRelease key => exact h
  | warmupPush key conns => exact h
  | cfRegister key => exact h
  | cfLen key => exact h
  | cfPush target ws => exact h
  | cfRelease key => exact h
  | _ => trivial

section Tiers

variable {cfg : Config} {route : Route} {pooled : Prop} {history : History}

theorem get_obeys (hpooled : pooled) (ip : Host) (skipTls allowRefill : Bool) :
    Obeys (fun _ op => op.Routing cfg route pooled)
      (fun history pooled => ∀ ws, pooled = some ws →
        TookPooled (route.dc, route.isMedia) ws history) history
      (WsPool.get ⟨route.dc, route.isMedia, ip, skipTls⟩ allowRefill) := by
  refine obeys_op trivial fun (now : ℕ) =>
    ⟨⟨hpooled, rfl, fun args hargs => ?_⟩, fun r ws hws => ?_⟩
  · cases allowRefill with
    | false => cases hargs
    | true =>
      cases hargs
      rfl
  · subst hws
    exact ⟨now, _, List.mem_append_right _ (List.mem_singleton_self _)⟩

theorem cfGet_obeys (tier : CfTier) (htier : cfg.HasTier tier) :
    Obeys (fun _ op => op.Routing cfg route pooled)
      (fun history hit => ∀ ws domain, hit = some (ws, domain) →
        TookCf (tier, route.dc, route.isMedia) ws history) history
      (WsPool.cfGet tier route.dc route.isMedia) := by
  refine obeys_op trivial fun (now : ℕ) => obeys_op rfl fun (taken : Option CfEntry) => ?_
  cases taken with
  | none => exact fun ws domain hhit => by cases hhit
  | some entry =>
    refine obeys_op ⟨htier, rfl, rfl⟩ fun r ws domain hhit => ?_
    cases hhit
    exact ⟨now, entry, rfl, by simp⟩

theorem balanced_obeys (domains : List Host) (tier : CfTier) :
    Obeys (fun _ op => op.Routing cfg route pooled)
      (fun history' _ => ∃ events, history' = history ++ events) history
      (balanced domains tier) := by
  rw [balanced]
  split_ifs
  · exact ⟨[], by simp⟩
  · exact obeys_op trivial fun _ => ⟨_, rfl⟩

theorem balanceOrder_obeys (domains : List Host) (enabled : Bool) (tier : CfTier) :
    Obeys (fun _ op => op.Routing cfg route pooled)
      (fun history' _ => ∃ events, history' = history ++ events) history
      (balanceOrder domains enabled tier) := by
  rw [balanceOrder]
  split_ifs
  · exact balanced_obeys domains tier
  · exact ⟨[], by simp⟩

/-- A spare is for the tier it was asked for and the connection's own DC. -/
theorem cfTarget_obeys (tier : CfTier) (dst domain : Host) (domains : List Host) :
    Obeys (fun _ op => op.Routing cfg route pooled)
      (fun history' target => (∃ events, history' = history ++ events) ∧
        target.tier = tier ∧ target.dc = route.dc ∧ target.isMedia = route.isMedia) history
      (cfTarget cfg route tier dst domain domains) := by
  rw [cfTarget]
  split_ifs
  · exact obeys_bind (balanced_obeys domains tier) fun _ _ h => ⟨h, rfl, rfl, rfl⟩
  · exact ⟨⟨[], by simp⟩, rfl, rfl, rfl⟩

/-- Naming a spare and asking for it keeps a stream that has been dialled. -/
theorem prefetch_obeys {kind : DialRequest → Prop} {ws : Stream} (hws : Dialled kind ws history)
    (tier : CfTier) (htier : cfg.HasTier tier) (dst domain : Host) (domains : List Host) :
    Obeys (fun _ op => op.Routing cfg route pooled)
      (fun history answer => ∀ ws, answer = some ws → Dialled kind ws history) history (do
        WsPool.cfPrefetch (← cfTarget cfg route tier dst domain domains)
        return some ws) := by
  refine obeys_bind (cfTarget_obeys tier dst domain domains) ?_
  rintro _ target ⟨⟨events, rfl⟩, rfl, hdc, hmedia⟩
  refine obeys_op ⟨htier, hdc, hmedia⟩ fun _ ws' hws' => ?_
  cases hws'
  exact (hws.append _).append _

theorem cfWorkerLoop_obeys (htier : cfg.HasTier .worker) (dst : Host) (workers : List Host) :
    Obeys (fun _ op => op.Routing cfg route pooled)
      (fun history answer => ∀ ws, answer = some ws →
        Dialled (DialRequest.IsWorker · route.dc route.isMedia) ws history) history
      (cfWorkerLoop cfg route dst workers) := by
  induction workers generalizing history with
  | nil => exact fun ws hws => by cases hws
  | cons worker workers ih =>
    refine obeys_op trivial fun (cooling : Bool) => ?_
    cases cooling with
    | true => exact ih
    | false =>
      have hrequest : DialRequest.IsWorker (workerRequest worker dst route.dc route.isMedia
          cfg.skipTlsVerify cfg.timeouts.cfConnect) route.dc route.isMedia := ⟨_, _, _, _, rfl⟩
      refine obeys_op ⟨rfl, .inl hrequest⟩ fun (outcome : WsConnectResult) => ?_
      cases outcome with
      | connected ws =>
        refine obeys_op trivial fun _ =>
          prefetch_obeys ?_ .worker htier dst worker cfg.cfWorkerDomains
        exact ⟨_, hrequest, by simp [workerRequest]⟩
      | redirect code => exact obeys_op trivial fun _ => ih
      | failed reason => exact obeys_op trivial fun _ => ih
      | connectTimedOut reason => exact obeys_op trivial fun _ => ih
      | timedOut => exact obeys_op trivial fun _ => ih

/-- **The Worker tier.** -/
theorem cfWorker_obeys (dst : Host) :
    Obeys (fun _ op => op.Routing cfg route pooled)
      (fun history answer => ∀ ws, answer = some ws →
        Upstream.Origin route history (.ws ws .tunnel)) history (cfWorker cfg route dst) := by
  rw [cfWorker]
  split_ifs with htier
  · exact fun ws hws => by cases hws
  refine obeys_bind (cfGet_obeys .worker htier) fun history₁ hit hhit => ?_
  cases hit with
  | some hit =>
    intro ws hws
    cases hws
    exact .inl (hhit hit.1 hit.2 rfl)
  | none =>
    refine obeys_bind (balanceOrder_obeys _ _ _) fun history₂ workers _ => ?_
    exact (cfWorkerLoop_obeys htier _ workers).mono fun _ _ h ws hws => .inr (h ws hws)

theorem connectCfFuel_obeys (skipTlsVerify : Bool) (timeout fuel : ℕ) :
    ∀ (attempts : CfAttempts) (allRedirects : Bool) (history : History),
      Obeys (fun _ op => op.Routing cfg route pooled)
        (fun history out => ∀ ws, out.1 = some ws → Dialled DialRequest.IsApiws ws history) history
        (connectCfFuel skipTlsVerify timeout fuel attempts allRedirects) := by
  induction fuel with
  | zero => exact fun _ _ _ ws hws => by cases hws
  | succ fuel ih =>
    intro attempts allRedirects history
    cases hnext : attempts.nextDomain with
    | none =>
      simp only [connectCfFuel, hnext]
      exact fun ws hws => by cases hws
    | some next =>
      obtain ⟨domain, next⟩ := next
      rw [connectCfFuel_some hnext]
      have hrequest : DialRequest.IsApiws
          (apiwsRequest domain domain skipTlsVerify timeout none) := ⟨_, _, _, _, _, rfl⟩
      refine ⟨⟨rfl, .inr hrequest⟩, fun (outcome : WsConnectResult) => ?_⟩
      cases outcome with
      | connected ws =>
        intro ws' hws'
        cases hws'
        exact ⟨_, hrequest, by simp⟩
      | redirect code => exact ih _ _ _
      | failed reason => exact ih _ _ _
      | connectTimedOut reason => exact ih _ _ _
      | timedOut => exact ih _ _ _

/-- **The proxy tier.** -/
theorem cfProxy_obeys :
    Obeys (fun _ op => op.Routing cfg route pooled)
      (fun history answer => ∀ ws, answer = some ws →
        Upstream.Origin route history (.ws ws .packets)) history (cfProxy cfg route) := by
  rw [cfProxy]
  split_ifs with htier
  · exact fun ws hws => by cases hws
  refine obeys_bind (balanceOrder_obeys _ _ _) fun history₁ domains _ =>
    obeys_bind (cfGet_obeys .proxy htier) fun history₂ hit hhit => ?_
  cases hit with
  | some hit =>
    intro ws hws
    cases hws
    exact .inl (hhit hit.1 hit.2 rfl)
  | none =>
    refine obeys_bind (connectCfFuel_obeys _ _ _ _ _ _) fun history₃ out hout => ?_
    obtain ⟨ws, domain, redirects⟩ := out
    cases ws with
    | none => exact fun ws hws => by cases hws
    | some ws =>
      have hws := hout ws rfl
      cases domain with
      | none =>
        intro ws' hws'
        cases hws'
        exact .inr (.inr hws)
      | some domain =>
        exact (prefetch_obeys hws .proxy htier [] domain cfg.cfDomains).mono
          fun _ _ h ws hws => .inr (.inr (h ws hws))

theorem upstreamLoop_obeys (proxies : List MtProtoProxy) :
    Obeys (fun _ op => op.Routing cfg route pooled) (fun _ _ => True) history
      (upstreamLoop cfg route proxies) := by
  induction proxies generalizing history with
  | nil => trivial
  | cons proxy proxies ih =>
    refine obeys_op trivial fun (cooling : Bool) => ?_
    cases cooling with
    | true => exact ih
    | false =>
      refine obeys_op trivial fun (conn : Option UpstreamConnection) => ?_
      cases conn with
      | some conn => exact obeys_op trivial fun _ => trivial
      | none => exact obeys_op trivial fun _ => ih

end Tiers

/-! ## The ladder -/

section Ladder

variable {cfg : Config} {route : Route} {pooled : Prop} {guar : History → Op → Prop}
  {J : History → Prop}
  (hguar : ∀ history op, J history → op.Routing cfg route pooled → guar history op)
  (hkeep : ∀ history op r, J history → op.Routing cfg route pooled → J (history ++ [⟨op, r⟩]))
  (hdirect : ∀ ip history, J history →
    Obeys guar (fun history fresh => J history ∧
      ∀ ws, fresh = some ws → Dialled DialRequest.IsApiws ws history) history
      (directWs cfg route ip))

include hguar hkeep hdirect

/-- What a tier of the ladder keeps, if `direct_ws` keeps it. -/
theorem tierProg_obeys (ip : Host) (tier : Tier) (htier : tier = .direct → pooled)
    {history : History} (hJ : J history) :
    Obeys guar (fun history answer => J history ∧
      ∀ u, answer = some u → u.Origin route history) history (tierProg cfg route ip tier) := by
  cases tier with
  | worker =>
    refine obeys_bind ((cfWorker_obeys ip).weaken hguar hkeep hJ) fun history answer h => ⟨h.1, ?_⟩
    intro u hu
    obtain ⟨ws, hws, rfl⟩ := Option.map_eq_some_iff.mp hu
    exact h.2 ws hws
  | proxy =>
    refine obeys_bind (cfProxy_obeys.weaken hguar hkeep hJ) fun history answer h => ⟨h.1, ?_⟩
    intro u hu
    obtain ⟨ws, hws, rfl⟩ := Option.map_eq_some_iff.mp hu
    exact h.2 ws hws
  | upstreams =>
    refine obeys_bind ((upstreamLoop_obeys _).weaken hguar hkeep hJ)
      fun history answer h => ⟨h.1, ?_⟩
    intro u hu
    obtain ⟨conn, -, rfl⟩ := Option.map_eq_some_iff.mp hu
    trivial
  | direct =>
    have hroute : (Op.cooldownActive (.ipFail ip)).Routing cfg route pooled := trivial
    refine obeys_op (hguar _ _ hJ hroute) fun (cooling : Bool) => ?_
    have hJ₁ := hkeep history _ cooling hJ hroute
    refine obeys_bind ((get_obeys (htier rfl) ip _ _).weaken hguar hkeep hJ₁)
      fun history₂ taken h => ?_
    cases taken with
    | some ws =>
      refine ⟨h.1, fun u hu => ?_⟩
      cases hu
      exact .inr (.inl (h.2 ws rfl))
    | none =>
      refine obeys_bind (hdirect ip history₂ h.1) fun history₃ fresh h' => ⟨h'.1, fun u hu => ?_⟩
      obtain ⟨ws, hws, rfl⟩ := Option.map_eq_some_iff.mp hu
      exact .inr (.inr (h'.2 ws hws))

/-- **The ladder.** What `direct_ws` keeps and the operations of the other tiers keep, a client
connection keeps, and its upstream comes from where it should. -/
theorem selectUpstream_obeys (targetIp : Option Host) (htarget : targetIp.isSome = true → pooled)
    {history : History} (hJ : J history) :
    Obeys guar (fun history answer => J history ∧
      ∀ u, answer = some u → u.Origin route history) history
      (selectUpstream cfg route targetIp) := by
  have htry : ∀ ip ts history, (.direct ∈ ts → pooled) → J history →
      Obeys guar (fun history answer => J history ∧
        ∀ u, answer = some u → u.Origin route history) history
      (tryTiers (tierProg cfg route ip) ts) := by
    intro ip ts
    induction ts with
    | nil => exact fun history _ hJ => ⟨hJ, fun u hu => by cases hu⟩
    | cons t ts ih =>
      intro history hts hJ
      have htier : t = .direct → pooled := by
        rintro rfl
        exact hts List.mem_cons_self
      refine obeys_bind (tierProg_obeys hguar hkeep hdirect ip t htier hJ)
        fun history answer h => ?_
      cases answer with
      | some u => exact h
      | none => exact ih history (fun hmem => hts (List.mem_cons_of_mem t hmem)) h.1
  -- raw TCP comes from nowhere
  have hlast : ∀ (history : History) (answer : Option Upstream) (dst : Host),
      (J history ∧ ∀ u, answer = some u → u.Origin route history) →
      J history ∧ ∀ u, some (answer.getD (.tcp dst)) = some u → u.Origin route history := by
    rintro history answer dst ⟨hJ, horigin⟩
    refine ⟨hJ, fun u hu => ?_⟩
    cases hu
    cases answer with
    | some u => exact horigin u rfl
    | none => trivial
  cases targetIp with
  | none =>
    simp only [selectUpstream, fallbackChain_eq]
    cases fallbackIp route.dc with
    | none => exact ⟨hJ, fun u hu => by cases hu⟩
    | some ip =>
      exact obeys_bind (htry ip _ history (fun hmem => absurd hmem (by decide)) hJ)
        fun history answer h => hlast history answer ip h
  | some ip =>
    rw [selectUpstream_some_eq]
    refine obeys_bind (htry ip _ history (fun _ => htarget rfl) hJ) fun history₁ answer h => ?_
    cases answer with
    | some u => exact h
    | none =>
      rw [selectTarget_eq]
      have hroute : (Op.cooldownActive (.ipFail ip)).Routing cfg route pooled := trivial
      refine obeys_op (hguar _ _ h.1 hroute) fun (active : Bool) => ?_
      have hJ₂ := hkeep history₁ _ active h.1 hroute
      exact obeys_bind (htry ip _ _ (fun _ => htarget rfl) hJ₂)
        fun history answer h => hlast history answer _ h

end Ladder

end TgWsProxy
