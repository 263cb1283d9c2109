import TgWsProxy.Proxy.Ladder

set_option relaxedAutoImplicit false
set_option autoImplicit false

/-!
# Contracts of the direct tier

One rule for each function of the direct tier, of its pool and of the ladder around them: a
contract that allows the dials to an address and what is done with the streams they open is kept
by them.

## Main definitions

* `TgWsProxy.Op.Inner` — operations that move no WebSocket.
* `TgWsProxy.DirectRules` — what a contract has to allow.

## Main results

* `TgWsProxy.directWs_safe`, `refill_safe`, `warmup_safe` — the functions that dial keep to such a
  contract.
* `TgWsProxy.selectUpstream_safe` — so does the ladder, if its tiers do.
-/

namespace TgWsProxy

open Process Route

/-- Operations that neither open a WebSocket nor move one into a pool or out of it, with cooldowns
as configured. -/
def Op.Inner (cfg : Config) : Op → Prop
  | .dial _ => False
  | .poolTake .. => False
  | .refillPush .. => False
  | .warmupPush .. => False
  | .cfTake .. => False
  | .cfPrefetch _ => False
  | .cfPush .. => False
  | .cooldownSet _ cooldown => cooldown ∈ cfg.timeouts.cooldowns
  | _ => True

/-- A contract that allows the dials of the direct tier to `ip`, and what it says about the streams
that they open. -/
structure DirectRules (cfg : Config) (guar : Op → Prop) (rely : (op : Op) → op.Resp → Prop)
    (ip : Host) (skipTls : Bool) (opened : Stream → Prop) : Prop where
  inner : ∀ op, op.Inner cfg → guar op
  dial : ∀ domain timeout sniOverride,
    guar (.dial (apiwsRequest ip domain skipTls timeout sniOverride))
  opens : ∀ domain timeout sniOverride ws,
    rely (.dial (apiwsRequest ip domain skipTls timeout sniOverride)) (.connected ws) → opened ws

variable {cfg : Config} {guar : Op → Prop} {rely : (op : Op) → op.Resp → Prop}

/-! ## Connecting -/

section Connect

variable {ip : Host} {skipTls : Bool} {opened : Stream → Prop}

theorem connectWsLoop_safe (h : DirectRules cfg guar rely ip skipTls opened) (timeout : ℕ)
    (sniOverride : Option Host) (domains : List Host) :
    ∀ flags : WsAttempt, flags.ws = none →
      Safe guar rely (fun attempt => ∀ ws, attempt.ws = some ws → opened ws)
        (connectWsLoop ip skipTls timeout sniOverride domains flags) := by
  induction domains with
  | nil =>
    intro flags hflags ws hws
    rw [hflags] at hws
    cases hws
  | cons domain domains ih =>
    intro flags hflags
    refine safe_op (h.dial domain timeout sniOverride) fun outcome hrely => ?_
    cases outcome with
    | connected ws =>
      intro ws' hws
      cases hws
      exact h.opens _ _ _ _ hrely
    | redirect code => exact ih _ hflags
    | failed reason => exact ih _ hflags
    | connectTimedOut reason => exact ih _ hflags
    | timedOut => exact ih _ hflags

theorem connectWsForDc_safe (h : DirectRules cfg guar rely ip skipTls opened) (dc : ℕ)
    (isMedia : Bool) (timeout : ℕ) (sniOverride : Option Host) :
    Safe guar rely (fun attempt => ∀ ws, attempt.ws = some ws → opened ws)
      (connectWsForDc ip dc isMedia skipTls timeout sniOverride) :=
  connectWsLoop_safe h timeout sniOverride _ _ rfl

end Connect

/-! ## The direct tier -/

section Tier

variable {ip : Host} {opened : Stream → Prop}
  (h : DirectRules cfg guar rely ip cfg.skipTlsVerify opened) (route : Route)

include h

theorem connectWs_safe (sniOverride : Option Host) :
    Safe guar rely (fun _ => True) (Route.connectWs cfg route ip sniOverride) :=
  safe_op (h.inner _ trivial) fun _ _ =>
    (connectWsForDc_safe h _ _ _ _).mono fun _ _ => trivial

theorem reactiveFronting_safe (stalled : Bool) :
    Safe guar rely (fun _ => True) (reactiveFronting cfg route ip stalled) := by
  rw [reactiveFronting]
  split_ifs
  · trivial
  · refine safe_op (h.inner _ trivial) fun (cooling : Bool) _ => ?_
    cases cooling with
    | true => trivial
    | false =>
      cases cfg.frontingDomain with
      | none => trivial
      | some domain =>
        refine safe_bind (connectWs_safe h route _) fun attempt _ => ?_
        cases attempt.ws with
        | some ws =>
          exact safe_op (h.inner _ trivial) fun _ _ =>
            safe_op (h.inner _ trivial) fun _ _ => trivial
        | none =>
          exact safe_op (h.inner _ (by simp [Op.Inner, Timeouts.cooldowns])) fun _ _ => trivial

/-- **A fresh WebSocket** keeps to the contract. -/
theorem directWs_safe : Safe guar rely (fun _ => True) (directWs cfg route ip) := by
  have hfailed : ∀ attempt probing,
      Safe guar rely (fun _ => True) (directWsFailed cfg route ip attempt probing) := by
    intro attempt probing
    have hmem : (if attempt.allRedirects then cfg.timeouts.wsRedirectCooldown
        else cfg.timeouts.wsFailCooldown) ∈ cfg.timeouts.cooldowns := by
      split_ifs <;> simp [Timeouts.cooldowns]
    refine safe_op (h.inner _ hmem) fun _ _ => ?_
    split_ifs
    · exact safe_op (h.inner _ (by simp [Op.Inner, Timeouts.cooldowns])) fun _ _ => trivial
    · trivial
  refine safe_op (h.inner _ trivial) fun (active : Bool) _ =>
    safe_op (h.inner _ trivial) fun (probing : Bool) _ =>
      safe_bind (connectWs_safe h route _) fun attempt _ => ?_
  cases (if active then cfg.frontingDomain else none) with
  | some domain =>
    cases attempt.ws with
    | some ws =>
      exact safe_op (h.inner _ trivial) fun _ _ => safe_op (h.inner _ trivial) fun _ _ => trivial
    | none =>
      exact safe_op (h.inner _ trivial) fun _ _ =>
        safe_op (h.inner _ (by simp [Op.Inner, Timeouts.cooldowns])) fun _ _ =>
          hfailed attempt probing
  | none =>
    cases attempt.ws with
    | some ws =>
      exact safe_op (h.inner _ trivial) fun _ _ => safe_op (h.inner _ trivial) fun _ _ => trivial
    | none =>
      refine safe_bind (reactiveFronting_safe h route _) fun fronted _ => ?_
      cases fronted with
      | some ws => trivial
      | none => exact hfailed attempt probing

omit h in
theorem get_safe {args : RefillArgs} (hinner : ∀ op : Op, op.Inner cfg → guar op)
    (htake : ∀ now refill, (∀ a ∈ refill, a = args) → guar (.poolTake args.key now refill))
    (allowRefill : Bool) : Safe guar rely (fun _ => True) (WsPool.get args allowRefill) := by
  refine safe_op (hinner _ trivial) fun (now : ℕ) _ =>
    ⟨htake now _ fun a ha => ?_, fun _ _ => trivial⟩
  cases allowRefill with
  | false => cases ha
  | true =>
    cases ha
    rfl

/-- **The direct tier**: the pool, then a fresh WebSocket. -/
theorem directTier_safe
    (htake : ∀ now refill,
      (∀ a ∈ refill, a = ⟨route.dc, route.isMedia, ip, cfg.skipTlsVerify⟩) →
      guar (.poolTake (route.dc, route.isMedia) now refill)) :
    Safe guar rely (fun _ => True) (directTier cfg route ip) := by
  refine safe_op (h.inner _ trivial) fun (cooling : Bool) _ =>
    safe_bind (get_safe h.inner htake _) fun pooled _ => ?_
  cases pooled with
  | some ws => trivial
  | none => exact safe_bind (directWs_safe h route) fun _ _ => trivial

end Tier

/-! ## The pool -/

section Pool

/-- A batch is made of streams that were opened for it. -/
theorem batchLoop_safe {opened : Stream → Prop} {connect : Action WsAttempt}
    (hconnect : Safe guar rely (fun attempt => ∀ ws, attempt.ws = some ws → opened ws) connect)
    (count : ℕ) : ∀ results, (∀ ws ∈ results, opened ws) →
      Safe guar rely (fun conns => ∀ ws ∈ conns, opened ws)
        (WsPool.batchLoop connect count results) := by
  induction count with
  | zero => exact fun _ hresults => hresults
  | succ count ih =>
    intro results hresults
    refine safe_bind hconnect fun attempt hattempt => ?_
    cases hws : attempt.ws with
    | none => exact hresults
    | some ws =>
      refine ih _ fun ws' hws' => ?_
      rcases List.mem_append.mp hws' with hws' | hws'
      · exact hresults ws' hws'
      · rw [List.mem_singleton.mp hws']
        exact hattempt ws hws

theorem connectBatch_safe {args : RefillArgs} {opened : Stream → Prop}
    (h : DirectRules cfg guar rely args.targetIp args.skipTls opened) (count : ℕ) :
    Safe guar rely (fun conns => ∀ ws ∈ conns, opened ws) (WsPool.connectBatch cfg args count) :=
  safe_op (h.inner _ trivial) fun _ _ =>
    batchLoop_safe (connectWsForDc_safe h _ _ _ _) count [] (by simp)

/-- **A refill** pushes what it opened. -/
theorem refill_safe {args : RefillArgs} {opened : Stream → Prop}
    (h : DirectRules cfg guar rely args.targetIp args.skipTls opened)
    (hpush : ∀ conns, (∀ ws ∈ conns, opened ws) → guar (.refillPush args.key conns)) :
    Safe guar rely (fun _ => True) (WsPool.refill cfg args) := by
  refine safe_op (h.inner _ trivial) fun (registered : Bool) _ => ?_
  cases registered with
  | false => trivial
  | true =>
    refine safe_op (h.inner _ trivial) fun (current : ℕ) _ => ?_
    split_ifs
    · exact safe_op (h.inner _ trivial) fun _ _ => trivial
    · refine safe_bind (connectBatch_safe h _) fun conns hconns => ?_
      rw [WsPool.refillFinish]
      split_ifs
      · exact safe_op (hpush conns hconns) fun _ _ => safe_op (h.inner _ trivial) fun _ _ => trivial
      · exact safe_op (h.inner _ trivial) fun _ _ => trivial

/-- **A warm-up** pushes what it opened to the address of each DC. -/
theorem warmup_safe {dcs : List (ℕ × Host)} {opened : ℕ × Host → Stream → Prop}
    (h : ∀ d ∈ dcs, DirectRules cfg guar rely d.2 cfg.skipTlsVerify (opened d))
    (hpush : ∀ d ∈ dcs, ∀ isMedia conns, (∀ ws ∈ conns, opened d ws) →
      guar (.warmupPush (d.1, isMedia) conns)) :
    Safe guar rely (fun _ => True) (WsPool.warmup cfg dcs) := by
  induction dcs with
  | nil => trivial
  | cons d dcs ih =>
    have hbucket : ∀ isMedia, Safe guar rely (fun _ => True)
        (WsPool.warmupBucket cfg ⟨d.1, isMedia, d.2, cfg.skipTlsVerify⟩) := fun isMedia =>
      safe_bind (connectBatch_safe (h d List.mem_cons_self) _) fun conns hconns =>
        safe_op (hpush d List.mem_cons_self isMedia conns hconns) fun _ _ => trivial
    exact safe_bind (hbucket false) fun _ _ => safe_bind (hbucket true) fun _ _ =>
      ih (fun d' hd' => h d' (List.mem_cons_of_mem d hd'))
        fun d' hd' => hpush d' (List.mem_cons_of_mem d hd')

end Pool

/-! ## The ladder -/

theorem upstreamLoop_safe (hinner : ∀ op : Op, op.Inner cfg → guar op) (route : Route)
    (proxies : List MtProtoProxy) :
    Safe guar rely (fun _ => True) (upstreamLoop cfg route proxies) := by
  induction proxies with
  | nil => trivial
  | cons proxy proxies ih =>
    refine safe_op (hinner _ trivial) fun (cooling : Bool) _ => ?_
    cases cooling with
    | true => exact ih
    | false =>
      refine safe_op (hinner _ trivial) fun (conn : Option UpstreamConnection) _ => ?_
      cases conn with
      | some conn => exact safe_op (hinner _ trivial) fun _ _ => trivial
      | none => exact safe_op (hinner _ (by simp [Op.Inner, Timeouts.cooldowns])) fun _ _ => ih

/-- **The ladder** keeps to a contract if the Cloudflare tiers do, and the direct tier on the way to
the target. -/
theorem selectUpstream_safe {route : Route} {targetIp : Option Host}
    (hinner : ∀ op : Op, op.Inner cfg → guar op)
    (hworker : ∀ dst, Safe guar rely (fun _ => True) (cfWorker cfg route dst))
    (hproxy : Safe guar rely (fun _ => True) (cfProxy cfg route))
    (hdirect : ∀ ip, targetIp = some ip →
      Safe guar rely (fun _ => True) (directTier cfg route ip)) :
    Safe guar rely (fun _ => True) (selectUpstream cfg route targetIp) := by
  have htry : ∀ ip ts, (Tier.direct ∈ ts → targetIp = some ip) →
      Safe guar rely (fun _ => True) (tryTiers (tierProg cfg route ip) ts) := by
    intro ip ts
    induction ts with
    | nil => exact fun _ => trivial
    | cons t ts ih =>
      intro hts
      have htier : Safe guar rely (fun _ => True) (tierProg cfg route ip t) := by
        cases t with
        | worker => exact safe_bind (hworker ip) fun _ _ => trivial
        | proxy => exact safe_bind hproxy fun _ _ => trivial
        | upstreams => exact safe_bind (upstreamLoop_safe hinner route _) fun _ _ => trivial
        | direct => exact hdirect ip (hts List.mem_cons_self)
      refine safe_bind htier fun r _ => ?_
      cases r with
      | some u => trivial
      | none => exact ih fun hmem => hts (List.mem_cons_of_mem t hmem)
  cases targetIp with
  | none =>
    simp only [selectUpstream, fallbackChain_eq]
    cases fallbackIp route.dc with
    | none => trivial
    | some ip => exact safe_bind (htry ip _ fun hmem => absurd hmem (by decide)) fun _ _ => trivial
  | some ip =>
    rw [selectUpstream_some_eq]
    refine safe_bind (htry ip _ fun _ => rfl) fun r _ => ?_
    cases r with
    | some u => trivial
    | none =>
      rw [selectTarget_eq]
      exact safe_op (hinner _ trivial) fun _ _ =>
        safe_bind (htry ip _ fun _ => rfl) fun _ _ => trivial

end TgWsProxy
