import TgWsProxy.Proxy.Route

set_option relaxedAutoImplicit false
set_option autoImplicit false

/-!
# The documented ladder

`select_upstream` shares one fallback chain between three entry points. Here the ladder is stated
the way it is documented, as an order of tiers of which the first that connects is taken, and the
code is shown to walk it, whatever the cooldowns, the pool and the network answer on the way.

## Main definitions

* `TgWsProxy.Tier`, `tierProg` — the four tiers and their programs.
* `TgWsProxy.Ladder` — trying tiers in order until one connects.
* `TgWsProxy.priorityTiers`, `remainingTiers` — the documented order.

## Main results

* `TgWsProxy.eval_tryTiers` — trying tiers one after the other walks the ladder.
* `TgWsProxy.selectUpstream_ladder` — `select_upstream` is the documented ladder.
-/

namespace TgWsProxy

open Process Route

/-- The tiers of the ladder; the direct tier is the pool followed by a fresh WebSocket. -/
inductive Tier
  | worker
  | proxy
  | upstreams
  | direct
  deriving DecidableEq

/-- The direct tier: the pool, then `direct_ws`. -/
def directTier (cfg : Config) (route : Route) (targetIp : Host) : Action (Option Upstream) := do
  let cooling : Bool ← Prog.perform (Op.cooldownActive (.ipFail targetIp))
  match ← WsPool.get ⟨route.dc, route.isMedia, targetIp, cfg.skipTlsVerify⟩ !cooling with
  | some ws => return some (.ws ws .packets)
  | none => return (← directWs cfg route targetIp).map fun ws => .ws ws .packets

/-- What trying a tier means, for the address `ip` that the ladder was entered with. -/
def tierProg (cfg : Config) (route : Route) (ip : Host) : Tier → Action (Option Upstream)
  | .worker => do return (← cfWorker cfg route ip).map fun ws => .ws ws .tunnel
  | .proxy => do return (← cfProxy cfg route).map fun ws => .ws ws .packets
  | .upstreams => do return (← upstreamProxies cfg route).map .mtproto
  | .direct => directTier cfg route ip

/-- `Ladder oracle prog h tiers r h'`: with history `h`, the tiers are tried in order, each once,
until one connects; `r` is what it returned, `none` if all failed, and `h'` the history then. -/
inductive Ladder (oracle : Oracle Op Op.Resp) (prog : Tier → Action (Option Upstream)) :
    List (Event Op Op.Resp) → List Tier → Option Upstream → List (Event Op Op.Resp) → Prop
  | exhausted (h : List (Event Op Op.Resp)) : Ladder oracle prog h [] none h
  | connects {h h' : List (Event Op Op.Resp)} {t : Tier} {ts : List Tier} {u : Upstream} :
      eval oracle h (prog t) = (some u, h') → Ladder oracle prog h (t :: ts) (some u) h'
  | fails {h h' h'' : List (Event Op Op.Resp)} {t : Tier} {ts : List Tier}
      {r : Option Upstream} : eval oracle h (prog t) = (none, h') →
      Ladder oracle prog h' ts r h'' → Ladder oracle prog h (t :: ts) r h''

/-- The tiers that `--cf-priority` puts in front. -/
def priorityTiers (cfPriority : Bool) : List Tier := if cfPriority then [.worker, .proxy] else []

/-- The tiers behind the direct one that `--cf-priority` has not tried. -/
def fallbackTiers (cfPriority : Bool) : List Tier :=
  if cfPriority then [.upstreams] else [.worker, .proxy, .upstreams]

/-- What is left after `--cf-priority`: the direct tier first, or last if its address cools. -/
def remainingTiers (cfPriority cooling : Bool) : List Tier :=
  if cooling then fallbackTiers cfPriority ++ [.direct] else .direct :: fallbackTiers cfPriority

/-- No tier is tried twice. -/
theorem nodup_tiers (cfPriority cooling : Bool) :
    (priorityTiers cfPriority ++ remainingTiers cfPriority cooling).Nodup := by
  cases cfPriority <;> cases cooling <;> decide

/-! ## Trying tiers in order -/

/-- Try tiers in order, stop at the first that connects. -/
def tryTiers (prog : Tier → Action (Option Upstream)) : List Tier → Action (Option Upstream)
  | [] => return none
  | t :: ts => do
    match ← prog t with
    | some u => return some u
    | none => tryTiers prog ts

theorem tryTiers_append (prog : Tier → Action (Option Upstream)) (ts us : List Tier) :
    tryTiers prog (ts ++ us) = (tryTiers prog ts >>= fun r =>
      match r with
      | some u => .ret (some u)
      | none => tryTiers prog us) := by
  induction ts with
  | nil => rfl
  | cons t ts ih =>
    simp only [List.cons_append, tryTiers, Prog.bind_assoc, ih]
    congr 1
    funext r
    cases r <;> rfl

/-- Trying one tier is running its program. -/
theorem tryTiers_singleton (prog : Tier → Action (Option Upstream)) (t : Tier) :
    tryTiers prog [t] = prog t := by
  simp only [tryTiers, Prog.pure_eq]
  generalize prog t = p
  induction p with
  | ret r => cases r <;> rfl
  | act op next ih => simp only [Prog.act_bind, ih]

/-- **Trying tiers walks the ladder.** -/
theorem eval_tryTiers (oracle : Oracle Op Op.Resp) (prog : Tier → Action (Option Upstream))
    (ts : List Tier) : ∀ h : List (Event Op Op.Resp),
      Ladder oracle prog h ts (eval oracle h (tryTiers prog ts)).1
        (eval oracle h (tryTiers prog ts)).2 := by
  induction ts with
  | nil => exact fun h => .exhausted h
  | cons t ts ih =>
    intro h
    simp only [tryTiers, eval_bind]
    cases htier : eval oracle h (prog t) with
    | mk r h' =>
      cases r with
      | some u => exact .connects htier
      | none => exact .fails htier (ih h')

/-! ## The code as tiers -/

variable (cfg : Config) (route : Route)

/-- `cf_tiers` tries the Worker and then the Cloudflare proxy. -/
theorem cfTiers_eq (ip : Host) :
    cfTiers cfg route ip = tryTiers (tierProg cfg route ip) [.worker, .proxy] := by
  simp only [cfTiers, tryTiers, tierProg, Prog.bind_assoc, Prog.pure_eq]
  congr 1
  funext r
  cases r with
  | some ws => rfl
  | none =>
    simp only [Prog.ret_bind, Option.map_none]
    congr 1
    funext r
    cases r <;> rfl

/-- `fallback_chain` tries the tiers that are not skipped. -/
theorem fallbackChain_eq (ip : Host) (skipCf : Bool) :
    fallbackChain cfg route ip skipCf =
      tryTiers (tierProg cfg route ip) (fallbackTiers skipCf) := by
  have hups : (do return (← upstreamProxies cfg route).map .mtproto) =
      tryTiers (tierProg cfg route ip) [.upstreams] :=
    (tryTiers_singleton (tierProg cfg route ip) .upstreams).symm
  cases skipCf with
  | true => exact hups
  | false =>
    have hsplit : fallbackTiers false = [.worker, .proxy] ++ [.upstreams] := rfl
    rw [hsplit, tryTiers_append, ← cfTiers_eq, ← hups]
    rfl

/-- Behind the detour, with the tiers still to be tried. -/
theorem selectDirect_eq (ip : Host) (cooling : Bool) :
    selectDirect cfg route ip cooling =
      (tryTiers (tierProg cfg route ip)
          (.direct :: if cooling then [] else fallbackTiers cfg.cfPriority) >>= fun r =>
        .ret (some (r.getD (tcpLastResort route ip)))) := by
  simp only [selectDirect, tryTiers, tierProg, directTier, Prog.bind_assoc, fallbackChain_eq,
    Prog.pure_eq]
  congr 1
  funext cooling₁
  congr 1
  funext pooled
  cases pooled with
  | some ws => rfl
  | none =>
    simp only [Prog.bind_assoc, Prog.ret_bind]
    congr 1
    funext fresh
    cases fresh with
    | some ws => rfl
    | none => cases cooling <;> rfl

/-- The whole ladder with a target: the order depends on one read of the IP cooldown. -/
theorem selectTarget_eq (ip : Host) :
    selectTarget cfg route ip =
      (Prog.perform (Op.cooldownActive (.ipFail ip)) >>= fun active : Bool =>
        tryTiers (tierProg cfg route ip)
            (remainingTiers cfg.cfPriority (active && hasFallback cfg)) >>= fun r =>
          .ret (some (r.getD (tcpLastResort route ip)))) := by
  simp only [selectTarget, fallbackChain_eq, selectDirect_eq, Prog.pure_eq]
  congr 1
  funext active
  cases hcool : (active && hasFallback cfg) with
  | false => rfl
  | true =>
    simp only [remainingTiers, if_true, tryTiers_append, Prog.bind_assoc]
    congr 1
    funext r
    cases r <;> rfl

/-- `select_upstream` with a target: `--cf-priority` first, then the rest. -/
theorem selectUpstream_some_eq (ip : Host) :
    selectUpstream cfg route (some ip) =
      (tryTiers (tierProg cfg route ip) (priorityTiers cfg.cfPriority) >>= fun r =>
        match r with
        | some upstream => .ret (some upstream)
        | none => selectTarget cfg route ip) := by
  simp only [selectUpstream, priorityTiers, cfTiers_eq]
  cases cfg.cfPriority <;> rfl

/-! ## The ladder of a connection -/

/-- What the ladder is for a connection, in the order of the documentation: `out` is the result
with the history at the end, so nothing is performed but what the ladder performs. -/
def DocumentedLadder (cfg : Config) (route : Route) (oracle : Oracle Op Op.Resp)
    (h : List (Event Op Op.Resp)) (out : Option Upstream × List (Event Op Op.Resp)) :
    Option Host → Prop
  | none =>
    -- no `--dc-ip` target: Worker, Cloudflare proxy, upstream proxies, raw TCP
    match fallbackIp route.dc with
    | none => out = (none, h)
    | some ip =>
      ∃ r h', Ladder oracle (tierProg cfg route ip) h [.worker, .proxy, .upstreams] r h' ∧
        out = (some (r.getD (.tcp ip)), h')
  | some ip =>
    ∃ r₁ h₁, Ladder oracle (tierProg cfg route ip) h (priorityTiers cfg.cfPriority) r₁ h₁ ∧
      match r₁ with
      | some upstream => out = (some upstream, h₁)
      | none =>
        -- one read of the IP cooldown decides where the direct tier stands
        let active : Bool := oracle h₁ (.cooldownActive (.ipFail ip))
        ∃ r₂ h₂, Ladder oracle (tierProg cfg route ip)
            (h₁ ++ [⟨.cooldownActive (.ipFail ip), active⟩])
            (remainingTiers cfg.cfPriority (active && hasFallback cfg)) r₂ h₂ ∧
          out = (some (r₂.getD (.tcp ((fallbackIp route.dc).getD ip))), h₂)

/-- **The routing ladder.** For every configuration, target and oracle, whose answers may depend
on everything that happened before: `select_upstream` returns `None` exactly when the DC has
neither a target nor a built-in address, its result is that of the documented ladder, and the
ladder has no tier twice.

**Proof sketch.** The chain and the two entry points with a target are tiers tried in order
(`fallbackChain_eq`, `selectDirect_eq`, `selectTarget_eq`), and trying tiers in order walks the
ladder (`eval_tryTiers`). -/
theorem selectUpstream_ladder (targetIp : Option Host) (oracle : Oracle Op Op.Resp)
    (h : List (Event Op Op.Resp)) :
    let out := eval oracle h (selectUpstream cfg route targetIp)
    (out.1 = none ↔ targetIp = none ∧ fallbackIp route.dc = none) ∧
      DocumentedLadder cfg route oracle h out targetIp ∧
      ∀ cooling, (priorityTiers cfg.cfPriority ++ remainingTiers cfg.cfPriority cooling).Nodup := by
  intro out
  refine and_assoc.mp ⟨?_, nodup_tiers cfg.cfPriority⟩
  cases targetIp with
  | none =>
    simp only [DocumentedLadder, true_and]
    cases hip : fallbackIp route.dc with
    | none =>
      have hout : out = (none, h) := by simp only [out, selectUpstream, hip]; rfl
      simp [hout]
    | some ip =>
      set walked := eval oracle h (tryTiers (tierProg cfg route ip)
        [.worker, .proxy, .upstreams]) with hwalked
      have hout : out = (some (walked.1.getD (.tcp ip)), walked.2) := by
        simp only [out, selectUpstream, hip, fallbackChain_eq, eval_bind, hwalked]
        rfl
      exact ⟨by simp [hout], _, _, eval_tryTiers oracle _ _ h, hout⟩
  | some ip =>
    simp only [DocumentedLadder, reduceCtorEq, false_and, iff_false]
    have hfirst := eval_tryTiers oracle (tierProg cfg route ip) (priorityTiers cfg.cfPriority) h
    cases hprio : eval oracle h (tryTiers (tierProg cfg route ip)
        (priorityTiers cfg.cfPriority)) with
    | mk r₁ h₁ =>
      rw [hprio] at hfirst
      cases r₁ with
      | some upstream =>
        have hout : out = (some upstream, h₁) := by
          simp only [out, selectUpstream_some_eq, eval_bind, hprio, eval_ret]
        exact ⟨by simp [hout], _, _, hfirst, hout⟩
      | none =>
        have hout : out = eval oracle h₁ (selectTarget cfg route ip) := by
          simp only [out, selectUpstream_some_eq, eval_bind, hprio]
        rw [selectTarget_eq, Prog.perform_bind, eval_act, eval_bind] at hout
        exact ⟨by simp [hout], _, _, hfirst, _, _, eval_tryTiers oracle _ _ _, hout⟩

end TgWsProxy
