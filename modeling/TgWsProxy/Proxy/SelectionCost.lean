import TgWsProxy.Lib.Costs
import TgWsProxy.Proxy.Framing
import Mathlib.Data.List.Rotate

set_option relaxedAutoImplicit false
set_option autoImplicit false

/-!
# What finding an upstream costs

Every tier of the ladder is tried at most once, and in each of them there is only so much to try.
With one as the cost of a connect this bounds how many connections a client can cause, with the
time limits how long it can be kept waiting.

## Main definitions

* `TgWsProxy.recordTries`, `zoneTries` — the attempts that a record and the zones can lead to.
* `TgWsProxy.DialCosts`, `tierCost`, `selectionCost` — what connects, tiers and the ladder cost.

## Main results

* `TgWsProxy.connectCfWsForDc_costs` — the records of the zones.
* `TgWsProxy.tierProg_costs` — the tiers.
* `TgWsProxy.selectUpstream_costs` — the ladder.
* `TgWsProxy.run_selectionCost` — the same for every client of every run.
-/

namespace TgWsProxy

open Process Route

/-! ## Records -/

/-- The attempts that a record can lead to: its own, and those of its base record in case it is
missing from DNS. -/
def recordTries (domain : Host) : ℕ :=
  match h : baseCfRecord domain with
  | none => 1
  | some base => recordTries base + 1
termination_by domain.length
decreasing_by
  have hlength := CfAttempts.length_baseCfRecord h
  omega

theorem recordTries_of_none {domain : Host} (h : baseCfRecord domain = none) :
    recordTries domain = 1 := by
  rw [recordTries]
  split
  · rfl
  · rename_i base hbase
    rw [h] at hbase
    cases hbase

theorem recordTries_of_some {domain base : Host} (h : baseCfRecord domain = some base) :
    recordTries domain = recordTries base + 1 := by
  rw [recordTries]
  split
  · rename_i hnone
    rw [h] at hnone
    cases hnone
  · rename_i base' hbase
    rw [h] at hbase
    cases hbase
    rfl

/-- The attempts that the records of the zones can lead to. -/
def zoneTries (dc : ℕ) (cfDomains : List Host) (isMedia : Bool) : ℕ :=
  ((cfWsDomains dc cfDomains isMedia).map recordTries).sum

/-- In a zone without `-1.` in its own name the base record is tried once more for the other. -/
theorem zoneTries_of_plain {dc : ℕ} {cfDomains : List Host} {isMedia : Bool}
    (hplain : ∀ d ∈ cfDomains, baseCfRecord d = none) :
    zoneTries dc cfDomains isMedia = 3 * cfDomains.length := by
  unfold zoneTries cfWsDomains
  induction cfDomains with
  | nil => rfl
  | cons d ds ih =>
    have hbase : recordTries (baseRecord dc d) = 1 := by
      apply recordTries_of_none
      rw [baseCfRecord_base, hplain d List.mem_cons_self]
      rfl
    have hdash : recordTries (dashOneRecord dc d) = 2 := by
      rw [recordTries_of_some (baseCfRecord_dashOne dc d), hbase]
    rw [List.flatMap_cons, List.map_append, List.sum_append,
      ih fun d' hd' => hplain d' (List.mem_cons_of_mem d hd'), List.length_cons]
    cases isMedia <;> simp [orderedRecords, hbase, hdash] <;> omega

namespace CfAttempts

/-- The attempts that a queue can still lead to. -/
def tries (s : CfAttempts) : ℕ := (s.queue.map fun a => recordTries a.domain).sum

theorem tries_new (domains : List Host) : (new domains).tries = (domains.map recordTries).sum := by
  simp [tries, new, Function.comp_def]

/-- The attempt handed out is off the queue. -/
theorem tries_nextDomain {s s' : CfAttempts} {d : Host} (h : s.nextDomain = some (d, s')) :
    s'.tries + recordTries d ≤ s.tries := by
  have key : ∀ (queue : List CfAttempt) (tried : List Host),
      nextIn s.timedOut queue tried = some (d, s') →
      s'.tries + recordTries d ≤ (queue.map fun a => recordTries a.domain).sum := by
    intro queue
    induction queue with
    | nil => intro tried h; simp [nextIn] at h
    | cons a queue ih =>
      intro tried h
      simp only [nextIn] at h
      simp only [List.map_cons, List.sum_cons]
      split_ifs at h with hforced htried
      · cases h
        simp only [tries]
        omega
      · have hrest := ih tried h
        omega
      · cases h
        simp only [tries]
        omega
  exact key s.queue s.tried h

/-- A base record has fewer attempts left than the record it stands for. -/
theorem tries_afterFailure {attempts next : CfAttempts} {domain : Host}
    (h : attempts.nextDomain = some (domain, next)) (allRedirects : Bool)
    (outcome : WsConnectResult) :
    (afterFailure next allRedirects domain outcome).1.tries + 1 ≤ attempts.tries := by
  have hnext := tries_nextDomain h
  have hpos : 1 ≤ recordTries domain := by
    cases hbase : baseCfRecord domain with
    | none => rw [recordTries_of_none hbase]
    | some base => rw [recordTries_of_some hbase]; omega
  have hkept : next.tries + 1 ≤ attempts.tries := by omega
  cases outcome with
  | connected ws => exact hkept
  | redirect code => exact hkept
  | connectTimedOut reason => exact hkept
  | timedOut => exact hkept
  | failed reason =>
    unfold afterFailure
    simp only
    split_ifs
    · cases hretry : next.retryBaseOf domain with
      | none => exact hkept
      | some retried =>
        show retried.tries + 1 ≤ attempts.tries
        unfold retryBaseOf at hretry
        cases hbase : baseCfRecord domain with
        | none => simp [hbase] at hretry
        | some base =>
          simp only [hbase] at hretry
          split_ifs at hretry
          cases hretry
          rw [recordTries_of_some hbase] at hnext
          simp only [tries, List.map_cons, List.sum_cons] at hnext ⊢
          omega
    · exact hkept

end CfAttempts

/-! ## Rotations -/

/-- A rotation has the same domains. -/
theorem rotation_perm {domains : List Host} {idx : ℕ} : (rotation domains idx).Perm domains := by
  have hrotate : rotation domains idx = domains.rotate idx := by
    apply List.ext_getElem
    · simp [rotation]
    · intro i hi hi'
      have hpos : 0 < domains.length := by
        rw [List.length_rotate] at hi'
        omega
      rw [List.getElem_rotate]
      simp only [rotation, List.getElem_map, List.getElem_range]
      rw [List.getD_eq_getElem _ _ (Nat.mod_lt _ hpos)]
      simp only [Nat.add_comm idx i]
  rw [hrotate]
  exact List.rotate_perm domains idx

theorem zoneTries_perm {dc : ℕ} {cfDomains cfDomains' : List Host} {isMedia : Bool}
    (h : cfDomains.Perm cfDomains') :
    zoneTries dc cfDomains isMedia = zoneTries dc cfDomains' isMedia := by
  unfold zoneTries cfWsDomains
  apply List.Perm.sum_eq
  apply List.Perm.map
  exact h.flatMap_right _

/-! ## Costs -/

/-- What a WebSocket connect and a handshake with an upstream proxy cost, by their time limits. -/
structure DialCosts where
  dial : ℕ → ℕ
  upstream : ℕ → ℕ

/-- The costs of the operations. -/
def DialCosts.cost (w : DialCosts) : Op → ℕ
  | .dial request => w.dial request.timeout
  | .dialUpstream _ _ _ timeout => w.upstream timeout
  | _ => 0

variable (w : DialCosts) (cfg : Config) (route : Route)

/-- What walking the hostnames of a DC costs, with the long time limit or the short one. -/
def directCost : ℕ := 2 * max (w.dial cfg.timeouts.wsConnect) (w.dial cfg.timeouts.wsFailProbe)

/-- What a tier costs. -/
def tierCost : Tier → ℕ
  | .worker => cfg.cfWorkerDomains.length * w.dial cfg.timeouts.cfConnect
  | .proxy => zoneTries route.dc cfg.cfDomains route.isMedia * w.dial cfg.timeouts.cfConnect
  | .upstreams => cfg.mtprotoProxies.length * w.upstream cfg.timeouts.upstreamConnect
  | .direct => directCost w cfg + if cfg.frontingDomain.isSome then directCost w cfg else 0

/-- What the ladder costs: every tier once. -/
def selectionCost : ℕ :=
  tierCost w cfg route .worker + tierCost w cfg route .proxy + tierCost w cfg route .upstreams +
    tierCost w cfg route .direct

variable {w cfg route}

/-! ## The tiers -/

theorem balanceOrder_costs (domains : List Host) (enabled : Bool) (tier : CfTier) :
    Costs w.cost (fun order => order.Perm domains) (balanceOrder domains enabled tier) 0 := by
  unfold balanceOrder balanced
  split_ifs
  · exact List.Perm.refl domains
  · exact costs_free rfl fun _ => rotation_perm
  · exact List.Perm.refl domains

theorem cfTarget_costs (tier : CfTier) (dst domain : Host) (domains : List Host) :
    Costs w.cost (fun _ => True) (cfTarget cfg route tier dst domain domains) 0 := by
  unfold cfTarget balanced
  split_ifs
  · trivial
  · exact costs_free rfl fun _ => trivial
  · trivial

/-- Asking the pool for a spare. -/
theorem spare_costs (tier : CfTier) (dst domain : Host) (domains : List Host) (ws : Stream) :
    Costs w.cost (fun _ => True)
      (cfTarget cfg route tier dst domain domains >>= fun t =>
        WsPool.cfPrefetch t >>= fun _ => Prog.ret (some ws)) 0 := by
  have hprefetch : ∀ t : CfTarget, Costs w.cost (fun _ => True)
      (WsPool.cfPrefetch t >>= fun _ => Prog.ret (some ws)) 0 :=
    fun _ => costs_free rfl fun _ => trivial
  exact costs_bind (cfTarget_costs tier dst domain domains) fun t _ => hprefetch t

theorem cfGet_costs (tier : CfTier) (dc : ℕ) (isMedia : Bool) :
    Costs w.cost (fun _ => True) (WsPool.cfGet tier dc isMedia) 0 := by
  refine costs_free rfl fun (now : ℕ) => costs_free rfl fun (taken : Option CfEntry) => ?_
  cases taken with
  | none => trivial
  | some entry => exact costs_free rfl fun _ => trivial

theorem cfWorkerLoop_costs (dst : Host) (workers : List Host) :
    Costs w.cost (fun _ => True) (cfWorkerLoop cfg route dst workers)
      (workers.length * w.dial cfg.timeouts.cfConnect) := by
  induction workers with
  | nil => trivial
  | cons worker workers ih =>
    rw [List.length_cons, Nat.succ_mul, Nat.add_comm]
    refine costs_free rfl fun (cooling : Bool) => ?_
    cases cooling with
    | true => exact ih.mono (by omega) fun _ h => h
    | false =>
      have hconnect : Costs w.cost (fun _ => True)
          (connectCfWorkerWsForDc worker dst route.dc route.isMedia cfg.skipTlsVerify
            cfg.timeouts.cfConnect) (w.dial cfg.timeouts.cfConnect) :=
        costs_op (n := 0) fun _ => trivial
      refine costs_bind hconnect fun answer _ => ?_
      cases answer with
      | none => exact costs_free rfl fun _ => ih
      | some ws =>
        refine costs_free rfl fun _ => ?_
        exact (spare_costs .worker dst worker cfg.cfWorkerDomains ws).mono (Nat.zero_le _)
          fun _ h => h

/-- The Worker tier: each Worker once. -/
theorem cfWorker_costs (dst : Host) :
    Costs w.cost (fun _ => True) (cfWorker cfg route dst) (tierCost w cfg route .worker) := by
  unfold cfWorker
  split_ifs
  · trivial
  rw [← Nat.zero_add (tierCost w cfg route .worker)]
  refine costs_bind (cfGet_costs .worker route.dc route.isMedia) fun hit _ => ?_
  cases hit with
  | some hit => trivial
  | none =>
    rw [← Nat.zero_add (tierCost w cfg route .worker)]
    refine costs_bind (balanceOrder_costs _ _ _) fun workers hworkers => ?_
    unfold tierCost
    rw [← hworkers.length_eq]
    exact cfWorkerLoop_costs _ workers

/-- **The records of the zones.** Every attempt takes one off what the queue can lead to. -/
theorem connectCfLoop_costs (skipTlsVerify : Bool) (limit : ℕ) :
    ∀ (n : ℕ) (attempts : CfAttempts) (allRedirects : Bool), attempts.tries ≤ n →
      Costs w.cost (fun _ => True) (connectCfLoop skipTlsVerify limit attempts allRedirects)
        (n * w.dial limit) := by
  intro n
  induction n with
  | zero =>
    intro attempts allRedirects hn
    cases hnext : attempts.nextDomain with
    | none =>
      rw [connectCfLoop_none hnext]
      trivial
    | some x =>
      have hlt := CfAttempts.tries_afterFailure hnext allRedirects .timedOut
      omega
  | succ n ih =>
    intro attempts allRedirects hn
    cases hnext : attempts.nextDomain with
    | none =>
      rw [connectCfLoop_none hnext]
      trivial
    | some x =>
      obtain ⟨domain, next⟩ := x
      rw [connectCfLoop_some hnext, Nat.succ_mul, Nat.add_comm]
      refine ⟨Nat.le_add_right _ _, fun outcome => ?_⟩
      have hlt := CfAttempts.tries_afterFailure hnext allRedirects outcome
      have hrest := ih (afterFailure next allRedirects domain outcome).1
        (afterFailure next allRedirects domain outcome).2 (by omega)
      show Costs w.cost _ _ (w.dial limit + n * w.dial limit - w.dial limit)
      rw [Nat.add_sub_cancel_left]
      cases outcome with
      | connected ws => trivial
      | redirect code => exact hrest
      | failed reason => exact hrest
      | connectTimedOut reason => exact hrest
      | timedOut => exact hrest

/-- The proxy tier: every record of the zones. -/
theorem cfProxy_costs :
    Costs w.cost (fun _ => True) (cfProxy cfg route) (tierCost w cfg route .proxy) := by
  unfold cfProxy
  split_ifs
  · trivial
  rw [← Nat.zero_add (tierCost w cfg route .proxy)]
  refine costs_bind (balanceOrder_costs _ _ _) fun domains hdomains => ?_
  rw [← Nat.zero_add (tierCost w cfg route .proxy)]
  refine costs_bind (cfGet_costs .proxy route.dc route.isMedia) fun hit _ => ?_
  cases hit with
  | some hit => trivial
  | none =>
    have hwalk : Costs w.cost (fun _ => True)
        (connectCfWsForDc route.dc domains route.isMedia cfg.skipTlsVerify cfg.timeouts.cfConnect)
        (tierCost w cfg route .proxy) := by
      unfold tierCost
      apply connectCfLoop_costs
      rw [CfAttempts.tries_new, ← zoneTries_perm hdomains]
      exact le_refl _
    rw [← Nat.add_zero (tierCost w cfg route .proxy)]
    refine costs_bind hwalk fun out _ => ?_
    obtain ⟨ws, domain, allRedirects⟩ := out
    cases ws with
    | none => trivial
    | some ws =>
      cases domain with
      | none => trivial
      | some domain =>
        exact spare_costs .proxy [] domain cfg.cfDomains ws

theorem upstreamLoop_costs (proxies : List MtProtoProxy) :
    Costs w.cost (fun _ => True) (upstreamLoop cfg route proxies)
      (proxies.length * w.upstream cfg.timeouts.upstreamConnect) := by
  induction proxies with
  | nil => trivial
  | cons proxy proxies ih =>
    rw [List.length_cons, Nat.succ_mul, Nat.add_comm]
    refine costs_free rfl fun (cooling : Bool) => ?_
    cases cooling with
    | true => exact ih.mono (by omega) fun _ h => h
    | false =>
      refine costs_op fun (conn : Option UpstreamConnection) => ?_
      cases conn with
      | some conn => exact costs_free rfl fun _ => trivial
      | none => exact costs_free rfl fun _ => ih

/-! ## The direct tier -/

theorem connectWsLoop_costs (ip : Host) (skipTlsVerify : Bool) (limit : ℕ)
    (sniOverride : Option Host) (domains : List Host) :
    ∀ flags : WsAttempt, Costs w.cost (fun _ => True)
      (connectWsLoop ip skipTlsVerify limit sniOverride domains flags)
      (domains.length * w.dial limit) := by
  induction domains with
  | nil => exact fun _ => trivial
  | cons domain domains ih =>
    intro flags
    rw [List.length_cons, Nat.succ_mul, Nat.add_comm]
    refine costs_op fun (outcome : WsConnectResult) => ?_
    cases outcome with
    | connected ws => trivial
    | redirect code => exact ih _
    | failed reason => exact ih _
    | connectTimedOut reason => exact ih _
    | timedOut => exact ih _

/-- Walking the two hostnames of a DC. -/
theorem connectWs_costs (ip : Host) (sniOverride : Option Host) :
    Costs w.cost (fun _ => True) (Route.connectWs cfg route ip sniOverride) (directCost w cfg) := by
  refine costs_free rfl fun (cooling : Bool) => ?_
  have hlength : (wsDomains (websocketDc route.dc) route.isMedia).length = 2 := by
    unfold wsDomains orderedRecords
    split_ifs <;> rfl
  refine (connectWsLoop_costs ip _ _ sniOverride _ _).mono ?_ fun _ h => h
  rw [hlength]
  unfold directCost
  cases cooling with
  | true => exact Nat.mul_le_mul_left 2 (Nat.le_max_right _ _)
  | false => exact Nat.mul_le_mul_left 2 (Nat.le_max_left _ _)

theorem directWsFailed_costs (ip : Host) (attempt : WsAttempt) (probing : Bool) :
    Costs w.cost (fun _ => True) (directWsFailed cfg route ip attempt probing) 0 := by
  unfold directWsFailed
  refine costs_free rfl fun _ => ?_
  split_ifs
  · exact costs_free rfl fun _ => trivial
  · trivial

theorem reactiveFronting_costs (ip : Host) (stalled : Bool) :
    Costs w.cost (fun _ => True) (reactiveFronting cfg route ip stalled)
      (if cfg.frontingDomain.isSome then directCost w cfg else 0) := by
  unfold reactiveFronting
  cases stalled with
  | false => trivial
  | true =>
    refine costs_free rfl fun (cooling : Bool) => ?_
    cases cooling with
    | true => trivial
    | false =>
      cases cfg.frontingDomain with
      | none => trivial
      | some domain =>
        rw [← Nat.add_zero (if (some domain).isSome then directCost w cfg else 0)]
        refine costs_bind (connectWs_costs ip (some domain)) fun attempt _ => ?_
        cases attempt.ws with
        | some ws => exact costs_free rfl fun _ => costs_free rfl fun _ => trivial
        | none => exact costs_free rfl fun _ => trivial

/-- The direct tier: the hostnames once, and once more under a fronting name. -/
theorem directWs_costs (ip : Host) :
    Costs w.cost (fun _ => True) (directWs cfg route ip) (tierCost w cfg route .direct) := by
  refine costs_free rfl fun (active : Bool) => costs_free rfl fun (probing : Bool) => ?_
  have hfailed : ∀ (n : ℕ) (attempt : WsAttempt), Costs w.cost (fun _ => True)
      (directWsFailed cfg route ip attempt probing) n := fun n attempt =>
    (directWsFailed_costs ip attempt probing).mono (Nat.zero_le n) fun _ h => h
  refine costs_bind (connectWs_costs ip _) fun attempt _ => ?_
  cases (if active then cfg.frontingDomain else none) with
  | some domain =>
    cases attempt.ws with
    | some ws => exact costs_free rfl fun _ => costs_free rfl fun _ => trivial
    | none => exact costs_free rfl fun _ => costs_free rfl fun _ => hfailed _ attempt
  | none =>
    cases attempt.ws with
    | some ws => exact costs_free rfl fun _ => costs_free rfl fun _ => trivial
    | none =>
      rw [← Nat.add_zero (if cfg.frontingDomain.isSome then directCost w cfg else 0)]
      refine costs_bind (reactiveFronting_costs ip _) fun fronted _ => ?_
      cases fronted with
      | some ws => trivial
      | none => exact hfailed 0 attempt

/-! ## The ladder -/

/-- **The tiers.** -/
theorem tierProg_costs (ip : Host) (tier : Tier) :
    Costs w.cost (fun _ => True) (tierProg cfg route ip tier) (tierCost w cfg route tier) := by
  cases tier with
  | worker => exact costs_map (cfWorker_costs ip)
  | proxy => exact costs_map cfProxy_costs
  | upstreams => exact costs_map (upstreamLoop_costs cfg.mtprotoProxies)
  | direct =>
    refine costs_free rfl fun (cooling : Bool) => costs_free rfl fun (now : ℕ) =>
      costs_free rfl fun (pooled : Option Stream) => ?_
    cases pooled with
    | some ws => trivial
    | none => exact costs_map (directWs_costs ip)

theorem tryTiers_costs (ip : Host) (tiers : List Tier) :
    Costs w.cost (fun _ => True) (tryTiers (tierProg cfg route ip) tiers)
      ((tiers.map (tierCost w cfg route)).sum) := by
  induction tiers with
  | nil => trivial
  | cons tier tiers ih =>
    refine costs_bind (tierProg_costs ip tier) fun answer _ => ?_
    cases answer with
    | some u => trivial
    | none => exact ih

/-- **The ladder** costs no more than its four tiers, in whatever order they are tried.

**Proof sketch.** `--cf-priority` and an address that cools down only change the order. -/
theorem selectUpstream_costs (target : Option Host) :
    Costs w.cost (fun _ => True) (selectUpstream cfg route target) (selectionCost w cfg route) := by
  cases target with
  | none =>
    simp only [selectUpstream, fallbackChain_eq]
    cases fallbackIp route.dc with
    | none => trivial
    | some ip =>
      refine (costs_map (tryTiers_costs ip (fallbackTiers false))).mono ?_ fun _ h => h
      simp only [fallbackTiers, selectionCost, List.map_cons, List.map_nil, List.sum_cons,
        List.sum_nil, Bool.false_eq_true, if_false]
      omega
  | some ip =>
    rw [selectUpstream_some_eq]
    have htarget : Costs w.cost (fun _ => True) (selectTarget cfg route ip)
        (((fallbackTiers cfg.cfPriority).map (tierCost w cfg route)).sum +
          tierCost w cfg route .direct) := by
      rw [selectTarget_eq]
      refine costs_free rfl fun (active : Bool) => ?_
      refine (costs_map (tryTiers_costs ip (remainingTiers cfg.cfPriority
        (active && hasFallback cfg)))).mono ?_ fun _ h => h
      unfold remainingTiers
      split_ifs
      · simp
      · simp only [List.map_cons, List.sum_cons]
        omega
    have hsum : ((priorityTiers cfg.cfPriority).map (tierCost w cfg route)).sum +
        (((fallbackTiers cfg.cfPriority).map (tierCost w cfg route)).sum +
          tierCost w cfg route .direct) = selectionCost w cfg route := by
      unfold priorityTiers fallbackTiers selectionCost
      split_ifs
      · simp only [List.map_cons, List.map_nil, List.sum_cons, List.sum_nil]
        omega
      · simp only [List.map_cons, List.map_nil, List.sum_cons, List.sum_nil]
        omega
    rw [← hsum]
    refine costs_bind (tryTiers_costs ip (priorityTiers cfg.cfPriority)) fun answer _ => ?_
    cases answer with
    | some u => trivial
    | none => exact htarget

/-! ## Runs -/

/-- **What a client costs.** In every run of clients, pool hits, prefetches, refills and warm-ups,
and whatever the network answers: the connects that the task of a client has performed cost no more
than the ladder.

**Proof sketch.** The task has performed a path of `select_upstream`. -/
theorem run_selectionCost (cfg : Config) (w : DialCosts) (ls : List ServerLabel) (s : ServerState)
    (hrun : (server cfg).run (System.initial World.start) ls = some s) (i : ℕ) (route : Route)
    (prog : Action (Option Upstream)) (htask : s.tasks[i]? = some ⟨.client route, prog⟩) :
    ((System.eventsOf s.trace i).map fun e => w.cost e.op).sum ≤ selectionCost w cfg route := by
  have hpath := (pathState_of_run hrun).path i _ htask
  exact (selectUpstream_costs (cfg.dcTargetIp route.dc)).path hpath

/-- The client that found the pool empty has connected once, of the three times that it may. -/
theorem run_selectionCost_pooledRun :
    ∃ s prog, (server workerConfig).run (System.initial World.start) pooledRun = some s ∧
      s.tasks[0]? = some ⟨.client dcTwo, prog⟩ ∧
      ((System.eventsOf s.trace 0).map fun e => DialCosts.cost ⟨fun _ => 1, fun _ => 1⟩ e.op).sum
        ≤ selectionCost ⟨fun _ => 1, fun _ => 1⟩ workerConfig dcTwo ∧
      selectionCost ⟨fun _ => 1, fun _ => 1⟩ workerConfig dcTwo = 3 := by
  have hreturned : ((server workerConfig).run (System.initial World.start) pooledRun).map
      (fun s => returnedBy s 0) = some (some (.client dcTwo, some (.ws ⟨0, workerRequest
        "worker.example.dev".toList "149.154.167.51".toList 2 false false 10⟩ .tunnel))) := rfl
  obtain ⟨s, hs, hanswer⟩ := Option.map_eq_some_iff.mp hreturned
  have htask := task_of_returnedBy hanswer
  exact ⟨s, _, hs, htask, run_selectionCost workerConfig _ pooledRun s hs 0 dcTwo _ htask, rfl⟩

end TgWsProxy
