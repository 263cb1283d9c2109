import TgWsProxy.Lib.RoundRobin
import TgWsProxy.Pool.Capacity
import TgWsProxy.Proxy.TierRules
import TgWsProxy.WsClient.ConfiguredRecords

set_option relaxedAutoImplicit false
set_option autoImplicit false

/-!
# Round robin over the Cloudflare domains

With `--cf-balance` a connection orders the domains by one turn at the counter of its tier. The
same counter is advanced for the domain of a spare connection, and in the proxy tier also by
connections that the pool serves, so fresh connections skip the domains of those turns.

## Main definitions

* `TgWsProxy.turns`, `freshConnections` — who advanced the counter, and which of them opened a
  stream of their own.
* `TgWsProxy.StartsFrom` — a connection's first attempt goes to a domain.

## Main results

* `TgWsProxy.run_numbered` — the turns of a run are numbered consecutively.
* `TgWsProxy.freshConnections_startsFrom` — a fresh connection starts from the domain of its turn.
* `TgWsProxy.fresh_round_robin_iff` — fresh connections go round robin exactly if a multiple of
  `n` other turns lies between them.
-/

namespace TgWsProxy

open Process Route

/-! ## Turns, dials and fresh connections -/

/-- The domains of a tier. -/
def Config.tierDomains (cfg : Config) : CfTier → List Host
  | .worker => cfg.cfWorkerDomains
  | .proxy => cfg.cfDomains

/-- The number drawn from the counter of a tier. -/
def advance (tier : CfTier) : Event Op Op.Resp → Option ℕ
  | ⟨.fetchAdd t, v⟩ => if t = tier then some v else none
  | _ => none

/-- The request of a connect attempt. -/
def dialled : Event Op Op.Resp → Option DialRequest
  | ⟨.dial request, _⟩ => some request
  | _ => none

/-- The advances of a tier's counter: the task and the number it drew. -/
def advances (tier : CfTier) (trace : List (Record Op Op.Resp Tag)) : List (ℕ × ℕ) :=
  trace.filterMap fun r => (advance tier ⟨r.op, r.resp⟩).map fun v => (r.task, v)

/-- The tasks that advanced the counter of a tier, in order. -/
def turns (tier : CfTier) (trace : List (Record Op Op.Resp Tag)) : List ℕ :=
  (advances tier trace).map Prod.fst

/-- The first attempt of a task. -/
def firstDial (trace : List (Record Op Op.Resp Tag)) (i : ℕ) : Option DialRequest :=
  (System.eventsOf trace i).findSome? dialled

/-- The connections through a tier that opened a stream of their own, by their turns. -/
def freshConnections (tier : CfTier) (trace : List (Record Op Op.Resp Tag)) : List ℕ :=
  (RoundRobin.firsts (turns tier trace)).filter fun i => (firstDial trace i).isSome

/-- The hostname that a connection through `domain` dials first. -/
def startHost (tier : CfTier) (route : Route) (domain : Host) : Host :=
  match tier with
  | .worker => domain
  | .proxy => (cfWsDomains route.dc [domain] route.isMedia).headD []

/-- The first attempt of connection `i` goes to `domain`. -/
def StartsFrom (tier : CfTier) (s : ServerState) (i : ℕ) (domain : Host) : Prop :=
  ∃ route dst prog request, s.tasks[i]? = some ⟨.cfConnect tier route dst, prog⟩ ∧
    firstDial s.trace i = some request ∧ request.host = startHost tier route domain

/-- A hostname tells its domain. -/
theorem startHost_injective (tier : CfTier) (route : Route) :
    Function.Injective (startHost tier route) := by
  intro d d' h
  cases tier with
  | worker => exact h
  | proxy =>
    simp only [startHost, cfWsDomains, orderedRecords] at h
    cases hmedia : route.isMedia with
    | false => simpa [hmedia, baseRecord] using h
    | true => simpa [hmedia, dashOneRecord] using h

theorem StartsFrom.unique {tier : CfTier} {s : ServerState} {i : ℕ} {d d' : Host}
    (h : StartsFrom tier s i d) (h' : StartsFrom tier s i d') : d = d' := by
  obtain ⟨route, dst, prog, request, htask, hdial, hhost⟩ := h
  obtain ⟨route', dst', prog', request', htask', hdial', hhost'⟩ := h'
  rw [htask] at htask'
  rw [hdial] at hdial'
  cases htask'
  cases hdial'
  exact startHost_injective tier route (hhost.symm.trans hhost')

/-! ## The numbers of the turns -/

/-- What an operation does to a counter. -/
theorem exec_counters (cfg : Config) (op : Op) (env : Env) (w : World) (tier : CfTier) :
    advance tier ⟨op, (exec cfg op env w).1⟩ = none ∧
        (exec cfg op env w).2.1.counters tier = w.counters tier ∨
      advance tier ⟨op, (exec cfg op env w).1⟩ = some (w.counters tier) ∧
        (exec cfg op env w).2.1.counters tier = (w.counters tier + 1) % 2 ^ 64 := by
  cases op with
  | fetchAdd t =>
    by_cases ht : t = tier
    · subst ht
      exact .inr (by simp [exec, execAt, advance])
    · exact .inl (by simp [exec, execAt, advance, ht, Ne.symm ht])
  | dial request =>
    refine .inl ⟨rfl, ?_⟩
    simp only [exec, execAt]
    cases env.outcome <;> rfl
  | cfPush t ws =>
    refine .inl ⟨rfl, ?_⟩
    simp only [exec, execAt]
    split_ifs <;> rfl
  | _ => exact .inl ⟨rfl, rfl⟩

/-- The counter is the number of turns, and the `k`-th turn drew `k`. -/
structure Numbered (tier : CfTier) (s : ServerState) : Prop where
  counter : s.world.counters tier = (advances tier s.trace).length % 2 ^ 64
  drawn : (advances tier s.trace).map Prod.snd =
    (List.range (advances tier s.trace).length).map (· % 2 ^ 64)

theorem step_numbered {cfg : Config} {tier : CfTier} {s s' : ServerState} {l : ServerLabel}
    (hs : Numbered tier s) (hstep : (server cfg).step s l = some s') : Numbered tier s' := by
  rcases System.step_cases hstep with ⟨tag, rfl, rfl⟩ | ⟨i, env, tag, op, next, rfl, htask, rfl⟩
  · exact ⟨hs.counter, hs.drawn⟩
  · have htrace : advances tier ((server cfg).perform s i env tag op next).trace =
        advances tier s.trace ++
          ((advance tier ⟨op, (exec cfg op env s.world).1⟩).map fun v => (i, v)).toList := by
      rw [System.perform, advances, List.filterMap_append]
      rfl
    rcases exec_counters cfg op env s.world tier with ⟨hnone, hsame⟩ | ⟨hsome, hnext⟩
    · rw [hnone, Option.map_none, Option.toList_none, List.append_nil] at htrace
      constructor
      · rw [htrace]
        exact hsame.trans hs.counter
      · rw [htrace]
        exact hs.drawn
    · rw [hsome, Option.map_some, Option.toList_some] at htrace
      constructor
      · rw [htrace]
        refine hnext.trans ?_
        rw [hs.counter, List.length_append, List.length_singleton, Nat.mod_add_mod]
      · rw [htrace, List.length_append, List.length_singleton, List.range_succ, List.map_append,
          List.map_append, hs.drawn, hs.counter]
        rfl

/-- **Turns are numbered.** In every run of the server. -/
theorem run_numbered {cfg : Config} {ls : List ServerLabel} {s : ServerState} (tier : CfTier)
    (hrun : (server cfg).run (System.initial World.start) ls = some s) : Numbered tier s :=
  System.run_invariant (fun _ _ _ hs _ hstep => step_numbered hs hstep) ⟨rfl, rfl⟩
    (System.along_of_forall (C := fun _ _ => True) ls _ fun _ _ _ => trivial) hrun

/-- The first number that a task drew is the place of its first turn. -/
theorem Numbered.firstAdvance {tier : CfTier} {s : ServerState} (hs : Numbered tier s)
    (hwrap : (turns tier s.trace).length ≤ 2 ^ 64) {i v : ℕ}
    (h : (System.eventsOf s.trace i).findSome? (advance tier) = some v) :
    v = (turns tier s.trace).idxOf i := by
  rw [System.findSome?_eventsOf] at h
  have hfind : ((advances tier s.trace).findSome? fun t => if t.1 = i then some t.2 else none) =
      some v := by
    rw [advances, ← List.head?_filterMap, List.filterMap_filterMap, List.head?_filterMap, ← h]
    congr 1
    funext r
    cases advance tier ⟨r.op, r.resp⟩ with
    | none => split_ifs <;> rfl
    | some v => rfl
  have hv := RoundRobin.firstTurn_eq hs.drawn hfind
  have hmem : i ∈ turns tier s.trace := by
    obtain ⟨t, ht, hi⟩ := List.exists_of_findSome?_eq_some hfind
    refine List.mem_map.mpr ⟨t, ht, ?_⟩
    by_contra hne
    rw [if_neg hne] at hi
    cases hi
  have hlt := List.idxOf_lt_length_of_mem hmem
  exact hv.trans (Nat.mod_eq_of_lt (hlt.trans_le hwrap))

/-! ## Where a fresh connection starts -/

/-- What connections rely on while every connect succeeds: no Worker is ever cooling down. -/
def ConnectRely : (op : Op) → op.Resp → Prop
  | .dial _, outcome => ∃ ws, outcome = .connected ws
  | .cooldownActive _, active => active = false
  | _, _ => True

section Paths

variable {cfg : Config} {route : Route} {events : List (Event Op Op.Resp)}
  {q : Action (Option Upstream)} {request : DialRequest}

/-- A pool hit asks for its replacement and is done, a miss goes on. -/
def hitOr (hit : CfEntry → CfTarget) (miss : Action (Option Upstream)) :
    Option CfEntry → Action (Option Upstream)
  | some entry => .act (.cfPrefetch (hit entry)) fun _ => .ret none
  | none => miss

/-- A balanced connection through a Worker: the pool, then its turn, then the Workers. -/
theorem body_worker_eq (hbal : cfg.cfBalance = true) (hn : 2 ≤ cfg.cfWorkerDomains.length)
    (dst : Host) :
    ∃ (dst' : Host) (hit : CfEntry → CfTarget), body cfg (.cfConnect .worker route dst) =
      .act .now fun now => .act (.cfTake (.worker, route.dc, route.isMedia) now) <| hitOr hit <|
        .act (.fetchAdd .worker) fun v =>
          cfWorkerLoop cfg route dst'
            (rotation cfg.cfWorkerDomains (v % cfg.cfWorkerDomains.length)) >>= fun _ =>
              .ret none := by
  have hne : cfg.cfWorkerDomains ≠ [] := List.ne_nil_of_length_pos (by omega)
  refine ⟨(fallbackIp route.dc).getD dst, fun entry => ⟨.worker, route.dc, route.isMedia,
    entry.dst, entry.domain, entry.skipTlsVerify, entry.connectTimeout⟩, ?_⟩
  rw [body, cfWorker, if_neg hne, balanceOrder, if_pos hbal, balanced, if_neg (by omega)]
  refine congrArg (Prog.act Op.now) (funext fun now => ?_)
  refine congrArg (Prog.act (Op.cfTake (.worker, route.dc, route.isMedia) now))
    (funext fun taken => ?_)
  cases taken with
  | none => rfl
  | some entry => rfl

/-- What follows the inline connect of the proxy tier. -/
def afterConnect (cfg : Config) (route : Route) :
    Option Stream × Option Host × Bool → Action (Option Stream)
  | (some ws, some domain, _) => do
    WsPool.cfPrefetch (← cfTarget cfg route .proxy [] domain cfg.cfDomains)
    return some ws
  | (ws, _, _) => return ws

/-- A balanced connection through the Cloudflare proxy: its turn, the pool, then the records. -/
theorem body_proxy_eq (hbal : cfg.cfBalance = true) (hn : 2 ≤ cfg.cfDomains.length)
    (dst : Host) :
    ∃ hit : CfEntry → CfTarget, body cfg (.cfConnect .proxy route dst) =
      .act (.fetchAdd .proxy) fun v => .act .now fun now =>
        .act (.cfTake (.proxy, route.dc, route.isMedia) now) <| hitOr hit <|
          connectCfWsForDc route.dc (rotation cfg.cfDomains (v % cfg.cfDomains.length))
            route.isMedia cfg.skipTlsVerify cfg.timeouts.cfConnect >>= fun out =>
              afterConnect cfg route out >>= fun _ => .ret none := by
  have hne : cfg.cfDomains ≠ [] := List.ne_nil_of_length_pos (by omega)
  refine ⟨fun entry => ⟨.proxy, route.dc, route.isMedia, entry.dst, entry.domain,
    entry.skipTlsVerify, entry.connectTimeout⟩, ?_⟩
  rw [body, cfProxy, if_neg hne, balanceOrder, if_pos hbal, balanced, if_neg (by omega)]
  refine congrArg (Prog.act (Op.fetchAdd .proxy)) (funext fun v => ?_)
  refine congrArg (Prog.act Op.now) (funext fun now => ?_)
  refine congrArg (Prog.act (Op.cfTake (.proxy, route.dc, route.isMedia) now))
    (funext fun taken => ?_)
  cases taken with
  | none =>
    refine (Prog.bind_assoc (connectCfWsForDc route.dc (rotation cfg.cfDomains
      (v % cfg.cfDomains.length)) route.isMedia cfg.skipTlsVerify cfg.timeouts.cfConnect)
      _ _).trans (congrArg _ (funext fun out => ?_))
    obtain ⟨ws, domain, redirects⟩ := out
    cases ws with
    | none => rfl
    | some ws =>
      cases domain with
      | none => rfl
      | some domain => rfl
  | some entry => rfl

/-- A connection that dials has missed the pool. -/
theorem hitOr_path {hit : CfEntry → CfTarget} {miss : Action (Option Upstream)}
    {taken : Option CfEntry} (hpath : Path (hitOr hit miss taken) events q)
    (hdial : events.findSome? dialled = some request) : taken = none ∧ Path miss events q := by
  cases taken with
  | none => exact ⟨rfl, hpath⟩
  | some entry =>
    rcases hpath.act_cases with rfl | ⟨_, rest, rfl, hret⟩
    · cases hdial
    · rw [hret.ret_events] at hdial
      cases hdial

theorem path_start_worker {dst : Host} (hbal : cfg.cfBalance = true)
    (hn : 2 ≤ cfg.cfWorkerDomains.length)
    (hpath : Path (body cfg (.cfConnect .worker route dst)) events q)
    (hrely : ∀ e ∈ events, ConnectRely e.op e.resp)
    (hdial : events.findSome? dialled = some request) :
    ∃ v, events.findSome? (advance .worker) = some v ∧ request.host = startHost .worker route
      (cfg.cfWorkerDomains.getD (v % cfg.cfWorkerDomains.length) []) := by
  obtain ⟨dst', hit, hbody⟩ := body_worker_eq hbal hn dst
  rw [hbody] at hpath
  rcases hpath.act_cases with rfl | ⟨now, rest, rfl, htake⟩
  · cases hdial
  rcases htake.act_cases with rfl | ⟨taken, rest, rfl, hpool⟩
  · cases hdial
  obtain ⟨rfl, hmiss⟩ := hitOr_path hpool hdial
  rcases hmiss.act_cases with rfl | ⟨v, rest, rfl, hloop⟩
  · cases hdial
  have hne : cfg.cfWorkerDomains ≠ [] := List.ne_nil_of_length_pos (by omega)
  obtain ⟨workers, hrot⟩ := rotation_eq_cons hne v
  rw [hrot, cfWorkerLoop] at hloop
  rcases hloop.act_cases with rfl | ⟨cooling, rest, rfl, hfirst⟩
  · cases hdial
  have hcooling : cooling = false := hrely ⟨_, cooling⟩ (by simp)
  subst hcooling
  rcases hfirst.act_cases with rfl | ⟨outcome, rest, rfl, -⟩
  · cases hdial
  cases hdial
  exact ⟨v, rfl, rfl⟩

theorem path_start_proxy {dst : Host} (hbal : cfg.cfBalance = true)
    (hn : 2 ≤ cfg.cfDomains.length)
    (hpath : Path (body cfg (.cfConnect .proxy route dst)) events q)
    (hdial : events.findSome? dialled = some request) :
    ∃ v, events.findSome? (advance .proxy) = some v ∧ request.host = startHost .proxy route
      (cfg.cfDomains.getD (v % cfg.cfDomains.length) []) := by
  obtain ⟨hit, hbody⟩ := body_proxy_eq hbal hn dst
  rw [hbody] at hpath
  rcases hpath.act_cases with rfl | ⟨v, rest, rfl, hnow⟩
  · cases hdial
  rcases hnow.act_cases with rfl | ⟨now, rest, rfl, htake⟩
  · cases hdial
  rcases htake.act_cases with rfl | ⟨taken, rest, rfl, hpool⟩
  · cases hdial
  obtain ⟨rfl, hmiss⟩ := hitOr_path hpool hdial
  have hne : cfg.cfDomains ≠ [] := List.ne_nil_of_length_pos (by omega)
  obtain ⟨domains, hrot⟩ := rotation_eq_cons hne v
  -- the queue starts with the first record of the first domain
  obtain ⟨attempts, hnext⟩ : ∃ attempts,
      (CfAttempts.new (cfWsDomains route.dc
        (rotation cfg.cfDomains (v % cfg.cfDomains.length)) route.isMedia)).nextDomain =
      some (startHost .proxy route
        (cfg.cfDomains.getD (v % cfg.cfDomains.length) []), attempts) := by
    rw [hrot]
    simp only [startHost]
    cases route.isMedia with
    | false => exact ⟨_, rfl⟩
    | true => exact ⟨_, rfl⟩
  simp only [connectCfWsForDc, connectCfLoop_some hnext, Prog.act_bind] at hmiss
  rcases hmiss.act_cases with rfl | ⟨outcome, rest, rfl, -⟩
  · cases hdial
  cases hdial
  exact ⟨v, rfl, rfl⟩

/-- **Where a fresh connection starts**: its first attempt, if it makes one, goes to the domain of
the first number it drew. -/
theorem path_start {tier : CfTier} {dst : Host} (hbal : cfg.cfBalance = true)
    (hn : 2 ≤ (cfg.tierDomains tier).length)
    (hpath : Path (body cfg (.cfConnect tier route dst)) events q)
    (hrely : ∀ e ∈ events, ConnectRely e.op e.resp)
    (hdial : events.findSome? dialled = some request) :
    ∃ v, events.findSome? (advance tier) = some v ∧
      request.host = startHost tier route
        ((cfg.tierDomains tier).getD (v % (cfg.tierDomains tier).length) []) := by
  cases tier with
  | worker => exact path_start_worker hbal hn hpath hrely hdial
  | proxy => exact path_start_proxy hbal hn hpath hdial

end Paths

/-! ## Runs of connections through one tier -/

/-- Only connections through `tier` arrive, and every connect succeeds. -/
def throughTier (tier : CfTier) : ServerLabel → Bool
  | .start (.cfConnect t _ _) => t == tier
  | .start _ => false
  | .step _ env => env.outcome == .connected

/-- The tasks of such a run. -/
def TierTag (tier : CfTier) : Tag → Prop
  | .cfConnect t _ _ => t = tier
  | .cfRefill _ => True
  | _ => False

/-- Nothing cools down, the direct pool is left alone, and only connections take turns. -/
def TierGuar (tag : Tag) : Op → Prop
  | .cooldownSet .. => False
  | .poolTake .. => False
  | .fetchAdd _ => ∃ tier route dst, tag = .cfConnect tier route dst
  | _ => True

section Contract

variable {cfg : Config} {tag : Tag}

/-- The contract allows what the tiers do: no attempt fails. -/
theorem connection_tierRules (htag : ∃ tier route dst, tag = .cfConnect tier route dst) :
    TierRules cfg (TierGuar tag) ConnectRely where
  now := trivial
  take _ _ := trivial
  advance _ := htag
  dial _ _ := trivial
  active _ := trivial
  clear _ := trivial
  set _ outcome houtcome hfailed := by
    obtain ⟨ws, rfl⟩ := houtcome
    cases hfailed
  hit _ _ _ _ _ _ := trivial

/-- While every connect succeeds, no Worker ever cools down. -/
theorem tier_relyGuarantee (cfg : Config) (tier : CfTier) :
    System.RelyGuarantee (server cfg) (fun env => env.outcome = .connected)
      (fun w => ∀ key, w.cooldowns key = none) (TierTag tier) TierGuar ConnectRely where
  exec tag op env w htag henv hinv hguar := by
    refine ⟨?_, ?_, ?_⟩
    · cases op with
      | dial request => exact ⟨_, by simp [server, exec, execAt, henv]; rfl⟩
      | cooldownActive key => simp [ConnectRely, server, exec, execAt, hinv key]
      | _ => trivial
    · intro key
      cases op with
      | dial request => simpa [server, exec, execAt, henv] using hinv key
      | cooldownSet k cooldown => exact absurd hguar id
      | cooldownClear k =>
        by_cases hk : key = k
        · simp [server, exec, execAt, hk]
        · simpa [server, exec, execAt, hk] using hinv key
      | cfPush t ws =>
        simp only [server, exec, execAt]
        split_ifs <;> exact hinv key
      | _ => exact hinv key
    · intro tag' htag'
      rcases exec_spawn cfg op env w htag' with ⟨key, now, args, rfl, -⟩ | ⟨t, -, rfl⟩
      · exact absurd hguar id
      · trivial
  body tag htag := by
    cases tag with
    | cfConnect t route dst =>
      cases t with
      | worker =>
        exact safe_bind (cfWorker_safe (connection_tierRules ⟨_, _, _, rfl⟩) route dst
          fun _ _ => trivial) fun _ _ => trivial
      | proxy =>
        exact safe_bind (cfProxy_safe_any (connection_tierRules ⟨_, _, _, rfl⟩) route
          fun _ => trivial) fun _ _ => trivial
    | cfRefill target =>
      exact safe_bind (cfRefill_safe_any trivial trivial trivial (fun _ => trivial)
        fun _ => trivial) fun _ _ => trivial
    | _ => exact absurd htag id

end Contract

/-- Round robin: the fresh connections, by their turns, start from consecutive domains of the
tier, and any `n` consecutive ones from different domains. -/
structure FreshRoundRobin (cfg : Config) (tier : CfTier) (s : ServerState) : Prop where
  consecutive : ∃ start, ∀ k i, (freshConnections tier s.trace)[k]? = some i →
    StartsFrom tier s i ((cfg.tierDomains tier).getD
      ((start + k) % (cfg.tierDomains tier).length) [])
  distinct : ∀ a b i j, a < b → b < a + (cfg.tierDomains tier).length →
    (freshConnections tier s.trace)[a]? = some i → (freshConnections tier s.trace)[b]? = some j →
    ∀ d, StartsFrom tier s i d → ¬ StartsFrom tier s j d

section Runs

variable {cfg : Config} {tier : CfTier} {ls : List ServerLabel} {s : ServerState}

/-- A fresh connection starts from the domain of its turn. -/
theorem freshConnections_startsFrom (hbal : cfg.cfBalance = true)
    (hn : 2 ≤ (cfg.tierDomains tier).length) (hls : ∀ l ∈ ls, throughTier tier l = true)
    (hrun : (server cfg).run (System.initial World.start) ls = some s)
    (hwrap : (turns tier s.trace).length ≤ 2 ^ 64) {i : ℕ}
    (hi : i ∈ freshConnections tier s.trace) :
    StartsFrom tier s i ((cfg.tierDomains tier).getD
      ((turns tier s.trace).idxOf i % (cfg.tierDomains tier).length) []) := by
  have hadmits : ∀ l ∈ ls,
      System.Admits (fun env : Env => env.outcome = .connected) (TierTag tier) l := by
    intro l hl
    have hthrough := hls l hl
    cases l with
    | step j env => exact beq_iff_eq.mp hthrough
    | start tag =>
      cases tag with
      | cfConnect t route dst => exact beq_iff_eq.mp hthrough
      | _ => cases hthrough
  have hsafe := System.run_safe (tier_relyGuarantee cfg tier) hadmits
    (System.safeState_initial (fun _ => rfl)) hrun
  have hpaths := System.run_path (System.pathState_initial World.start) hrun
  obtain ⟨hfirst, hdialled⟩ := List.mem_filter.mp hi
  obtain ⟨request, hdial⟩ := Option.isSome_iff_exists.mp hdialled
  -- whoever takes a turn is a connection through the tier
  obtain ⟨route, dst, prog, htask⟩ :
      ∃ route dst prog, s.tasks[i]? = some ⟨.cfConnect tier route dst, prog⟩ := by
    obtain ⟨⟨j, v⟩, hadv, rfl⟩ := List.mem_map.mp (RoundRobin.mem_firsts.mp hfirst)
    obtain ⟨r, hr, hrv⟩ := List.mem_filterMap.mp hadv
    obtain ⟨v', hadvance, hpair⟩ := Option.map_eq_some_iff.mp hrv
    cases hpair
    obtain ⟨⟨tag, prog⟩, htask, htag⟩ := hpaths.known r hr
    obtain ⟨hok, hguar, -⟩ := hsafe.trace r hr
    obtain ⟨task, rtag, op, resp⟩ := r
    cases op with
    | fetchAdd t =>
      obtain ⟨tier', route, dst, rfl⟩ := hguar
      have htier : tier' = tier := hok
      subst htier
      cases htag
      exact ⟨route, dst, prog, htask⟩
    | _ => cases hadvance
  have hrely : ∀ e ∈ System.eventsOf s.trace i, ConnectRely e.op e.resp := by
    intro e he
    obtain ⟨r, hr, hre⟩ := List.mem_filterMap.mp he
    split_ifs at hre
    cases hre
    exact (hsafe.trace r hr).2.2
  obtain ⟨v, hv, hhost⟩ := path_start hbal hn (hpaths.path i _ htask) hrely hdial
  refine ⟨route, dst, prog, request, htask, hdial, ?_⟩
  rw [hhost, (run_numbered tier hrun).firstAdvance hwrap hv]

/-- **Round robin of fresh connections.** With `--cf-balance`, two or more distinct domains, every
connect successful and no overflow of the counter, in every run of connections through one tier:
the fresh connections go round robin if and only if a multiple of `n` other turns, those of spares
and of pool hits, lies between any two consecutive ones.

**Proof sketch.** The `k`-th turn draws `k`, and a fresh connection starts from the domain at the
number of its own turn modulo `n`. Distinct domains tell the numbers apart modulo `n`, and
consecutive numbers are what `RoundRobin.spaced_iff` is about. -/
theorem fresh_round_robin_iff (cfg : Config) (tier : CfTier) (hbal : cfg.cfBalance = true)
    (hn : 2 ≤ (cfg.tierDomains tier).length) (hnodup : (cfg.tierDomains tier).Nodup)
    (ls : List ServerLabel) (hls : ∀ l ∈ ls, throughTier tier l = true) (s : ServerState)
    (hrun : (server cfg).run (System.initial World.start) ls = some s)
    (hwrap : (turns tier s.trace).length ≤ 2 ^ 64) :
    FreshRoundRobin cfg tier s ↔
      RoundRobin.Spaced (cfg.tierDomains tier).length (turns tier s.trace)
        (freshConnections tier s.trace) := by
  have hstarts : ∀ k i, (freshConnections tier s.trace)[k]? = some i →
      StartsFrom tier s i ((cfg.tierDomains tier).getD
        ((turns tier s.trace).idxOf i % (cfg.tierDomains tier).length) []) := fun k i hi =>
    freshConnections_startsFrom hbal hn hls hrun hwrap (List.mem_of_getElem? hi)
  -- distinct domains stand at distinct places
  have hplace : ∀ a b, (cfg.tierDomains tier).getD (a % (cfg.tierDomains tier).length) [] =
      (cfg.tierDomains tier).getD (b % (cfg.tierDomains tier).length) [] →
      a ≡ b [MOD (cfg.tierDomains tier).length] := by
    intro a b hab
    have ha := Nat.mod_lt a (by omega : 0 < (cfg.tierDomains tier).length)
    have hb := Nat.mod_lt b (by omega : 0 < (cfg.tierDomains tier).length)
    rw [List.getD_eq_getElem _ _ ha, List.getD_eq_getElem _ _ hb] at hab
    exact (hnodup.getElem_inj_iff).mp hab
  have hsub : (freshConnections tier s.trace).Sublist (RoundRobin.firsts (turns tier s.trace)) :=
    List.filter_sublist
  rw [RoundRobin.spaced_iff hsub]
  constructor
  · rintro ⟨⟨start, hround⟩, -⟩
    exact ⟨start, fun k i hi => hplace _ _ ((hstarts k i hi).unique (hround k i hi))⟩
  · rintro ⟨start, hmod⟩
    have hround : ∀ k i, (freshConnections tier s.trace)[k]? = some i →
        StartsFrom tier s i ((cfg.tierDomains tier).getD
          ((start + k) % (cfg.tierDomains tier).length) []) := by
      intro k i hi
      rw [← hmod k i hi]
      exact hstarts k i hi
    refine ⟨⟨start, hround⟩, fun a b i j hab hba hi hj d hid hjd => ?_⟩
    have hsame := hplace _ _ (((hround a i hi).unique hid).trans ((hround b j hj).unique hjd).symm)
    have hdvd := (Nat.modEq_iff_dvd' (by omega)).mp hsame
    exact absurd (Nat.le_of_dvd (by omega) hdvd) (by omega)

end Runs

/-! ## Two connections -/

/-- Two balanced zones, and no pooling. -/
def balancedConfig : Config :=
  { smallConfig with
    poolSize := 0
    cfBalance := true
    cfDomains := ["d1.example.com".toList, "d2.example.com".toList] }

/-- A connection to DC 2 through the Cloudflare proxy. -/
def proxyTag : Tag := .cfConnect .proxy ⟨2, false, 2, .intermediate⟩ []

/-- Two connections that take their turns one right after the other. -/
def alternatingRun : List ServerLabel :=
  .start proxyTag :: .start proxyTag ::
    (smoothSteps 0 1 ++ smoothSteps 1 1 ++ smoothSteps 0 3 ++ smoothSteps 1 3)

/-- They go round robin. -/
theorem fresh_round_robin_alternatingRun :
    ∃ s, (server balancedConfig).run (System.initial World.start) alternatingRun = some s ∧
      freshConnections .proxy s.trace = [0, 1] ∧ FreshRoundRobin balancedConfig .proxy s := by
  have hstate : ((server balancedConfig).run (System.initial World.start) alternatingRun).map
      (fun s => (turns .proxy s.trace, freshConnections .proxy s.trace)) =
        some ([0, 1], [0, 1]) := by
    decide +kernel
  obtain ⟨s, hrun, hs⟩ := Option.map_eq_some_iff.mp hstate
  obtain ⟨hturns, hfresh⟩ := Prod.mk.inj hs
  refine ⟨s, hrun, hfresh, (fresh_round_robin_iff balancedConfig .proxy rfl (by decide)
    (by decide +kernel) alternatingRun (by decide) s hrun (by rw [hturns]; decide)).mpr ?_⟩
  rw [hturns, hfresh]
  decide

/-- Two connections, the second after the first has asked for its spare. -/
def sequentialRun : List ServerLabel :=
  .start proxyTag :: (smoothSteps 0 6 ++ .start proxyTag :: smoothSteps 2 4)

/-- With two zones, both start from the first. -/
theorem fresh_connections_repeat :
    balancedConfig.cfBalance = true ∧ (balancedConfig.tierDomains .proxy).length = 2 ∧
      (balancedConfig.tierDomains .proxy).Nodup ∧
      (∀ l ∈ sequentialRun, throughTier .proxy l = true) ∧
      ∃ s, (server balancedConfig).run (System.initial World.start) sequentialRun = some s ∧
        turns .proxy s.trace = [0, 0, 2] ∧ freshConnections .proxy s.trace = [0, 2] ∧
        StartsFrom .proxy s 0 "d1.example.com".toList ∧
        StartsFrom .proxy s 2 "d1.example.com".toList ∧
        ¬ FreshRoundRobin balancedConfig .proxy s := by
  refine ⟨rfl, rfl, by decide +kernel, by decide, ?_⟩
  have hstate : ((server balancedConfig).run (System.initial World.start) sequentialRun).map
      (fun s : ServerState => decide (turns .proxy s.trace = [0, 0, 2] ∧
        freshConnections .proxy s.trace = [0, 2] ∧
        ∀ i ∈ ([0, 2] : List ℕ), s.tasks[i]?.map Task.tag = some proxyTag ∧
          (firstDial s.trace i).map DialRequest.host =
            some "kws2.d1.example.com".toList)) = some true := by
    decide +kernel
  obtain ⟨s, hrun, hs⟩ := Option.map_eq_some_iff.mp hstate
  obtain ⟨hturns, hfresh, htasks⟩ := of_decide_eq_true hs
  have hstart : ∀ i ∈ [0, 2], StartsFrom .proxy s i "d1.example.com".toList := by
    intro i hi
    obtain ⟨htag, hhost⟩ := htasks i hi
    obtain ⟨⟨tag, prog⟩, htask, rfl⟩ := Option.map_eq_some_iff.mp htag
    obtain ⟨request, hdial, hrequest⟩ := Option.map_eq_some_iff.mp hhost
    exact ⟨_, _, prog, request, htask, hdial, by rw [hrequest]; decide⟩
  have hzero := hstart 0 (by simp)
  have htwo := hstart 2 (by simp)
  exact ⟨s, hrun, hturns, hfresh, hzero, htwo, fun h =>
    h.distinct 0 1 0 2 (by decide) (by decide) (by rw [hfresh]; rfl) (by rw [hfresh]; rfl) _
      hzero htwo⟩

end TgWsProxy
