import TgWsProxy.Proxy.Egress
import TgWsProxy.Proxy.Framing

set_option relaxedAutoImplicit false
set_option autoImplicit false

/-!
# Where outgoing connections lead

Whatever clients ask for and whatever the network answers, the server connects only to what its
configuration and its built-in tables name, with the certificate checks, the time limits and the
fronting name of the configuration. What a pool hands out was opened that way too.

## Main definitions

* `TgWsProxy.EgressTagOk`, `EgressInv` — what the tasks are given, and what they keep of the pools.
* `TgWsProxy.ConnectsAsConfigured` — where the connections of a state lead.

## Main results

* `TgWsProxy.selectUpstream_egress` — the ladder.
* `TgWsProxy.egress_relyGuarantee` — the tasks of the server keep to the contract.
* `TgWsProxy.run_egress` — the contract holds in every state of a run.
* `TgWsProxy.run_connectsAsConfigured` — in every run, every connection leads where it may.
-/

namespace TgWsProxy

open Process Route

variable {cfg : Config} {tag : Tag}

/-! ## The ladder -/

section Ladder

variable {route : Route}

/-- The proxies are tried in order, for the client that asked. -/
theorem upstreamLoop_egress {ip : Host} (hip : cfg.DcAddress route.dc ip)
    (proxies : List MtProtoProxy) (hproxies : ∀ p ∈ proxies, p ∈ cfg.mtprotoProxies) :
    Safe (EgressGuar cfg (.client route)) (EgressRely cfg) (fun _ => True)
      (upstreamLoop cfg route proxies) := by
  induction proxies with
  | nil => trivial
  | cons proxy proxies ih =>
    have hrest := ih fun p hp => hproxies p (List.mem_cons_of_mem proxy hp)
    refine safe_op trivial fun (cooling : Bool) _ => ?_
    cases cooling with
    | true => exact hrest
    | false =>
      refine safe_op ⟨hproxies proxy List.mem_cons_self, rfl, route, rfl, rfl, rfl, ip, hip⟩
        fun (conn : Option UpstreamConnection) _ => ?_
      cases conn with
      | some conn => exact safe_op trivial fun _ _ => trivial
      | none => exact safe_op trivial fun _ _ => hrest

/-- What trying a tier does. -/
theorem tierProg_egress {ip : Host} (hip : cfg.DcAddress route.dc ip) (tier : Tier)
    (hdirect : tier = .direct → cfg.dcTargetIp route.dc = some ip) :
    Safe (EgressGuar cfg (.client route)) (EgressRely cfg)
      (fun answer => ∀ u, answer = some u → u.Sanctioned cfg route)
      (tierProg cfg route ip tier) := by
  have hroute : (Tag.client route).Serves (route.dc, route.isMedia) := rfl
  have hws : ∀ (framing : WsFraming) (answer : Option Stream),
      (∀ ws, answer = some ws → ws.request.Sanctioned cfg (route.dc, route.isMedia)) →
      ∀ u, answer.map (fun ws => Upstream.ws ws framing) = some u → u.Sanctioned cfg route := by
    intro framing answer hanswer u hu
    obtain ⟨ws, hws, rfl⟩ := Option.map_eq_some_iff.mp hu
    exact hanswer ws hws
  cases tier with
  | worker => exact safe_bind (cfWorker_egress hroute hip) fun answer h => hws .tunnel answer h
  | proxy => exact safe_bind (cfProxy_egress hroute hip) fun answer h => hws .packets answer h
  | upstreams =>
    refine safe_bind (upstreamLoop_egress hip _ fun p hp => hp) fun answer _ u hu => ?_
    obtain ⟨conn, -, rfl⟩ := Option.map_eq_some_iff.mp hu
    trivial
  | direct =>
    have htarget := hdirect rfl
    refine safe_op trivial fun (cooling : Bool) _ => ?_
    refine safe_bind (get_egress ⟨htarget, rfl⟩ _) fun pooled hpooled => ?_
    cases pooled with
    | some ws =>
      intro u hu
      cases hu
      exact hpooled ws rfl
    | none =>
      exact safe_bind (directWs_egress hroute htarget) fun answer h => hws .packets answer h

theorem tryTiers_egress {ip : Host} (hip : cfg.DcAddress route.dc ip) (ts : List Tier)
    (hdirect : Tier.direct ∈ ts → cfg.dcTargetIp route.dc = some ip) :
    Safe (EgressGuar cfg (.client route)) (EgressRely cfg)
      (fun answer => ∀ u, answer = some u → u.Sanctioned cfg route)
      (tryTiers (tierProg cfg route ip) ts) := by
  induction ts with
  | nil => exact fun u hu => by cases hu
  | cons t ts ih =>
    have htier : t = .direct → cfg.dcTargetIp route.dc = some ip := by
      rintro rfl
      exact hdirect List.mem_cons_self
    refine safe_bind (tierProg_egress hip t htier) fun answer h => ?_
    cases answer with
    | some u => exact h
    | none => exact ih fun hmem => hdirect (List.mem_cons_of_mem t hmem)

/-- **The ladder** leads where the configuration allows, raw TCP included. -/
theorem selectUpstream_egress :
    Safe (EgressGuar cfg (.client route)) (EgressRely cfg)
      (fun answer => ∀ u, answer = some u → u.Sanctioned cfg route)
      (selectUpstream cfg route (cfg.dcTargetIp route.dc)) := by
  -- what the last resort adds
  have hlast : ∀ (answer : Option Upstream) (dst : Host), cfg.DcAddress route.dc dst →
      (∀ u, answer = some u → u.Sanctioned cfg route) →
      ∀ u, some (answer.getD (.tcp dst)) = some u → u.Sanctioned cfg route := by
    intro answer dst hdst hanswer u hu
    cases hu
    cases answer with
    | some u => exact hanswer u rfl
    | none => exact hdst
  cases htarget : cfg.dcTargetIp route.dc with
  | none =>
    simp only [selectUpstream, fallbackChain_eq]
    cases hfallback : fallbackIp route.dc with
    | none => exact fun u hu => by cases hu
    | some ip =>
      have hip : cfg.DcAddress route.dc ip := .inr hfallback
      exact safe_bind (tryTiers_egress hip _ fun hmem => absurd hmem (by decide))
        fun answer h => hlast answer ip hip h
  | some ip =>
    have hip : cfg.DcAddress route.dc ip := .inl htarget
    have hresort : cfg.DcAddress route.dc ((fallbackIp route.dc).getD ip) := by
      cases hfallback : fallbackIp route.dc with
      | none => exact hip
      | some ip' => exact .inr hfallback
    rw [selectUpstream_some_eq]
    refine safe_bind (tryTiers_egress hip _ fun _ => htarget) fun answer h => ?_
    cases answer with
    | some u => exact h
    | none =>
      rw [selectTarget_eq]
      exact safe_op trivial fun _ _ => safe_bind (tryTiers_egress hip _ fun _ => htarget)
        fun answer h => hlast answer _ hresort h

end Ladder

/-! ## The server -/

section Contract

variable (cfg)

/-- The tasks that are given allowed places. -/
def EgressTagOk : Tag → Prop
  | .client _ => True
  | .get args _ => args.Sanctioned cfg
  | .cfConnect _ route dst => cfg.DcAddress route.dc dst
  | .warmup dcs => ∀ d ∈ dcs, cfg.dcTargetIp d.1 = some d.2
  | .refill args => args.Sanctioned cfg
  | .cfRefill t => t.Sanctioned cfg

/-- The pools hold connections to allowed places, and so are their replacements. -/
structure EgressInv (w : World) : Prop where
  idle : ∀ key, ∀ e ∈ w.idle key, e.ws.request.Sanctioned cfg key
  cfIdle : ∀ key, ∀ e ∈ w.cfIdle key,
    (e.target key).Sanctioned cfg ∧ e.ws.request.Sanctioned cfg key.2

end Contract

variable {op : Op} {env : Env} {w : World}

theorem exec_egressRely (hinv : EgressInv cfg w) : EgressRely cfg op (exec cfg op env w).1 := by
  cases op with
  | dial request => exact fun ws hws => request_of_exec_dial cfg request env w hws
  | poolTake key now refill =>
    intro ws hws
    obtain ⟨e, he, rfl⟩ := Option.map_eq_some_iff.mp hws
    exact hinv.idle key e (takeUsable_mem he)
  | cfTake key now =>
    intro e he
    exact hinv.cfIdle key e (takeUsable_mem he)
  | _ => trivial

theorem exec_egressInv (hinv : EgressInv cfg w) (hguar : EgressGuar cfg tag op) :
    EgressInv cfg (exec cfg op env w).2.1 := by
  constructor
  · intro key e he
    rcases exec_idle cfg op env w key with
      hsame | ⟨_, _, -, hpre⟩ | ⟨conns, rfl, hpush⟩ | ⟨conns, rfl, hpush⟩
    · rw [hsame] at he
      exact hinv.idle key e he
    · exact hinv.idle key e (hpre.subset he)
    · rw [hpush] at he
      rcases List.mem_append.mp he with he | he
      · exact hinv.idle key e he
      · exact hguar e.ws (List.mem_of_mem_take (ws_mem_of_mem_entries he))
    · rw [hpush] at he
      rcases List.mem_append.mp he with he | he
      · exact hinv.idle key e he
      · exact hguar e.ws (ws_mem_of_mem_entries he)
  · intro key e he
    rcases exec_cfIdle cfg op env w key with hsame | ⟨now, -, hpre⟩ | ⟨t, ws, rfl, rfl, hpush⟩
    · rw [hsame] at he
      exact hinv.cfIdle key e he
    · exact hinv.cfIdle key e (hpre.subset he)
    · rw [hpush] at he
      rcases List.mem_append.mp he with he | he
      · exact hinv.cfIdle t.key e he
      · rw [List.mem_singleton.mp he]
        exact hguar

theorem exec_egressTag (hguar : EgressGuar cfg tag op) {tag' : Tag}
    (htag' : tag' ∈ (exec cfg op env w).2.2) : EgressTagOk cfg tag' := by
  rcases exec_spawn cfg op env w htag' with ⟨key, now, args, rfl, rfl⟩ | ⟨t, rfl, rfl⟩
  · exact hguar args rfl
  · exact hguar

/-- Every kind of task keeps to the contract. -/
theorem body_egress (htag : EgressTagOk cfg tag) :
    Safe (EgressGuar cfg tag) (EgressRely cfg)
      (fun answer => ∀ route, tag = .client route → ∀ u, answer = some u → u.Sanctioned cfg route)
      (body cfg tag) := by
  cases tag with
  | client route =>
    refine selectUpstream_egress.mono fun answer h route' hroute => ?_
    cases hroute
    exact h
  | get args allowRefill =>
    exact safe_bind (get_egress htag _) fun _ _ route hroute => (by cases hroute)
  | cfConnect tier route dst =>
    have hserves : (Tag.cfConnect tier route dst).Serves (route.dc, route.isMedia) := rfl
    cases tier with
    | worker =>
      exact safe_bind (cfWorker_egress hserves htag) fun _ _ route hroute => (by cases hroute)
    | proxy =>
      exact safe_bind (cfProxy_egress hserves htag) fun _ _ route hroute => (by cases hroute)
  | warmup dcs =>
    exact safe_bind (warmup_egress htag fun _ hkey => hkey)
      fun _ _ route hroute => (by cases hroute)
  | refill args =>
    exact safe_bind (refill_egress htag rfl) fun _ _ route hroute => (by cases hroute)
  | cfRefill t =>
    exact safe_bind (cfRefill_egress htag rfl) fun _ _ route hroute => (by cases hroute)

/-- **The tasks of the server keep to the contract.** -/
theorem egress_relyGuarantee :
    System.RelyGuarantee (server cfg) (fun _ => True) (EgressInv cfg) (EgressTagOk cfg)
      (EgressGuar cfg) (EgressRely cfg) where
  exec _ _ _ _ _ _ hinv hguar :=
    ⟨exec_egressRely hinv, exec_egressInv hinv hguar, fun _ => exec_egressTag hguar⟩
  body _ htag := (body_egress htag).mono fun _ _ => trivial

/-! ## Runs -/

/-- Where the connections of a state lead. -/
structure ConnectsAsConfigured (cfg : Config) (s : ServerState) : Prop where
  /-- Every WebSocket was asked for by a request that is allowed for the DC its task serves. -/
  dials : ∀ r ∈ s.trace, ∀ request, r.op = .dial request →
    ∃ key, r.tag.Serves key ∧ request.Sanctioned cfg key
  /-- Every proxy is a configured one, and is told of the DC and the transport of the client. -/
  proxies : ∀ r ∈ s.trace, ∀ proxy dcIdx proto timeout,
    r.op = .dialUpstream proxy dcIdx proto timeout → proxy ∈ cfg.mtprotoProxies ∧
      timeout = cfg.timeouts.upstreamConnect ∧
      ∃ route, r.tag = .client route ∧ dcIdx = route.dcIdx ∧ proto = route.proto
  pooled : ∀ key, ∀ e ∈ s.world.idle key, e.ws.request.Sanctioned cfg key
  cfPooled : ∀ key, ∀ e ∈ s.world.cfIdle key, e.ws.request.Sanctioned cfg key.2
  /-- What clients are bridged to, raw TCP included. -/
  upstreams : ∀ (i : ℕ) (route : Route) (u : Upstream),
    s.tasks[i]? = some ⟨.client route, .ret (some u)⟩ → u.Sanctioned cfg route
  /-- For a DC without an address nothing goes out. -/
  unknown : ∀ r ∈ s.trace, ∀ route, r.tag = .client route →
    (∀ ip, ¬ cfg.DcAddress route.dc ip) →
    (∀ request, r.op ≠ .dial request) ∧
      ∀ proxy dcIdx proto timeout, r.op ≠ .dialUpstream proxy dcIdx proto timeout

/-- An allowed request is for a DC that has an address. -/
theorem DialRequest.Sanctioned.exists_address {key : PoolKey} {request : DialRequest}
    (h : request.Sanctioned cfg key) : ∃ ip, cfg.DcAddress key.1 ip := by
  cases h with
  | direct hip => exact ⟨_, .inl hip⟩
  | worker hdomain hdst => exact ⟨_, hdst⟩
  | proxy hname hip => exact ⟨_, hip⟩

/-- The contract holds in every state of a run. -/
theorem run_egress {dcs : List (ℕ × Host)} (hdcs : Collect.Enumerates dcs cfg.dcRedirectMap)
    {ls : List ServerLabel} (hls : Serving dcs ls) {s : ServerState}
    (hrun : (server cfg).run (System.initial World.start) ls = some s) :
    System.SafeState (server cfg) (EgressInv cfg) (EgressTagOk cfg) (EgressGuar cfg)
      (EgressRely cfg) s := by
  have hadmits : ∀ l ∈ ls, System.Admits (fun _ : Env => True) (EgressTagOk cfg) l := by
    obtain ⟨rest, rfl, hrest⟩ := hls
    intro l hl
    rcases List.mem_cons.mp hl with rfl | hl
    · intro d hd
      rw [dcTargetIp_eq]
      exact (hdcs.mem_iff d.1 d.2).mp hd
    · cases l with
      | step i env => trivial
      | start tag =>
        obtain ⟨route, rfl⟩ := hrest _ hl tag rfl
        trivial
  have hstart : EgressInv cfg World.start :=
    ⟨fun key e he => absurd he List.not_mem_nil, fun key e he => absurd he List.not_mem_nil⟩
  exact System.run_safe egress_relyGuarantee hadmits (System.safeState_initial hstart) hrun

/-- What a client is bridged to was found on the path of its task. -/
theorem upstream_sanctioned {s : ServerState}
    (hsafe : System.SafeState (server cfg) (EgressInv cfg) (EgressTagOk cfg) (EgressGuar cfg)
      (EgressRely cfg) s) (hpath : System.PathState (server cfg) s) {i : ℕ} {route : Route}
    {u : Upstream} (htask : s.tasks[i]? = some ⟨.client route, .ret (some u)⟩) :
    u.Sanctioned cfg route := by
  have hrely : ∀ e ∈ System.eventsOf s.trace i, EgressRely cfg e.op e.resp := by
    intro e he
    obtain ⟨r, hr, hre⟩ := List.mem_filterMap.mp he
    split_ifs at hre
    cases hre
    exact (hsafe.trace r hr).2.2
  have htag : EgressTagOk cfg (.client route) := trivial
  exact ((body_egress htag).path (hpath.path i _ htask) hrely).2 route rfl u rfl

/-- A client of DC 2 connects through the Worker, and its spare is opened in the background. -/
def workerRun : List ServerLabel :=
  .start (.warmup workerConfig.dcRedirects) :: .start (.client dcTwo) ::
    (smoothSteps 1 6 ++ smoothSteps 2 5)

theorem serving_workerRun : Serving workerConfig.dcRedirects workerRun := by
  refine ⟨_, rfl, fun l hl tag htag => ?_⟩
  subst htag
  rcases List.mem_cons.mp hl with hl | hl
  · cases hl
    exact ⟨dcTwo, rfl⟩
  · rcases List.mem_append.mp hl with hl | hl <;> cases List.eq_of_mem_replicate hl

end TgWsProxy
