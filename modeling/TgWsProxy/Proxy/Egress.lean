import TgWsProxy.AcceptLoop
import TgWsProxy.Proxy.Ladder
import TgWsProxy.WsClient.ConfiguredRecords

set_option relaxedAutoImplicit false
set_option autoImplicit false

/-!
# What the server connects to

A client chooses a DC, a media flag and a transport; everything else about an outgoing connection
comes from the configuration and the built-in tables. This module says which requests the functions
of routing and pooling can make, whatever the network answers.

## Main definitions

* `TgWsProxy.DialRequest.Sanctioned` — the requests that the configuration allows for a DC.
* `TgWsProxy.CfTarget.Sanctioned`, `Upstream.Sanctioned` — spares and upstreams that lead there.
* `TgWsProxy.EgressGuar`, `EgressRely` — what tasks guarantee and rely on.

## Main results

* `TgWsProxy.cfWorker_egress`, `cfProxy_egress`, `directWs_egress`, `upstreamLoop_egress` — the
  tiers.
* `TgWsProxy.selectUpstream_egress`, `refill_egress`, `warmup_egress`, `cfRefill_egress` — the tasks.
-/

namespace TgWsProxy

open Process Route

/-! ## What the configuration allows -/

/-- An address of a DC: the one given for it, or the built-in one. -/
def Config.DcAddress (cfg : Config) (dc : ℕ) (ip : Host) : Prop :=
  cfg.dcTargetIp dc = some ip ∨ fallbackIp dc = some ip

/-- The names through which the Cloudflare zones lead to a DC: its records, the base records that
missing ones fall back to and, with `--cf-balance`, the zones themselves. -/
inductive Config.CfName (cfg : Config) (dc : ℕ) : Host → Prop
  | record (isMedia : Bool) {name : Host} : name ∈ cfWsDomains dc cfg.cfDomains isMedia →
      CfName cfg dc name
  | base {name base : Host} : CfName cfg dc name → baseCfRecord name = some base →
      CfName cfg dc base
  | zone {name : Host} : cfg.cfBalance = true → name ∈ cfg.cfDomains → CfName cfg dc name

/-- The time limits of a direct connect: inline, probing, and for the pool. -/
def Config.directTimeouts (cfg : Config) : List ℕ :=
  [cfg.timeouts.wsConnect, cfg.timeouts.wsFailProbe, WsPool.batchTimeout]

/-- The requests that the configuration allows for the bucket of a DC. -/
inductive DialRequest.Sanctioned (cfg : Config) (key : PoolKey) : DialRequest → Prop
  | direct {ip domain : Host} {timeout : ℕ} {sniOverride : Option Host} :
      cfg.dcTargetIp key.1 = some ip → domain ∈ wsDomains key.1 key.2 →
      timeout ∈ cfg.directTimeouts → (∀ name ∈ sniOverride, cfg.frontingDomain = some name) →
      Sanctioned cfg key (apiwsRequest ip domain cfg.skipTlsVerify timeout sniOverride)
  | worker {domain dst : Host} : domain ∈ cfg.cfWorkerDomains → cfg.DcAddress key.1 dst →
      Sanctioned cfg key
        (workerRequest domain dst key.1 key.2 cfg.skipTlsVerify cfg.timeouts.cfConnect)
  | proxy {name ip : Host} : cfg.CfName key.1 name → cfg.DcAddress key.1 ip →
      Sanctioned cfg key
        (apiwsRequest name name cfg.skipTlsVerify cfg.timeouts.cfConnect none)

/-- A spare that leads where the configuration allows. -/
structure CfTarget.Sanctioned (cfg : Config) (t : CfTarget) : Prop where
  skipTlsVerify : t.skipTlsVerify = cfg.skipTlsVerify
  connectTimeout : t.connectTimeout = cfg.timeouts.cfConnect
  worker : t.tier = .worker → t.domain ∈ cfg.cfWorkerDomains ∧ cfg.DcAddress t.dc t.dst
  proxy : t.tier = .proxy → cfg.CfName t.dc t.domain ∧ ∃ ip, cfg.DcAddress t.dc ip

/-- The spare that a pool entry is replaced by. -/
def CfEntry.target (key : CfKey) (e : CfEntry) : CfTarget :=
  ⟨key.1, key.2.1, key.2.2, e.dst, e.domain, e.skipTlsVerify, e.connectTimeout⟩

/-- A refill that leads to the target of its DC. -/
structure RefillArgs.Sanctioned (cfg : Config) (args : RefillArgs) : Prop where
  target : cfg.dcTargetIp args.dc = some args.targetIp
  skipTls : args.skipTls = cfg.skipTlsVerify

/-- An upstream that leads where the configuration allows. -/
def Upstream.Sanctioned (cfg : Config) (route : Route) : Upstream → Prop
  | .ws stream _ => stream.request.Sanctioned cfg (route.dc, route.isMedia)
  | .mtproto _ => True
  | .tcp dst => cfg.DcAddress route.dc dst

/-! ## What tasks keep to -/

/-- The buckets that a task connects for. -/
def Tag.Serves : Tag → PoolKey → Prop
  | .client route, key => key = (route.dc, route.isMedia)
  | .get .., _ => False
  | .cfConnect _ route _, key => key = (route.dc, route.isMedia)
  | .warmup dcs, key => key ∈ warmupKeys dcs
  | .refill args, key => key = args.key
  | .cfRefill t, key => key = (t.dc, t.isMedia)

/-- What a task guarantees: it makes the requests that are allowed for its buckets, goes to
configured proxies only, for a client of a DC that has an address, and asks for and stores what
leads to allowed places. -/
def EgressGuar (cfg : Config) (tag : Tag) : Op → Prop
  | .dial request => ∃ key, tag.Serves key ∧ request.Sanctioned cfg key
  | .dialUpstream proxy dcIdx proto timeout => proxy ∈ cfg.mtprotoProxies ∧
      timeout = cfg.timeouts.upstreamConnect ∧
      ∃ route, tag = .client route ∧ dcIdx = route.dcIdx ∧ proto = route.proto ∧
        ∃ ip, cfg.DcAddress route.dc ip
  | .poolTake _ _ refill => ∀ args ∈ refill, args.Sanctioned cfg
  | .refillPush key conns => ∀ ws ∈ conns, ws.request.Sanctioned cfg key
  | .warmupPush key conns => ∀ ws ∈ conns, ws.request.Sanctioned cfg key
  | .cfPrefetch t => t.Sanctioned cfg
  | .cfPush t ws => t.Sanctioned cfg ∧ ws.request.Sanctioned cfg (t.dc, t.isMedia)
  | _ => True

/-- What tasks rely on: a stream remembers its request, and the pools hold what was stored. -/
def EgressRely (cfg : Config) : (op : Op) → op.Resp → Prop
  | .dial request, outcome => ∀ ws, outcome.stream = some ws → ws.request = request
  | .poolTake key _ _, taken => ∀ ws, taken = some ws → ws.request.Sanctioned cfg key
  | .cfTake key _, taken => ∀ e, taken = some e →
      (e.target key).Sanctioned cfg ∧ e.ws.request.Sanctioned cfg key.2
  | _, _ => True

variable {cfg : Config} {tag : Tag}

/-- A request that is allowed for a bucket that the task serves. -/
theorem egressGuar_dial {key : PoolKey} (hkey : tag.Serves key) {request : DialRequest}
    (h : request.Sanctioned cfg key) : EgressGuar cfg tag (.dial request) := ⟨key, hkey, h⟩

/-! ## The Cloudflare tiers -/

section Cf

/-- A rotation has the domains it rotates. -/
theorem mem_of_mem_rotation {domains : List Host} {idx : ℕ} {d : Host}
    (h : d ∈ rotation domains idx) : d ∈ domains := by
  obtain ⟨i, hi, rfl⟩ := List.mem_map.mp h
  have hlen : 0 < domains.length := by
    have := List.mem_range.mp hi
    omega
  have hlt := Nat.mod_lt (idx + i) hlen
  rw [List.getD_eq_getElem _ _ hlt]
  exact List.getElem_mem hlt

theorem balanced_egress (domains : List Host) (tier : CfTier) :
    Safe (EgressGuar cfg tag) (EgressRely cfg) (fun order => ∀ d ∈ order, d ∈ domains)
      (balanced domains tier) := by
  rw [balanced]
  split_ifs
  · exact fun d hd => hd
  · exact safe_op trivial fun (count : ℕ) _ d hd => mem_of_mem_rotation hd

theorem balanceOrder_egress (domains : List Host) (enabled : Bool) (tier : CfTier) :
    Safe (EgressGuar cfg tag) (EgressRely cfg) (fun order => ∀ d ∈ order, d ∈ domains)
      (balanceOrder domains enabled tier) := by
  rw [balanceOrder]
  split_ifs
  · exact balanced_egress domains tier
  · exact fun d hd => hd

/-- A spare goes through the domain that answered or, with balancing, through another of the
tier. -/
theorem cfTarget_egress (route : Route) (tier : CfTier) (dst domain : Host) (domains : List Host) :
    Safe (EgressGuar cfg tag) (EgressRely cfg)
      (fun t => ∃ d, t = ⟨tier, route.dc, route.isMedia, dst, d, cfg.skipTlsVerify,
          cfg.timeouts.cfConnect⟩ ∧ (d = domain ∨ cfg.cfBalance = true ∧ d ∈ domains))
      (cfTarget cfg route tier dst domain domains) := by
  rw [cfTarget]
  cases hbal : cfg.cfBalance with
  | false => exact ⟨domain, rfl, .inl rfl⟩
  | true =>
    refine safe_bind (balanced_egress domains tier) fun rotated hrotated => ⟨_, rfl, ?_⟩
    cases rotated with
    | nil => exact .inl rfl
    | cons d rotated => exact .inr ⟨rfl, hrotated d List.mem_cons_self⟩

/-- A hit of the Cloudflare pool. -/
theorem cfGet_egress (tier : CfTier) (route : Route) :
    Safe (EgressGuar cfg tag) (EgressRely cfg)
      (fun hit => ∀ ws domain, hit = some (ws, domain) →
        ws.request.Sanctioned cfg (route.dc, route.isMedia))
      (WsPool.cfGet tier route.dc route.isMedia) := by
  refine safe_op trivial fun (now : ℕ) _ =>
    safe_op trivial fun (taken : Option CfEntry) hrely => ?_
  cases taken with
  | none => exact fun ws domain hhit => by cases hhit
  | some entry =>
    obtain ⟨htarget, hentry⟩ := hrely entry rfl
    refine safe_op htarget fun _ _ ws domain hhit => ?_
    cases hhit
    exact hentry

variable {route : Route} (hroute : tag.Serves (route.dc, route.isMedia))

include hroute

theorem cfWorkerLoop_egress {dst : Host} (hdst : cfg.DcAddress route.dc dst)
    (workers : List Host) (hworkers : ∀ d ∈ workers, d ∈ cfg.cfWorkerDomains) :
    Safe (EgressGuar cfg tag) (EgressRely cfg)
      (fun answer => ∀ ws, answer = some ws →
        ws.request.Sanctioned cfg (route.dc, route.isMedia))
      (cfWorkerLoop cfg route dst workers) := by
  induction workers with
  | nil => exact fun ws hws => by cases hws
  | cons worker workers ih =>
    have hrest := ih fun d hd => hworkers d (List.mem_cons_of_mem worker hd)
    have hworker := hworkers worker List.mem_cons_self
    have hrequest : (workerRequest worker dst route.dc route.isMedia cfg.skipTlsVerify
        cfg.timeouts.cfConnect).Sanctioned cfg (route.dc, route.isMedia) := .worker hworker hdst
    refine safe_op trivial fun (cooling : Bool) _ => ?_
    cases cooling with
    | true => exact hrest
    | false =>
      refine safe_op (egressGuar_dial hroute hrequest) fun (outcome : WsConnectResult) hrely => ?_
      cases outcome with
      | connected ws =>
        refine safe_op trivial fun _ _ =>
          safe_bind (cfTarget_egress route .worker dst worker cfg.cfWorkerDomains) ?_
        rintro t ⟨d, rfl, hd⟩
        refine safe_op (f := fun _ => .ret (some ws)) ⟨rfl, rfl, fun _ => ⟨?_, hdst⟩,
          fun htier => (by cases htier)⟩ fun _ _ ws' hws' => ?_
        · rcases hd with rfl | ⟨-, hd⟩
          · exact hworker
          · exact hd
        · cases hws'
          rw [hrely ws rfl]
          exact hrequest
      | redirect code => exact safe_op trivial fun _ _ => hrest
      | failed reason => exact safe_op trivial fun _ _ => hrest
      | connectTimedOut reason => exact safe_op trivial fun _ _ => hrest
      | timedOut => exact safe_op trivial fun _ _ => hrest

/-- **The Worker tier** goes to configured Workers and tunnels to addresses of the DC. -/
theorem cfWorker_egress {dst : Host} (hdst : cfg.DcAddress route.dc dst) :
    Safe (EgressGuar cfg tag) (EgressRely cfg)
      (fun answer => ∀ ws, answer = some ws →
        ws.request.Sanctioned cfg (route.dc, route.isMedia)) (cfWorker cfg route dst) := by
  rw [cfWorker]
  split_ifs
  · exact fun ws hws => by cases hws
  have hbuiltin : cfg.DcAddress route.dc ((fallbackIp route.dc).getD dst) := by
    cases hfallback : fallbackIp route.dc with
    | none => exact hdst
    | some ip => exact .inr hfallback
  refine safe_bind (cfGet_egress .worker route) fun hit hhit => ?_
  cases hit with
  | some hit =>
    intro ws hws
    cases hws
    exact hhit hit.1 hit.2 rfl
  | none =>
    exact safe_bind (balanceOrder_egress cfg.cfWorkerDomains cfg.cfBalance .worker)
      fun workers hworkers => cfWorkerLoop_egress hroute hbuiltin workers hworkers

/-- Walking the records of some of the zones. -/
theorem connectCfWsForDc_egress {ip : Host} (hip : cfg.DcAddress route.dc ip)
    {domains : List Host} (hdomains : ∀ d ∈ domains, d ∈ cfg.cfDomains) :
    Safe (EgressGuar cfg tag) (EgressRely cfg)
      (fun out => (∀ d, out.2.1 = some d → cfg.CfName route.dc d) ∧
        ∀ ws, out.1 = some ws → ws.request.Sanctioned cfg (route.dc, route.isMedia))
      (connectCfWsForDc route.dc domains route.isMedia cfg.skipTlsVerify
        cfg.timeouts.cfConnect) := by
  have hname : ∀ d ∈ cfWsDomains route.dc domains route.isMedia, cfg.CfName route.dc d := by
    intro d hd
    obtain ⟨zone, hzone, hd⟩ := mem_cfWsDomains.mp hd
    exact .record route.isMedia (mem_cfWsDomains.mpr ⟨zone, hdomains zone hzone, hd⟩)
  -- the record that answers is one that was dialled, and the stream remembers it
  have hloop : ∀ (n : ℕ) (attempts : CfAttempts) (allRedirects : Bool), attempts.weight ≤ n →
      attempts.Within (cfg.CfName route.dc) →
      Safe (EgressGuar cfg tag) (EgressRely cfg)
        (fun out => (∀ d, out.2.1 = some d → cfg.CfName route.dc d) ∧
          ∀ ws, out.1 = some ws → ws.request.Sanctioned cfg (route.dc, route.isMedia))
        (connectCfLoop cfg.skipTlsVerify cfg.timeouts.cfConnect attempts allRedirects) := by
    intro n
    induction n with
    | zero =>
      intro attempts allRedirects hw hin
      cases hnext : attempts.nextDomain with
      | none =>
        rw [connectCfLoop_none hnext]
        simp
      | some x =>
        have := CfAttempts.weight_nextDomain hnext
        omega
    | succ n ih =>
      intro attempts allRedirects hw hin
      cases hnext : attempts.nextDomain with
      | none =>
        rw [connectCfLoop_none hnext]
        simp
      | some x =>
        obtain ⟨domain, next⟩ := x
        obtain ⟨hdomain, hrest⟩ := hin.nextDomain hnext
        have hrequest : (apiwsRequest domain domain cfg.skipTlsVerify cfg.timeouts.cfConnect
            none).Sanctioned cfg (route.dc, route.isMedia) := .proxy hdomain hip
        rw [connectCfLoop_some hnext]
        refine ⟨egressGuar_dial hroute hrequest, fun outcome hrely => ?_⟩
        have hgo := ih (afterFailure next allRedirects domain outcome).1
          (afterFailure next allRedirects domain outcome).2
          (by have := weight_afterFailure hnext allRedirects outcome; omega)
          (hrest.afterFailure (fun _ h _ hbase => .base h hbase) hdomain allRedirects outcome)
        cases outcome with
        | connected ws =>
          refine ⟨fun d hd => ?_, fun ws' hws' => ?_⟩
          · cases hd
            exact hdomain
          · cases hws'
            rw [hrely ws rfl]
            exact hrequest
        | redirect code => exact hgo
        | failed reason => exact hgo
        | connectTimedOut reason => exact hgo
        | timedOut => exact hgo
  refine hloop _ _ _ le_rfl fun a ha => ?_
  obtain ⟨d, hd, rfl⟩ := List.mem_map.mp ha
  exact hname d hd

/-- **The proxy tier** goes to names under the configured zones. -/
theorem cfProxy_egress {ip : Host} (hip : cfg.DcAddress route.dc ip) :
    Safe (EgressGuar cfg tag) (EgressRely cfg)
      (fun answer => ∀ ws, answer = some ws →
        ws.request.Sanctioned cfg (route.dc, route.isMedia)) (cfProxy cfg route) := by
  rw [cfProxy]
  split_ifs
  · exact fun ws hws => by cases hws
  refine safe_bind (balanceOrder_egress cfg.cfDomains cfg.cfBalance .proxy)
    fun domains hdomains => safe_bind (cfGet_egress .proxy route) fun hit hhit => ?_
  cases hit with
  | some hit =>
    intro ws hws
    cases hws
    exact hhit hit.1 hit.2 rfl
  | none =>
    refine safe_bind (connectCfWsForDc_egress hroute hip hdomains) fun out hout => ?_
    obtain ⟨ws, domain, redirects⟩ := out
    obtain ⟨hname, hws⟩ := hout
    cases ws with
    | none => exact fun ws hws => by cases hws
    | some ws =>
      cases domain with
      | none => exact hws
      | some domain =>
        refine safe_bind (cfTarget_egress route .proxy [] domain cfg.cfDomains) ?_
        rintro t ⟨d, rfl, hd⟩
        refine safe_op (f := fun _ => .ret (some ws)) ⟨rfl, rfl, fun htier => (by cases htier),
          fun _ => ⟨?_, ip, hip⟩⟩ fun _ _ => hws
        rcases hd with rfl | ⟨hbal, hd⟩
        · exact hname d rfl
        · exact .zone hbal hd

end Cf

/-! ## The direct tier -/

/-- The override is applied once. -/
theorem websocketDc_idem (dc : ℕ) : websocketDc (websocketDc dc) = websocketDc dc := by
  by_cases hdc : dc = 203
  · subst hdc
    rfl
  · have hsame : websocketDc dc = dc := by
      have hne : ¬ 203 = dc := fun h => hdc h.symm
      simp [websocketDc, dcOverrides, hne]
    rw [hsame, hsame]

theorem wsDomains_websocketDc (dc : ℕ) (isMedia : Bool) :
    wsDomains (websocketDc dc) isMedia = wsDomains dc isMedia := by
  unfold wsDomains
  rw [websocketDc_idem]

section Direct

variable {key : PoolKey} (hkey : tag.Serves key) {ip : Host}
  (hip : cfg.dcTargetIp key.1 = some ip)

include hkey hip

theorem connectWsLoop_egress {timeout : ℕ} (htimeout : timeout ∈ cfg.directTimeouts)
    {sniOverride : Option Host} (hsni : ∀ name ∈ sniOverride, cfg.frontingDomain = some name)
    (domains : List Host) (hdomains : ∀ d ∈ domains, d ∈ wsDomains key.1 key.2) :
    ∀ flags : WsAttempt, flags.ws = none →
      Safe (EgressGuar cfg tag) (EgressRely cfg)
        (fun attempt => ∀ ws, attempt.ws = some ws → ws.request.Sanctioned cfg key)
        (connectWsLoop ip cfg.skipTlsVerify timeout sniOverride domains flags) := by
  induction domains with
  | nil =>
    intro flags hflags ws hws
    rw [hflags] at hws
    cases hws
  | cons domain domains ih =>
    intro flags hflags
    have hrest := ih fun d hd => hdomains d (List.mem_cons_of_mem domain hd)
    have hrequest : (apiwsRequest ip domain cfg.skipTlsVerify timeout sniOverride).Sanctioned cfg
        key := .direct hip (hdomains domain List.mem_cons_self) htimeout hsni
    refine safe_op (egressGuar_dial hkey hrequest) fun outcome hrely => ?_
    cases outcome with
    | connected ws =>
      intro ws' hws
      cases hws
      rw [hrely ws rfl]
      exact hrequest
    | redirect code => exact hrest _ hflags
    | failed reason => exact hrest _ hflags
    | connectTimedOut reason => exact hrest _ hflags
    | timedOut => exact hrest _ hflags

theorem connectWsForDc_egress {dc : ℕ} (hdc : wsDomains dc key.2 = wsDomains key.1 key.2)
    {timeout : ℕ} (htimeout : timeout ∈ cfg.directTimeouts) {sniOverride : Option Host}
    (hsni : ∀ name ∈ sniOverride, cfg.frontingDomain = some name) :
    Safe (EgressGuar cfg tag) (EgressRely cfg)
      (fun attempt => ∀ ws, attempt.ws = some ws → ws.request.Sanctioned cfg key)
      (connectWsForDc ip dc key.2 cfg.skipTlsVerify timeout sniOverride) := by
  refine connectWsLoop_egress hkey hip htimeout hsni _ (fun d hd => ?_) _ rfl
  rwa [← hdc]

/-- A batch goes to the target of its bucket, fronted or not. -/
theorem connectBatch_egress {args : RefillArgs} (hargs : args.key = key)
    (htarget : args.targetIp = ip) (hskip : args.skipTls = cfg.skipTlsVerify) (count : ℕ) :
    Safe (EgressGuar cfg tag) (EgressRely cfg)
      (fun conns => ∀ ws ∈ conns, ws.request.Sanctioned cfg key)
      (WsPool.connectBatch cfg args count) := by
  refine safe_op trivial fun (active : Bool) _ => ?_
  have hsni : ∀ name ∈ (if active then cfg.frontingDomain else none),
      cfg.frontingDomain = some name := by
    intro name hname
    cases active with
    | false => cases hname
    | true => exact hname
  have hconnect : Safe (EgressGuar cfg tag) (EgressRely cfg)
      (fun attempt : WsAttempt => ∀ ws, attempt.ws = some ws → ws.request.Sanctioned cfg key)
      (connectWsForDc args.targetIp args.dc args.isMedia args.skipTls WsPool.batchTimeout
        (if active then cfg.frontingDomain else none)) := by
    subst hargs
    rw [htarget, hskip]
    exact connectWsForDc_egress hkey hip rfl (by simp [Config.directTimeouts]) hsni
  have hloop : ∀ count results, (∀ ws ∈ results, ws.request.Sanctioned cfg key) →
      Safe (EgressGuar cfg tag) (EgressRely cfg)
        (fun conns => ∀ ws ∈ conns, ws.request.Sanctioned cfg key)
        (WsPool.batchLoop (connectWsForDc args.targetIp args.dc args.isMedia args.skipTls
          WsPool.batchTimeout (if active then cfg.frontingDomain else none)) count results) := by
    intro count
    induction count with
    | zero => exact fun _ hresults => hresults
    | succ count ih =>
      intro results hresults
      refine safe_bind hconnect fun attempt hattempt => ?_
      cases hws : attempt.ws with
      | none => exact hresults
      | some ws =>
        refine ih _ fun ws' hws' => ?_
        rcases List.mem_append.mp hws' with hws' | hws'
        · exact hresults ws' hws'
        · rw [List.mem_singleton.mp hws']
          exact hattempt ws hws
  exact hloop count [] (by simp)

end Direct

section Tier

variable {route : Route} (hroute : tag.Serves (route.dc, route.isMedia)) {ip : Host}
  (hip : cfg.dcTargetIp route.dc = some ip)

include hroute hip

theorem connectWs_egress {sniOverride : Option Host}
    (hsni : ∀ name ∈ sniOverride, cfg.frontingDomain = some name) :
    Safe (EgressGuar cfg tag) (EgressRely cfg)
      (fun attempt => ∀ ws, attempt.ws = some ws →
        ws.request.Sanctioned cfg (route.dc, route.isMedia))
      (Route.connectWs cfg route ip sniOverride) := by
  refine safe_op trivial fun (cooling : Bool) _ => ?_
  refine connectWsForDc_egress hroute hip (wsDomains_websocketDc _ _) ?_ hsni
  cases cooling <;> simp [Config.directTimeouts]

theorem reactiveFronting_egress (stalled : Bool) :
    Safe (EgressGuar cfg tag) (EgressRely cfg)
      (fun answer => ∀ ws, answer = some ws →
        ws.request.Sanctioned cfg (route.dc, route.isMedia))
      (reactiveFronting cfg route ip stalled) := by
  have hnone : ∀ ws, (none : Option Stream) = some ws →
      ws.request.Sanctioned cfg (route.dc, route.isMedia) := fun ws hws => by cases hws
  rw [reactiveFronting]
  split_ifs
  · exact hnone
  · refine safe_op trivial fun (cooling : Bool) _ => ?_
    cases cooling with
    | true => exact hnone
    | false =>
      cases hdomain : cfg.frontingDomain with
      | none => exact hnone
      | some domain =>
        refine safe_bind (connectWs_egress hroute hip fun name hname => ?_)
          fun attempt hattempt => ?_
        · rw [hdomain]
          exact congrArg some (Option.some.inj hname)
        · cases hws : attempt.ws with
          | some ws =>
            refine safe_op trivial fun _ _ => safe_op trivial fun _ _ ws' hws' => ?_
            cases hws'
            exact hattempt ws hws
          | none => exact safe_op trivial fun _ _ => hnone

/-- **A fresh WebSocket** goes to the target, under a name of the DC or fronted. -/
theorem directWs_egress :
    Safe (EgressGuar cfg tag) (EgressRely cfg)
      (fun answer => ∀ ws, answer = some ws →
        ws.request.Sanctioned cfg (route.dc, route.isMedia)) (directWs cfg route ip) := by
  have hfailed : ∀ attempt probing, Safe (EgressGuar cfg tag) (EgressRely cfg)
      (fun answer => ∀ ws, answer = some ws →
        ws.request.Sanctioned cfg (route.dc, route.isMedia))
      (directWsFailed cfg route ip attempt probing) := by
    intro attempt probing
    refine safe_op trivial fun _ _ => ?_
    split_ifs
    · exact safe_op trivial fun _ _ ws hws => by cases hws
    · exact fun ws hws => by cases hws
  refine safe_op trivial fun (active : Bool) _ => safe_op trivial fun (probing : Bool) _ => ?_
  have hsticky : ∀ name ∈ (if active then cfg.frontingDomain else none),
      cfg.frontingDomain = some name := by
    intro name hname
    cases active with
    | false => cases hname
    | true => exact hname
  refine safe_bind (connectWs_egress hroute hip hsticky) fun attempt hattempt => ?_
  have hopened : ∀ ws, attempt.ws = some ws → ∀ ws', some ws = some ws' →
      ws'.request.Sanctioned cfg (route.dc, route.isMedia) := by
    intro ws hws ws' hws'
    cases hws'
    exact hattempt ws hws
  cases (if active then cfg.frontingDomain else none) with
  | some domain =>
    cases hws : attempt.ws with
    | some ws => exact safe_op trivial fun _ _ => safe_op trivial fun _ _ => hopened ws hws
    | none => exact safe_op trivial fun _ _ => safe_op trivial fun _ _ => hfailed attempt probing
  | none =>
    cases hws : attempt.ws with
    | some ws => exact safe_op trivial fun _ _ => safe_op trivial fun _ _ => hopened ws hws
    | none =>
      refine safe_bind (reactiveFronting_egress hroute hip _) fun fronted hfronted => ?_
      cases fronted with
      | some ws => exact hfronted
      | none => exact hfailed attempt probing

end Tier

/-- A `get` returns what was stored, and asks for a refill from the target. -/
theorem get_egress {args : RefillArgs} (hargs : args.Sanctioned cfg) (allowRefill : Bool) :
    Safe (EgressGuar cfg tag) (EgressRely cfg)
      (fun answer => ∀ ws, answer = some ws → ws.request.Sanctioned cfg args.key)
      (WsPool.get args allowRefill) := by
  refine safe_op trivial fun (now : ℕ) _ => ⟨fun a ha => ?_, fun r hrely => hrely⟩
  cases allowRefill with
  | false => cases ha
  | true =>
    cases ha
    exact hargs

/-! ## Background tasks -/

/-- **A refill** goes to the target it was given. -/
theorem refill_egress {args : RefillArgs} (hargs : args.Sanctioned cfg)
    (hkey : tag.Serves args.key) :
    Safe (EgressGuar cfg tag) (EgressRely cfg) (fun _ => True) (WsPool.refill cfg args) := by
  refine safe_op trivial fun (registered : Bool) _ => ?_
  cases registered with
  | false => trivial
  | true =>
    refine safe_op trivial fun (current : ℕ) _ => ?_
    split_ifs
    · exact safe_op trivial fun _ _ => trivial
    · refine safe_bind (connectBatch_egress hkey hargs.target rfl rfl hargs.skipTls _)
        fun conns hconns => ?_
      rw [WsPool.refillFinish]
      split_ifs
      · exact safe_op hconns fun _ _ => safe_op trivial fun _ _ => trivial
      · exact safe_op trivial fun _ _ => trivial

/-- **A warm-up** goes to the targets of its DCs. -/
theorem warmup_egress {dcs : List (ℕ × Host)} (hdcs : ∀ d ∈ dcs, cfg.dcTargetIp d.1 = some d.2)
    (hkeys : ∀ key ∈ warmupKeys dcs, tag.Serves key) :
    Safe (EgressGuar cfg tag) (EgressRely cfg) (fun _ => True) (WsPool.warmup cfg dcs) := by
  induction dcs with
  | nil => trivial
  | cons d dcs ih =>
    have hbucket : ∀ isMedia, Safe (EgressGuar cfg tag) (EgressRely cfg) (fun _ => True)
        (WsPool.warmupBucket cfg ⟨d.1, isMedia, d.2, cfg.skipTlsVerify⟩) := by
      intro isMedia
      have hserves : tag.Serves (d.1, isMedia) := by
        apply hkeys
        cases isMedia <;> simp [warmupKeys]
      exact safe_bind (connectBatch_egress hserves (hdcs d List.mem_cons_self) rfl rfl rfl _)
        fun conns hconns => safe_op hconns fun _ _ => trivial
    refine safe_bind (hbucket false) fun _ _ => safe_bind (hbucket true) fun _ _ => ?_
    apply ih fun d' hd' => hdcs d' (List.mem_cons_of_mem d hd')
    intro key hkey
    apply hkeys
    obtain ⟨d', hd', hmem⟩ := List.mem_flatMap.mp hkey
    exact List.mem_flatMap.mpr ⟨d', List.mem_cons_of_mem d hd', hmem⟩

/-- **A Cloudflare refill** goes where its spare leads. -/
theorem cfRefill_egress {t : CfTarget} (ht : t.Sanctioned cfg)
    (hkey : tag.Serves (t.dc, t.isMedia)) :
    Safe (EgressGuar cfg tag) (EgressRely cfg) (fun _ => True) (WsPool.cfRefill cfg t) := by
  refine safe_op trivial fun (registered : Bool) _ => ?_
  cases registered with
  | false => trivial
  | true =>
    refine safe_op trivial fun (current : ℕ) _ => ?_
    split_ifs
    · exact safe_op trivial fun _ _ => trivial
    have hconnect : Safe (EgressGuar cfg tag) (EgressRely cfg)
        (fun answer => ∀ ws, answer = some ws → ws.request.Sanctioned cfg (t.dc, t.isMedia))
        (WsPool.cfConnectOne t) := by
      rw [WsPool.cfConnectOne, ht.skipTlsVerify, ht.connectTimeout]
      cases htier : t.tier with
      | worker =>
        obtain ⟨hdomain, hdst⟩ := ht.worker htier
        have hrequest : (workerRequest t.domain t.dst t.dc t.isMedia cfg.skipTlsVerify
            cfg.timeouts.cfConnect).Sanctioned cfg (t.dc, t.isMedia) := .worker hdomain hdst
        refine safe_op (egressGuar_dial hkey hrequest) fun outcome hrely ws hws => ?_
        rw [hrely ws hws]
        exact hrequest
      | proxy =>
        obtain ⟨hname, ip, hip⟩ := ht.proxy htier
        have hrequest : (apiwsRequest t.domain t.domain cfg.skipTlsVerify cfg.timeouts.cfConnect
            none).Sanctioned cfg (t.dc, t.isMedia) := .proxy hname hip
        refine safe_op (egressGuar_dial hkey hrequest) fun outcome hrely ws hws => ?_
        rw [hrely ws hws]
        exact hrequest
    refine safe_bind hconnect fun answer hanswer => ?_
    cases answer with
    | none => exact safe_op trivial fun _ _ => trivial
    | some ws =>
      exact safe_op ⟨ht, hanswer ws rfl⟩ fun _ _ => safe_op trivial fun _ _ => trivial

end TgWsProxy
