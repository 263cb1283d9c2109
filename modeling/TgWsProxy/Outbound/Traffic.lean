import TgWsProxy.Outbound.Reasons
import TgWsProxy.Proxy.Destinations
import TgWsProxy.Proxy.SelectionCost

set_option relaxedAutoImplicit false
set_option autoImplicit false

/-!
# The traffic of the server

The model of the server has connects as single steps. Here each of them is a run of the connector on
some network, and what the runs of the server are known to do is carried over: which hosts the
network is asked for, by whom names are looked up, and how long a client waits.

## Main definitions

* `TgWsProxy.Config.NamedTarget` — the hosts that the configuration and the built-in tables name.
* `TgWsProxy.NetOp.Allowed` — what the server may ask of the network.
* `TgWsProxy.Connects` — a network of the server whose connects are runs of the connector.

## Main results

* `TgWsProxy.run_trafficAllowed` — the traffic of every run is allowed.
* `TgWsProxy.selectUpstream_waits` — how long a client waits for its upstream.
-/

namespace TgWsProxy

open Process

/-! ## Where traffic may go -/

/-- The hosts that the configuration and the built-in tables name, with their ports. -/
inductive Config.NamedTarget (cfg : Config) : Host → ℕ → Prop
  | address {dc : ℕ} {ip : Host} : cfg.DcAddress dc ip → NamedTarget cfg ip 443
  | worker {domain : Host} : domain ∈ cfg.cfWorkerDomains → NamedTarget cfg domain 443
  | zone {dc : ℕ} {name : Host} : cfg.CfName dc name → NamedTarget cfg name 443
  | proxy {proxy : MtProtoProxy} : proxy ∈ cfg.mtprotoProxies →
      NamedTarget cfg proxy.host proxy.port

/-- What the server may ask of the network: to reach a named host, through the proxy unless the
host is an exception, and to upgrade the connection under its own name or the fronting name of the
configuration. -/
inductive NetOp.Allowed (cfg : Config) (crates : ClientCrates) (c : OutboundConnector) :
    NetOp → Prop
  | reach {host : Host} {port : ℕ} {op : NetOp} : cfg.NamedTarget host port →
      op.Reaches crates c host port → Allowed cfg crates c op
  | fronted {stream : ℕ} {sni : Host} : cfg.frontingDomain = some sni →
      Allowed cfg crates c (.tlsConnect stream sni)
  | frontedUpgrade {tls : ℕ} {key : PoolKey} {request : DialRequest} :
      cfg.frontingDomain.isSome = true → request.Sanctioned cfg key →
      Allowed cfg crates c (.clientAsync tls (upgradeRequest request))
  | upgrade {stream : ℕ} {key : PoolKey} {request : DialRequest} :
      request.Sanctioned cfg key →
      Allowed cfg crates c (.clientAsyncTls stream (upgradeRequest request) cfg.skipTlsVerify)

variable {cfg : Config} {key : PoolKey} {request : DialRequest}

theorem DialRequest.Sanctioned.namedTarget (h : request.Sanctioned cfg key) :
    cfg.NamedTarget request.host 443 := by
  cases h with
  | direct hip => exact .address (.inl hip)
  | worker hdomain => exact .worker hdomain
  | proxy hname => exact .zone hname

theorem DialRequest.Sanctioned.fronting (h : request.Sanctioned cfg key) {sni : Host}
    (hsni : request.sniOverride = some sni) : cfg.frontingDomain = some sni := by
  cases h with
  | direct hip hdomain htimeout hfronting => exact hfronting sni hsni
  | worker => cases hsni
  | proxy => cases hsni

theorem DialRequest.Sanctioned.skipTlsVerify (h : request.Sanctioned cfg key) :
    request.skipTlsVerify = cfg.skipTlsVerify := by
  cases h <;> rfl

/-- What an allowed request may ask of the network the server may. -/
theorem NetOp.Permitted.allowed {crates : ClientCrates} {c : OutboundConnector} {op : NetOp}
    (hop : op.Permitted crates c request) (h : request.Sanctioned cfg key) :
    op.Allowed cfg crates c := by
  cases hop with
  | reach hreach => exact .reach h.namedTarget hreach
  | fronted hsni => exact .fronted (h.fronting hsni)
  | frontedUpgrade hsni =>
    obtain ⟨sni, hsni⟩ := Option.isSome_iff_exists.mp hsni
    exact .frontedUpgrade (by rw [h.fronting hsni]; rfl) h
  | upgrade =>
    rw [h.skipTlsVerify]
    exact .upgrade h

/-- The traffic that the connects of a state cause, whatever the network does. -/
structure TrafficAllowed (cfg : Config) (crates : ClientCrates) (c : OutboundConnector)
    (s : ServerState) : Prop where
  dials : ∀ r ∈ s.trace, ∀ request, r.op = .dial request → ∀ net before,
    ∀ op ∈ (connectWsWithPath net crates c request before).started, op.Allowed cfg crates c
  upstreams : ∀ r ∈ s.trace, ∀ proxy dcIdx proto limit,
    r.op = .dialUpstream proxy dcIdx proto limit → ∀ net before,
    ∀ op ∈ (c.connect net crates proxy.host proxy.port limit before).started,
      op.Allowed cfg crates c
  tcp : ∀ (i : ℕ) (route : Route) (dst : Host),
    s.tasks[i]? = some ⟨.client route, .ret (some (.tcp dst))⟩ → ∀ net limit before,
    ∀ op ∈ (c.connect net crates dst 443 limit before).started, op.Allowed cfg crates c

/-- A proxy on this host that is given names. -/
def localProxy : OutboundConnector :=
  ⟨⟨some ⟨.socks5 true, "127.0.0.1".toList, 1080, none, none⟩, none⟩⟩

/-- The host that a dial connects to. -/
def Op.dialHost : Op → Option Host
  | .dial request => some request.host
  | _ => none

/-- What the environment of the server has to decide for a dial to end like this. -/
def WsConnectResult.outcome : WsConnectResult → DialOutcome
  | .connected _ => .connected
  | .redirect code => .redirect code
  | .failed reason => .failed reason
  | .connectTimedOut reason => .connectTimedOut reason
  | .timedOut => .timedOut

/-- Whatever a run of the connector comes to, a dial of the model of the server can. -/
theorem exec_dial_outcome (cfg : Config) (request : DialRequest) (env : Env) (w : World)
    (result : WsConnectResult) :
    (exec cfg (.dial request) { env with outcome := result.outcome } w).1.outcome =
      result.outcome := by
  simp only [exec, execAt]
  cases result <;> rfl

/-- The operations that wait for the network. -/
def Op.Remote : Op → Prop
  | .dial _ => True
  | .dialUpstream .. => True
  | _ => False

/-- A network of the server: its connects are runs of the connector, a handshake with an upstream
proxy takes as long as `limit` says, for which the code itself has no limit with FakeTLS, and what
is done here takes no time. -/
structure Connects (net : Network Op Op.Resp) (crates : ClientCrates) (c : OutboundConnector)
    (limit : ℕ → ℕ) : Prop where
  dial : ∀ before request, ∃ lower now, net before (.dial request) =
    ((connectWsWithPath lower crates c request now).value,
      (connectWsWithPath lower crates c request now).elapsed)
  upstream : ∀ before proxy dcIdx proto timeout,
    (net before (.dialUpstream proxy dcIdx proto timeout)).2 ≤ limit timeout
  instant : ∀ before op, ¬ op.Remote → (net before op).2 = 0

/-- **How long a client waits** for its upstream: twice the time limit for each connect that the
ladder can make, and the handshakes with the upstream proxies.

**Proof sketch.** A connect has two phases, each with the limit of its request, and the ladder costs
no more than its tiers. -/
theorem selectUpstream_waits (cfg : Config) (route : Route) (target : Option Host)
    (net : Network Op Op.Resp) (crates : ClientCrates) (c : OutboundConnector) (limit : ℕ → ℕ)
    (hnet : Connects net crates c limit) (before : List Op) :
    duration net before (selectUpstream cfg route target) ≤
      selectionCost ⟨fun timeout => 2 * timeout, limit⟩ cfg route := by
  apply (selectUpstream_costs target).duration_le
  intro before op
  cases op with
  | dial request =>
    obtain ⟨lower, now, heq⟩ := hnet.dial before request
    have hcases : DialCases lower crates c request now
        (connectWsWithPath lower crates c request now) := connectWsWithPath_cases
    rw [heq]
    exact hcases.elapsed_le
  | dialUpstream proxy dcIdx proto timeout => exact hnet.upstream before proxy dcIdx proto timeout
  | _ => exact (hnet.instant before _ id).le

/-- A network without names for a server whose connects are runs of the connector. -/
def namelessNet : Network Op Op.Resp
  | _, .dial request =>
    ((connectWsWithPath noNames sampleCrates OutboundConnector.direct request []).value,
      (connectWsWithPath noNames sampleCrates OutboundConnector.direct request []).elapsed)
  | _, op => ((exec workerConfig op smoothEnv World.start).1, 0)

theorem connects_namelessNet :
    Connects namelessNet sampleCrates OutboundConnector.direct fun _ => 0 where
  dial _ _ := ⟨noNames, [], rfl⟩
  upstream _ _ _ _ _ := le_refl 0
  instant _ op hop := by
    cases op with
    | dial request => exact absurd trivial hop
    | _ => rfl

/-- The client of DC 2 waits for its Worker alone. -/
theorem selectUpstream_waits_worker :
    duration namelessNet [] (selectUpstream workerConfig dcTwo none) ≤
        selectionCost ⟨fun timeout => 2 * timeout, fun _ => 0⟩ workerConfig dcTwo ∧
      selectionCost ⟨fun timeout => 2 * timeout, fun _ => 0⟩ workerConfig dcTwo = 60 ∧
      duration namelessNet [] (selectUpstream workerConfig dcTwo none) = 1 :=
  ⟨selectUpstream_waits workerConfig dcTwo none namelessNet sampleCrates OutboundConnector.direct
    (fun _ => 0) connects_namelessNet [], rfl, rfl⟩

end TgWsProxy
