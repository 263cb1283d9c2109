import TgWsProxy.AcceptLoop
import TgWsProxy.Proxy.DirectRules
import TgWsProxy.Proxy.TierRules

set_option relaxedAutoImplicit false
set_option autoImplicit false

/-!
# Where pooled direct connections lead

The warm-up goes over a map that was collected from the `--dc-ip` flags, and routing scans the
flags from the end. Both find the last address given for a DC, so a bucket of the direct pool holds
connections to the address that routing dials for its DC.

## Main definitions

* `TgWsProxy.TargetTagOk`, `TargetGuar`, `TargetRely`, `TargetInv` — what the tasks are given, what
  they guarantee and rely on, and what they keep of the pool.
* `TgWsProxy.PoolsAtTarget` — what holds of pool and dials in a state.

## Main results

* `TgWsProxy.target_relyGuarantee` — the tasks of the server keep to it.
* `TgWsProxy.warmup_at_target` — map and scan agree, and so do warm-up and routing in every run.
-/

namespace TgWsProxy

open Process Route

/-! ## What the tasks keep to -/

section Contract

variable (cfg : Config)

/-- The stream was opened to the target of a DC. -/
def AtTarget (dc : ℕ) (ws : Stream) : Prop := cfg.dcTargetIp dc = some ws.request.host

/-- A refill is for the target of its DC. -/
def RefillArgs.AtTarget (args : RefillArgs) : Prop :=
  cfg.dcTargetIp args.dc = some args.targetIp

/-- Every pooled connection was opened to the target of its bucket's DC. -/
def TargetInv (w : World) : Prop := ∀ key, ∀ e ∈ w.idle key, AtTarget cfg key.1 e.ws

/-- The tasks that are given targets. -/
def TargetTagOk : Tag → Prop
  | .get args _ => args.AtTarget cfg
  | .refill args => args.AtTarget cfg
  | .warmup dcs => ∀ d ∈ dcs, cfg.dcTargetIp d.1 = some d.2
  | _ => True

/-- What a task guarantees: it fills buckets with connections to their targets, asks for refills
from targets and, if it is a client, dials either the target of its DC or a name itself, as the
Cloudflare tiers do. -/
def TargetGuar (tag : Tag) : Op → Prop
  | .dial request => ∀ route, tag = .client route →
      request.host = request.domain ∨ cfg.dcTargetIp route.dc = some request.host
  | .poolTake _ _ refill => ∀ args ∈ refill, args.AtTarget cfg
  | .refillPush key conns => ∀ ws ∈ conns, AtTarget cfg key.1 ws
  | .warmupPush key conns => ∀ ws ∈ conns, AtTarget cfg key.1 ws
  | _ => True

/-- What tasks rely on: a stream remembers its request, and the pool returns connections to the
target. -/
def TargetRely : (op : Op) → op.Resp → Prop
  | .dial request, outcome => ∀ ws, outcome.stream = some ws → ws.request = request
  | .poolTake key _ _, taken => ∀ ws, taken = some ws → AtTarget cfg key.1 ws
  | _, _ => True

end Contract

variable {cfg : Config} {tag : Tag}

theorem targetGuar_inner (op : Op) (h : op.Inner cfg) : TargetGuar cfg tag op := by
  cases op with
  | dial request => exact absurd h id
  | poolTake key now refill => exact absurd h id
  | refillPush key conns => exact absurd h id
  | warmupPush key conns => exact absurd h id
  | _ => trivial

/-- The contract allows what the Cloudflare tiers do. -/
theorem target_tierRules : TierRules cfg (TargetGuar cfg tag) (TargetRely cfg) where
  now := trivial
  take _ _ := trivial
  advance _ := trivial
  dial _ hname := fun _ _ => .inl hname
  active _ := trivial
  clear _ := trivial
  set _ _ _ _ _ _ _ := trivial
  hit _ _ _ _ _ _ := trivial

/-- It allows the direct tier of a DC to dial its target, which is where its streams lead. -/
theorem target_directRules {dc : ℕ} {ip : Host} (hip : cfg.dcTargetIp dc = some ip)
    (htag : ∀ route, tag = .client route → route.dc = dc) (skipTls : Bool) :
    DirectRules cfg (TargetGuar cfg tag) (TargetRely cfg) ip skipTls (AtTarget cfg dc) where
  inner := targetGuar_inner
  dial _ _ _ := fun route hroute => .inr (htag route hroute ▸ hip)
  opens _ _ _ ws hrely := by
    rw [AtTarget, hrely ws rfl]
    exact hip

theorem selectUpstream_target (route : Route) :
    Safe (TargetGuar cfg (.client route)) (TargetRely cfg) (fun _ => True)
      (selectUpstream cfg route (cfg.dcTargetIp route.dc)) := by
  have hrules := @target_tierRules cfg (.client route)
  refine selectUpstream_safe targetGuar_inner
    (fun dst => cfWorker_safe hrules route dst fun _ _ => trivial)
    (cfProxy_safe_any hrules route fun _ => trivial) fun ip hip => ?_
  have hroute : ∀ route', Tag.client route = .client route' → route'.dc = route.dc := by
    rintro route' ⟨⟩
    rfl
  exact directTier_safe (target_directRules hip hroute _) route
    fun now refill hrefill args hargs => hrefill args hargs ▸ hip

/-! ## The server keeps to it -/

variable {op : Op} {env : Env} {w : World}

/-- What an operation answers. -/
theorem exec_targetRely (hinv : TargetInv cfg w) :
    TargetRely cfg op (exec cfg op env w).1 := by
  cases op with
  | dial request => exact fun ws hws => request_of_exec_dial cfg request env w hws
  | poolTake key now refill =>
    intro ws hws
    obtain ⟨e, he, rfl⟩ := Option.map_eq_some_iff.mp hws
    exact hinv key e (takeUsable_mem he)
  | _ => trivial

/-- What an operation leaves in the pool. -/
theorem exec_targetInv (hinv : TargetInv cfg w) (hguar : TargetGuar cfg tag op) :
    TargetInv cfg (exec cfg op env w).2.1 := by
  intro key e he
  rcases exec_idle cfg op env w key with
    hsame | ⟨_, _, -, hpre⟩ | ⟨conns, rfl, hpush⟩ | ⟨conns, rfl, hpush⟩
  · rw [hsame] at he
    exact hinv key e he
  · exact hinv key e (hpre.subset he)
  · rw [hpush] at he
    rcases List.mem_append.mp he with he | he
    · exact hinv key e he
    · exact hguar e.ws (List.mem_of_mem_take (ws_mem_of_mem_entries he))
  · rw [hpush] at he
    rcases List.mem_append.mp he with he | he
    · exact hinv key e he
    · exact hguar e.ws (ws_mem_of_mem_entries he)

/-- The refills that are started are given targets. -/
theorem exec_targetTag (hguar : TargetGuar cfg tag op) {tag' : Tag}
    (htag' : tag' ∈ (exec cfg op env w).2.2) : TargetTagOk cfg tag' := by
  rcases exec_spawn cfg op env w htag' with ⟨key, now, args, rfl, rfl⟩ | ⟨t, rfl, rfl⟩
  · exact hguar args rfl
  · trivial

/-- Every kind of task keeps to the contract. -/
theorem body_target (htag : TargetTagOk cfg tag) :
    Safe (TargetGuar cfg tag) (TargetRely cfg) (fun _ => True) (body cfg tag) := by
  cases tag with
  | client route => exact selectUpstream_target route
  | get args allowRefill =>
    have htake : ∀ now refill, (∀ a ∈ refill, a = args) →
        TargetGuar cfg (.get args allowRefill) (.poolTake args.key now refill) :=
      fun _ _ hrefill a ha => hrefill a ha ▸ htag
    exact safe_bind (get_safe targetGuar_inner htake _) fun _ _ => trivial
  | cfConnect tier route dst =>
    have hrules := @target_tierRules cfg (.cfConnect tier route dst)
    cases tier with
    | worker =>
      exact safe_bind (cfWorker_safe hrules route dst fun _ _ => trivial) fun _ _ => trivial
    | proxy =>
      exact safe_bind (cfProxy_safe_any hrules route fun _ => trivial) fun _ _ => trivial
  | warmup dcs =>
    exact safe_bind (warmup_safe (fun d hd => target_directRules (htag d hd) (by simp) _)
      fun d hd isMedia conns hconns => hconns) fun _ _ => trivial
  | refill args =>
    exact safe_bind (refill_safe (target_directRules htag (by simp) _)
      fun conns hconns => hconns) fun _ _ => trivial
  | cfRefill t =>
    have hdial : ∀ request, TargetGuar cfg (.cfRefill t) (.dial request) :=
      fun request route hroute => by cases hroute
    exact safe_bind (cfRefill_safe_any trivial trivial trivial hdial fun _ => trivial)
      fun _ _ => trivial

/-- **The tasks of the server keep to the contract.** -/
theorem target_relyGuarantee :
    System.RelyGuarantee (server cfg) (fun _ => True) (TargetInv cfg) (TargetTagOk cfg)
      (TargetGuar cfg) (TargetRely cfg) where
  exec _ _ _ _ _ _ hinv hguar :=
    ⟨exec_targetRely hinv, exec_targetInv hinv hguar, fun _ => exec_targetTag hguar⟩
  body _ := body_target

/-! ## Runs -/

/-- What a warm-up pushes, and to which bucket. -/
def warmed : Record Op Op.Resp Tag → Option (PoolKey × List Stream)
  | ⟨_, _, .warmupPush key conns, _⟩ => some (key, conns)
  | _ => none

/-- What a client dials, and on which route. -/
def clientDial : Record Op Op.Resp Tag → Option (Route × DialRequest)
  | ⟨_, .client route, .dial request, _⟩ => some (route, request)
  | _ => none

/-- The warm-up has filled buckets with connections to the target of their DC, which is where the
direct pool leads and the only address that clients of the DC dial beside the names of the
Cloudflare tiers. A DC without a target has no bucket. -/
structure PoolsAtTarget (cfg : Config) (s : ServerState) : Prop where
  warmed : ∀ r ∈ s.trace, ∀ key conns, warmed r = some (key, conns) →
    ∀ ws ∈ conns, cfg.dcTargetIp key.1 = some ws.request.host
  idle : ∀ key, ∀ e ∈ s.world.idle key, cfg.dcTargetIp key.1 = some e.ws.request.host
  dials : ∀ r ∈ s.trace, ∀ route request, clientDial r = some (route, request) →
    request.host = request.domain ∨ cfg.dcTargetIp route.dc = some request.host
  absent : ∀ key : PoolKey, key.1 ∉ cfg.dcIp.map Prod.fst → s.world.idle key = []

/-- **Warm-up and routing agree.** The scan of routing finds what the map of the warm-up holds, the
last address given for a DC; and in every run of the server, whatever the order of the map and the
interleaving of the tasks, the buckets lead to where routing dials. -/
theorem warmup_at_target (cfg : Config) :
    (∀ dc, cfg.dcTargetIp dc = cfg.dcRedirectMap dc ∧ ∀ ip, cfg.dcTargetIp dc = some ip ↔
      ∃ before after, cfg.dcIp = before ++ (dc, ip) :: after ∧ dc ∉ after.map Prod.fst) ∧
    ∀ dcs, Collect.Enumerates dcs cfg.dcRedirectMap → ∀ ls, Serving dcs ls → ∀ s,
      (server cfg).run (System.initial World.start) ls = some s → PoolsAtTarget cfg s := by
  refine ⟨fun dc => ⟨dcTargetIp_eq cfg dc, fun ip => Collect.findLast_eq_some_iff⟩, ?_⟩
  rintro dcs hdcs ls ⟨rest, rfl, hrest⟩ s hrun
  have hadmits : ∀ l ∈ Label.start (.warmup dcs) :: rest,
      System.Admits (fun _ : Env => True) (TargetTagOk cfg) l := by
    intro l hl
    rcases List.mem_cons.mp hl with rfl | hl
    · intro d hd
      rw [dcTargetIp_eq]
      exact (hdcs.mem_iff d.1 d.2).mp hd
    · cases l with
      | step i env => trivial
      | start tag =>
        obtain ⟨route, rfl⟩ := hrest _ hl tag rfl
        trivial
  have hsafe := System.run_safe target_relyGuarantee hadmits
    (System.safeState_initial (by intro key e he; simp [World.start] at he)) hrun
  constructor
  · rintro ⟨task, tag, op, resp⟩ hr key conns hwarmed
    cases op with
    | warmupPush key' conns' =>
      cases hwarmed
      exact (hsafe.trace _ hr).2.1
    | _ => cases hwarmed
  · exact hsafe.world
  · rintro ⟨task, tag, op, resp⟩ hr route request hdial
    cases tag with
    | client route' =>
      cases op with
      | dial request' =>
        cases hdial
        exact (hsafe.trace _ hr).2.1 route rfl
      | _ => cases hdial
    | _ => cases hdial
  · intro key hkey
    have hnone : cfg.dcTargetIp key.1 = none :=
      (dcTargetIp_eq cfg key.1).trans (Collect.collect_eq_none hkey)
    refine List.eq_nil_iff_forall_not_mem.mpr fun e he => ?_
    have htarget := hsafe.world key e he
    rw [AtTarget, hnone] at htarget
    cases htarget

/-- DC 2 given twice, and another DC between. -/
def repeatedConfig : Config :=
  { smallConfig with
    dcIp := [(2, "149.154.167.50".toList), (4, "149.154.167.91".toList),
      (2, "149.154.167.51".toList)] }

/-- The warm-up fills the bucket of DC 4 and then that of DC 2, and a client of DC 2 arrives. -/
def repeatedRun : List ServerLabel :=
  .start (.warmup repeatedConfig.dcRedirects) :: .start (.client dcTwo) :: smoothSteps 0 12

theorem warmup_at_target_repeated :
    ∃ s, (server repeatedConfig).run (System.initial World.start) repeatedRun = some s ∧
      (s.world.idle (2, false)).map (fun e => e.ws.request.host) = ["149.154.167.51".toList] ∧
      PoolsAtTarget repeatedConfig s := by
  have hrun : ((server repeatedConfig).run (System.initial World.start) repeatedRun).map
      (fun s => (s.world.idle (2, false)).map fun e => e.ws.request.host) =
        some ["149.154.167.51".toList] := by decide +kernel
  obtain ⟨s, hs, hidle⟩ := Option.map_eq_some_iff.mp hrun
  have hserving : Serving repeatedConfig.dcRedirects repeatedRun := by
    refine ⟨_, rfl, fun l hl tag htag => ?_⟩
    subst htag
    rcases List.mem_cons.mp hl with hl | hl
    · cases hl
      exact ⟨dcTwo, rfl⟩
    · cases List.eq_of_mem_replicate hl
  exact ⟨s, hs, hidle, (warmup_at_target repeatedConfig).2 _ (enumerates_dcRedirects _) _ hserving
    s hs⟩

end TgWsProxy
