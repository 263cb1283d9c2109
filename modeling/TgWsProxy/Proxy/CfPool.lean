import TgWsProxy.Proxy.DirectRules
import TgWsProxy.Proxy.TierRules
import TgWsProxy.Server
import TgWsProxy.WsClient.ConfiguredRecords

set_option relaxedAutoImplicit false
set_option autoImplicit false

/-!
# Where pooled Cloudflare connections lead

The domain of a spare connection travels from the inline connect through `cf_target` into the
refill, from there into the pool, and from a pool hit into the next refill. Inline it is an
expanded `kws` record; with `--cf-balance` the rotation puts a zone name in its place, which the
refill dials as it is.

## Main definitions

* `TgWsProxy.RecordTarget` — a spare whose domain is a record of its own DC.
* `TgWsProxy.CfGuar`, `CfRely`, `CfInv` — what the tasks guarantee, rely on and keep.

## Main results

* `TgWsProxy.cf_relyGuarantee` — without balancing, or without pooling, the tasks of the server
  keep to it.
* `TgWsProxy.run_pooledRecords` — then every refill of the proxy tier dials a record of its DC, and
  every pooled stream was opened to one.
-/

namespace TgWsProxy

open Process Route

/-! ## Programs that do not touch the Cloudflare pool -/

/-- Operations that neither ask for a spare Cloudflare connection nor store one. -/
def Op.Plain : Op → Prop
  | .cfPrefetch _ => False
  | .cfPush .. => False
  | _ => True

theorem Op.Inner.plain {cfg : Config} {op : Op} (h : op.Inner cfg) : op.Plain := by
  cases op with
  | cfPrefetch t => exact h
  | cfPush t ws => exact h
  | _ => trivial

/-! ## What the tasks keep to -/

section Contract

variable (cfg : Config)

/-- A spare of the proxy tier names a record of its own DC. -/
def RecordTarget (t : CfTarget) : Prop :=
  t.tier = .proxy → t.domain ∈ cfWsDomains t.dc cfg.cfDomains t.isMedia

/-- A pooled connection of the proxy tier runs through a record of its DC. -/
def RecordEntry (key : CfKey) (domain : Host) (ws : Stream) : Prop :=
  key.1 = .proxy → domain ∈ cfWsDomains key.2.1 cfg.cfDomains key.2.2 ∧
    ws.request.host ∈ cfWsDomains key.2.1 cfg.cfDomains key.2.2

/-- Every pooled connection does. -/
def CfInv (w : World) : Prop := ∀ key, ∀ e ∈ w.cfIdle key, RecordEntry cfg key e.domain e.ws

/-- The spares that tasks may ask for; without pooling they are never opened. -/
def CfTagOk : Tag → Prop
  | .cfRefill t => cfg.poolSize = 0 ∨ RecordTarget cfg t
  | _ => True

/-- What a task guarantees: it asks for records, stores records and, if it is a refill of the
proxy tier, dials a record of its DC. -/
def CfGuar (tag : Tag) : Op → Prop
  | .cfPrefetch t => CfTagOk cfg (.cfRefill t)
  | .cfPush t ws => RecordEntry cfg t.key t.domain ws
  | .dial request => ∀ t, tag = .cfRefill t → t.tier = .proxy →
      request.host ∈ cfWsDomains t.dc cfg.cfDomains t.isMedia
  | _ => True

/-- What tasks rely on: a stream remembers its request, and the pool returns records. -/
def CfRely : (op : Op) → op.Resp → Prop
  | .dial request, outcome => ∀ ws, outcome.stream = some ws → ws.request = request
  | .cfTake key _, taken => ∀ e, taken = some e → RecordEntry cfg key e.domain e.ws
  | _, _ => True

end Contract

variable {cfg : Config} {tag : Tag}

/-- Operations that leave the Cloudflare pool alone meet the guarantee in every task but a
refill. -/
theorem cfGuar_of_plain (htag : ∀ t, tag ≠ .cfRefill t) (op : Op) (h : op.Plain) :
    CfGuar cfg tag op := by
  cases op with
  | cfPrefetch t => exact absurd h id
  | cfPush t ws => exact absurd h id
  | dial request => exact fun t ht => absurd ht (htag t)
  | _ => trivial

/-- The contract allows what the tiers do; a pool hit asks for the record it came from. -/
theorem cf_tierRules (htag : ∀ t, tag ≠ .cfRefill t) :
    TierRules cfg (CfGuar cfg tag) (CfRely cfg) where
  now := trivial
  take _ _ := trivial
  advance _ := trivial
  dial _ _ := fun t ht => absurd ht (htag t)
  active _ := trivial
  clear _ := trivial
  set _ _ _ _ _ _ _ := trivial
  hit _ _ _ _ entry hrely := .inr fun htier => (hrely entry rfl htier).1

theorem cfWorker_records (htag : ∀ t, tag ≠ .cfRefill t) (route : Route) (dst : Host) :
    Safe (CfGuar cfg tag) (CfRely cfg) (fun _ => True) (cfWorker cfg route dst) := by
  refine cfWorker_safe (cf_tierRules htag) route dst fun _ _ => .inr fun htier => ?_
  cases htier

/-- The proxy tier asks for the record that answered, or for a spare that will not be opened. -/
theorem cfProxy_records (htag : ∀ t, tag ≠ .cfRefill t)
    (hcond : cfg.cfBalance = false ∨ cfg.poolSize = 0) (hclosed : BaseClosed cfg.cfDomains)
    (route : Route) :
    Safe (CfGuar cfg tag) (CfRely cfg) (fun _ => True) (cfProxy cfg route) := by
  have hdial : ∀ request, request.host = request.domain → CfGuar cfg tag (.dial request) :=
    (cf_tierRules htag).dial
  have hconnect : ∀ domains, (cfg.cfBalance = false → domains = cfg.cfDomains) →
      Safe (CfGuar cfg tag) (CfRely cfg)
        (fun out => ∀ d, out.2.1 = some d → cfg.cfBalance = false →
          d ∈ cfWsDomains route.dc cfg.cfDomains route.isMedia)
        (connectCfWsForDc route.dc domains route.isMedia cfg.skipTlsVerify
          cfg.timeouts.cfConnect) := by
    intro domains hdomains
    by_cases hoff : cfg.cfBalance = false
    · rw [hdomains hoff]
      exact (connectCfWsForDc_safe hclosed fun d _ => hdial _ rfl).mono fun _ h d hd _ => h d hd
    · exact (connectCfWsForDc_safe_dials _ _ _ _ _ fun d => hdial _ rfl).mono
        fun _ _ _ _ h => absurd h hoff
  refine cfProxy_safe (cf_tierRules htag) route hconnect fun d hd => ?_
  rcases hcond with hoff | hzero
  · exact .inr fun _ => hd hoff
  · exact .inl hzero

/-- So does the direct tier with its pool. -/
theorem cf_directRules (htag : ∀ t, tag ≠ .cfRefill t) (ip : Host) (skipTls : Bool) :
    DirectRules cfg (CfGuar cfg tag) (CfRely cfg) ip skipTls fun _ => True where
  inner op hop := cfGuar_of_plain htag op hop.plain
  dial _ _ _ := fun t ht => absurd ht (htag t)
  opens _ _ _ _ _ := trivial

theorem selectUpstream_records (htag : ∀ t, tag ≠ .cfRefill t)
    (hcond : cfg.cfBalance = false ∨ cfg.poolSize = 0) (hclosed : BaseClosed cfg.cfDomains)
    (route : Route) (targetIp : Option Host) :
    Safe (CfGuar cfg tag) (CfRely cfg) (fun _ => True) (selectUpstream cfg route targetIp) :=
  selectUpstream_safe (cf_directRules htag [] false).inner (cfWorker_records htag route)
    (cfProxy_records htag hcond hclosed route)
    fun ip _ => directTier_safe (cf_directRules htag ip _) route fun _ _ _ => trivial

/-- A refill dials and stores the record it was given. -/
theorem cfRefill_records {t : CfTarget} (ht : CfTagOk cfg (.cfRefill t)) :
    Safe (CfGuar cfg (.cfRefill t)) (CfRely cfg) (fun _ => True) (WsPool.cfRefill cfg t) := by
  refine cfRefill_safe trivial trivial trivial fun hpool => ?_
  have hrecord : RecordTarget cfg t := ht.resolve_left hpool
  rw [WsPool.cfConnectOne]
  cases htier : t.tier with
  | worker =>
    refine safe_op ?_ fun _ _ _ _ hproxy => ?_
    · rintro t' ⟨⟩ hproxy
      rw [htier] at hproxy
      cases hproxy
    · rw [CfTarget.key, htier] at hproxy
      cases hproxy
  | proxy =>
    refine safe_op ?_ fun outcome hrely ws hws _ => ⟨hrecord htier, ?_⟩
    · rintro t' ⟨⟩ _
      exact hrecord htier
    · rw [hrely ws hws]
      exact hrecord htier

/-! ## The server keeps to it -/

/-- **The tasks of the server keep to the contract**, if balancing or pooling is off and no zone
leads out of itself. -/
theorem cf_relyGuarantee (hcond : cfg.cfBalance = false ∨ cfg.poolSize = 0)
    (hclosed : BaseClosed cfg.cfDomains) :
    System.RelyGuarantee (server cfg) (fun _ => True) (CfInv cfg) (CfTagOk cfg) (CfGuar cfg)
      (CfRely cfg) where
  exec tag op env w _ _ hinv hguar := by
    refine ⟨?_, ?_, ?_⟩
    · cases op with
      | dial request => exact fun ws hws => request_of_exec_dial cfg request env w hws
      | cfTake key now =>
        intro e he
        exact hinv key e (takeUsable_mem he)
      | _ => trivial
    · intro key e he
      change e ∈ (exec cfg op env w).2.1.cfIdle key at he
      rcases exec_cfIdle cfg op env w key with hsame | ⟨now, -, hpre⟩ | ⟨t, ws, rfl, rfl, hpush⟩
      · rw [hsame] at he
        exact hinv key e he
      · exact hinv key e (hpre.subset he)
      · rw [hpush] at he
        rcases List.mem_append.mp he with he | he
        · exact hinv t.key e he
        · rw [List.mem_singleton.mp he]
          exact hguar
    · intro tag' htag'
      rcases exec_spawn cfg op env w htag' with ⟨key, now, args, -, rfl⟩ | ⟨t, rfl, rfl⟩
      · trivial
      · exact hguar
  body tag htag := by
    cases tag with
    | client route => exact selectUpstream_records (by simp) hcond hclosed route _
    | get args allowRefill =>
      exact safe_bind (get_safe (cf_directRules (by simp) [] false).inner (fun _ _ _ => trivial) _)
        fun _ _ => trivial
    | cfConnect tier route dst =>
      cases tier with
      | worker => exact safe_bind (cfWorker_records (by simp) route dst) fun _ _ => trivial
      | proxy => exact safe_bind (cfProxy_records (by simp) hcond hclosed route) fun _ _ => trivial
    | warmup dcs =>
      exact safe_bind (warmup_safe (fun d _ => cf_directRules (by simp) d.2 _)
        fun _ _ _ _ _ => trivial) fun _ _ => trivial
    | refill args =>
      exact safe_bind (refill_safe (cf_directRules (by simp) args.targetIp _)
        fun _ _ => trivial) fun _ _ => trivial
    | cfRefill t => exact safe_bind (cfRefill_records htag) fun _ _ => trivial

/-- Zones without `-1.` lead nowhere else. -/
theorem baseClosed_of_not_contains {cfDomains : List Host}
    (h : ∀ d ∈ cfDomains, Text.containsPattern d "-1.".toList = false) : BaseClosed cfDomains := by
  intro d hd base hbase
  have hnone := h d hd
  rw [Text.containsPattern, Option.isSome_eq_false_iff, Option.isNone_iff_eq_none] at hnone
  rw [baseCfRecord, hnone] at hbase
  cases hbase

/-- What a refill dials, and for which spare. -/
def refillDial : Record Op Op.Resp Tag → Option (CfTarget × DialRequest)
  | ⟨_, .cfRefill t, .dial request, _⟩ => some (t, request)
  | _ => none

/-- What `cf_get` takes from the pool, and from which bucket. -/
def poolHit : Record Op Op.Resp Tag → Option (CfKey × CfEntry)
  | ⟨_, _, .cfTake key _, some entry⟩ => some (key, entry)
  | _ => none

/-- In the proxy tier, every hostname that a refill has dialled is a record of its DC under a
configured zone, and so is the host of every stream that `cf_get` has returned. -/
structure PooledRecords (cfg : Config) (s : ServerState) : Prop where
  dials : ∀ r ∈ s.trace, ∀ t request, refillDial r = some (t, request) → t.tier = .proxy →
    request.host ∈ cfWsDomains t.dc cfg.cfDomains t.isMedia
  hits : ∀ r ∈ s.trace, ∀ dc isMedia entry, poolHit r = some ((.proxy, dc, isMedia), entry) →
    entry.ws.request.host ∈ cfWsDomains dc cfg.cfDomains isMedia

/-- **Pooled Cloudflare connections lead to records of their DC**, if `--cf-balance` is off or
pooling is, in every run of the server.

**Proof sketch.** The rely-guarantee rule with the contract above: the inline connect returns a
record, `cf_target` passes it on, the refill dials and stores it, and a pool hit asks for it
again. -/
theorem run_pooledRecords (cfg : Config)
    (hdash : ∀ d ∈ cfg.cfDomains, Text.containsPattern d "-1.".toList = false)
    (hcond : cfg.cfBalance = false ∨ cfg.poolSize = 0) (ls : List ServerLabel)
    (hls : Arrivals ls) (s : ServerState)
    (hrun : (server cfg).run (System.initial World.start) ls = some s) : PooledRecords cfg s := by
  have hadmits : ∀ l ∈ ls, System.Admits (fun _ => True) (CfTagOk cfg) l := by
    intro l hl
    cases l with
    | step i env => trivial
    | start tag =>
      have harrives := hls _ hl tag rfl
      cases tag with
      | cfRefill t => exact absurd harrives id
      | _ => trivial
  have hsafe := System.run_safe
    (cf_relyGuarantee hcond (baseClosed_of_not_contains hdash)) hadmits
    (System.safeState_initial (by intro key e he; simp [World.start] at he)) hrun
  constructor
  · rintro ⟨task, tag, op, resp⟩ hr t request hdial htier
    cases tag with
    | cfRefill t' =>
      cases op with
      | dial request' =>
        cases hdial
        exact (hsafe.trace _ hr).2.1 t rfl htier
      | _ => cases hdial
    | _ => cases hdial
  · rintro ⟨task, tag, op, resp⟩ hr dc isMedia entry hhit
    cases op with
    | cfTake key now =>
      cases resp with
      | none => cases hhit
      | some e =>
        cases hhit
        exact ((hsafe.trace _ hr).2.2 entry rfl rfl).2
    | _ => cases hhit

end TgWsProxy
