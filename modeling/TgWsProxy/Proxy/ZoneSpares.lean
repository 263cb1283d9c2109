import TgWsProxy.Pool.Capacity
import TgWsProxy.Proxy.CfPool

set_option relaxedAutoImplicit false
set_option autoImplicit false

/-!
# Spares that are dialled at their zone

With `--cf-balance` and pooling on, one connection through the Cloudflare proxy is enough: its
spare is named after a zone, and the refill dials the zone itself. Whatever the zone, it is no
record of DC 2 or no record of DC 4.

## Main definitions

* `TgWsProxy.Calm` — an empty Cloudflare pool with no refill at work.
* `TgWsProxy.spareZone` — the zone of the first spare.

## Main results

* `TgWsProxy.exists_run_dials_zone` — a run in which a refill dials a zone.
* `TgWsProxy.cf_pool_records_iff` — pooled connections lead to records in all runs exactly if
  balancing or pooling is off.
-/

namespace TgWsProxy

open Process Route

/-! ## A connection alone -/

/-- Nothing pooled, and no refill at work. -/
structure Calm (w : World) : Prop where
  idle : ∀ key, w.cfIdle key = []
  refilling : ∀ key, w.cfRefilling key = false

/-- The number that `balanced` leaves in the counter. -/
def countAfter (domains : List Host) (count : ℕ) : ℕ :=
  if domains.length ≤ 1 then count else (count + 1) % 2 ^ 64

section Alone

variable {cfg : Config} {w : World}

/-- `balanced` starts at the counter. -/
theorem balanced_returns {domains : List Host} (hne : domains ≠ []) (tier : CfTier)
    (hw : Calm w) :
    System.Returns (server cfg) smoothEnv
      (fun w' order => Calm w' ∧ w'.counters tier = countAfter domains (w.counters tier) ∧
        ∃ rest, order = domains.getD (w.counters tier % domains.length) [] :: rest)
      w (balanced domains tier) := by
  rw [balanced, countAfter]
  by_cases hn : domains.length ≤ 1
  · obtain ⟨d, rfl⟩ : ∃ d, domains = [d] := by
      have hpos := List.length_pos_iff.mpr hne
      exact List.length_eq_one_iff.mp (by omega)
    exact System.returns_ret ⟨hw, rfl, [], by simp [Nat.mod_one]⟩
  · rw [if_neg hn, if_neg hn]
    refine System.leads_op rfl (System.returns_ret ⟨⟨hw.idle, hw.refilling⟩, ?_, ?_⟩)
    · simp [server, exec, execAt]
    · exact rotation_eq_cons hne (w.counters tier)

/-- `cf_get` misses. -/
theorem cfGet_returns (tier : CfTier) (dc : ℕ) (isMedia : Bool) (hw : Calm w) :
    System.Returns (server cfg) smoothEnv
      (fun w' hit => hit = none ∧ Calm w' ∧ w'.counters = w.counters)
      w (WsPool.cfGet tier dc isMedia) := by
  have hempty : ∀ usable : CfEntry → Bool,
      takeUsable usable (w.cfIdle (tier, dc, isMedia)) = (none, []) := by
    intro usable
    rw [hw.idle]
    rfl
  refine System.leads_op rfl (System.leads_op rfl ?_)
  simp only [server, exec, execAt, hempty]
  refine System.returns_ret ⟨rfl, ⟨fun key => ?_, hw.refilling⟩, rfl⟩
  by_cases hkey : key = (tier, dc, isMedia)
  · simp [hkey]
  · simpa [hkey] using hw.idle key

/-- The first record answers. -/
theorem connectCfWsForDc_returns {dc : ℕ} {domains : List Host} (hne : domains ≠ [])
    {isMedia skipTlsVerify : Bool} {timeout : ℕ} (hw : Calm w) :
    System.Returns (server cfg) smoothEnv
      (fun w' out => (∃ ws domain, out = (some ws, some domain, false)) ∧ Calm w' ∧
        w'.counters = w.counters)
      w (connectCfWsForDc dc domains isMedia skipTlsVerify timeout) := by
  obtain ⟨record, attempts, hnext⟩ : ∃ record attempts,
      (CfAttempts.new (cfWsDomains dc domains isMedia)).nextDomain = some (record, attempts) := by
    obtain ⟨d, domains, rfl⟩ := List.exists_cons_of_ne_nil hne
    cases isMedia with
    | false => exact ⟨_, _, rfl⟩
    | true => exact ⟨_, _, rfl⟩
  rw [connectCfWsForDc, connectCfLoop_some hnext]
  exact System.leads_op rfl (System.returns_ret ⟨⟨_, _, rfl⟩, ⟨hw.idle, hw.refilling⟩, rfl⟩)

/-- A balanced connection comes to ask for a spare through the zone of its second draw. -/
theorem cfProxy_leads (hbal : cfg.cfBalance = true) (hne : cfg.cfDomains ≠ []) (route : Route)
    (hw : Calm w) :
    System.Leads (server cfg) smoothEnv
      (fun w' q => Calm w' ∧ ∃ next, q = .act (.cfPrefetch (spareTarget cfg route .proxy []
        (cfg.cfDomains.getD (countAfter cfg.cfDomains (w.counters .proxy) %
          cfg.cfDomains.length) []))) next)
      w (cfProxy cfg route) := by
  rw [cfProxy, if_neg hne, balanceOrder, if_pos hbal]
  refine System.leads_bind (balanced_returns hne .proxy hw) ?_
  rintro w₁ _ ⟨hw₁, hcount, rest, rfl⟩
  refine System.leads_bind (cfGet_returns .proxy route.dc route.isMedia hw₁) ?_
  rintro w₂ _ ⟨rfl, hw₂, hsame₂⟩
  refine System.leads_bind (connectCfWsForDc_returns (List.cons_ne_nil _ _) hw₂) ?_
  rintro w₃ _ ⟨⟨ws, domain, rfl⟩, hw₃, hsame₃⟩
  have htarget : System.Returns (server cfg) smoothEnv
      (fun w' t => Calm w' ∧ t = spareTarget cfg route .proxy []
        (cfg.cfDomains.getD (countAfter cfg.cfDomains (w.counters .proxy) %
          cfg.cfDomains.length) []))
      w₃ (cfTarget cfg route .proxy [] domain cfg.cfDomains) := by
    rw [cfTarget, if_pos hbal]
    refine System.leads_bind (balanced_returns hne .proxy hw₃) ?_
    rintro w₄ _ ⟨hw₄, -, rest, rfl⟩
    refine System.returns_ret ⟨hw₄, ?_⟩
    rw [hsame₃, hsame₂, hcount]
    rfl
  refine System.leads_bind htarget ?_
  rintro w₄ _ ⟨hw₄, rfl⟩
  exact System.leads_here ⟨hw₄, _, rfl⟩

/-- With pooling on, the refill of a spare comes to dial its domain. -/
theorem cfRefill_leads (hpool : cfg.poolSize ≠ 0) {t : CfTarget} (htier : t.tier = .proxy)
    (hw : Calm w) :
    System.Leads (server cfg) smoothEnv
      (fun _ q => ∃ request next, q = .act (.dial request) next ∧ request.host = t.domain)
      w (WsPool.cfRefill cfg t) := by
  have hbudget : ¬ (w.cfIdle t.key).length ≥ cfg.cfBudget := by
    rw [hw.idle, Config.cfBudget, List.length_nil]
    omega
  refine System.leads_op rfl ?_
  simp only [server, exec, execAt, hw.refilling]
  refine System.leads_op rfl ?_
  change System.Leads _ _ _ _ (if (w.cfIdle t.key).length ≥ cfg.cfBudget then _ else _)
  rw [if_neg hbudget, WsPool.cfConnectOne, htier]
  exact System.leads_here ⟨_, _, rfl, rfl⟩

end Alone

/-! ## A refill that dials a zone -/

/-- The zone of the first spare. -/
def spareZone (cfg : Config) : Host :=
  cfg.cfDomains.getD (countAfter cfg.cfDomains 0 % cfg.cfDomains.length) []

/-- **A run that dials a zone.** With balancing and pooling on, one connection through the proxy
tier and its refill.

**Proof sketch.** The connection runs alone until it asks for its spare, which starts the refill;
that runs alone until it dials. -/
theorem exists_run_dials_zone {cfg : Config} (hbal : cfg.cfBalance = true)
    (hne : cfg.cfDomains ≠ []) (hpool : cfg.poolSize ≠ 0) (route : Route) :
    ∃ ls s, Arrivals ls ∧ (server cfg).run (System.initial World.start) ls = some s ∧
      ∃ r ∈ s.trace, ∃ request,
        refillDial r = some (spareTarget cfg route .proxy [] (spareZone cfg), request) ∧
        request.host = spareZone cfg := by
  set t := spareTarget cfg route .proxy [] (spareZone cfg)
  obtain ⟨events, w, q, hsolo, hw, next, rfl⟩ :
      System.Leads (server cfg) smoothEnv
        (fun w' q => Calm w' ∧ ∃ next, q = .act (.cfPrefetch t) next)
        World.start (body cfg (.cfConnect .proxy route [])) :=
    (cfProxy_leads hbal hne route ⟨fun _ => rfl, fun _ => rfl⟩).inside
      (by rintro w' _ ⟨hw', next, rfl⟩; exact ⟨hw', _, rfl⟩)
  obtain ⟨events', w', q', hsolo', request, next', rfl, hhost⟩ :
      System.Leads (server cfg) smoothEnv
        (fun _ q => ∃ request next, q = .act (.dial request) next ∧ request.host = t.domain)
        (exec cfg (.cfPrefetch t) smoothEnv w).2.1 (body cfg (.cfRefill t)) :=
    (cfRefill_leads hpool rfl ⟨hw.idle, hw.refilling⟩).inside
      (by rintro w' _ ⟨request, next, rfl, hhost⟩; exact ⟨request, _, rfl, hhost⟩)
  -- the states before and after each of the two runs alone
  let s₀ : ServerState := ⟨World.start, [(server cfg).spawn (.cfConnect .proxy route [])], []⟩
  let s₁ : ServerState := ⟨w, [⟨.cfConnect .proxy route [], .act (.cfPrefetch t) next⟩],
    events.map fun e => ⟨0, .cfConnect .proxy route [], e.op, e.resp⟩⟩
  let s₂ := (server cfg).perform s₁ 0 smoothEnv (.cfConnect .proxy route []) (.cfPrefetch t) next
  let s₃ : ServerState := ⟨w', s₂.tasks.set 1 ⟨.cfRefill t, .act (.dial request) next'⟩,
    s₂.trace ++ events'.map fun e => ⟨1, .cfRefill t, e.op, e.resp⟩⟩
  let s₄ := (server cfg).perform s₃ 1 smoothEnv (.cfRefill t) (.dial request) next'
  have hconnect : (server cfg).run s₀ (smoothSteps 0 events.length) = some s₁ :=
    System.run_solo hsolo s₀ rfl rfl
  have hspawn : (server cfg).run s₁ (smoothSteps 0 1) = some s₂ := rfl
  have hrefill : (server cfg).run s₂ (smoothSteps 1 events'.length) = some s₃ :=
    System.run_solo hsolo' s₂ rfl rfl
  have hdial : (server cfg).run s₃ (smoothSteps 1 1) = some s₄ := rfl
  refine ⟨.start (.cfConnect .proxy route []) :: (smoothSteps 0 events.length ++
    (smoothSteps 0 1 ++ (smoothSteps 1 events'.length ++ smoothSteps 1 1))), s₄, ?_, ?_, ?_⟩
  · intro l hl tag htag
    subst htag
    simp only [smoothSteps, List.mem_cons, List.mem_append, List.mem_replicate, reduceCtorEq,
      and_false, or_false] at hl
    cases hl
    trivial
  · change (server cfg).run s₀ _ = _
    simp only [System.run_append, hconnect, hspawn, hrefill, hdial, Option.bind_some]
  · exact ⟨_, List.mem_append_right _ (List.mem_singleton_self _), request, rfl, hhost⟩

/-- A hostname is no record of DC 2 or none of DC 4. -/
theorem notMem_cfWsDomains (h : Host) (cfDomains : List Host) :
    ∃ dc, (dc = 2 ∨ dc = 4) ∧ h ∉ cfWsDomains dc cfDomains false := by
  have hstart : ∀ dc, h ∈ cfWsDomains dc cfDomains false → "kws".toList ++ showNat dc <+: h := by
    intro dc hmem
    obtain ⟨d, -, rfl | rfl⟩ := mem_cfWsDomains.mp hmem
    · exact ⟨".".toList ++ d, by simp [baseRecord]⟩
    · exact ⟨"-1.".toList ++ d, by simp [dashOneRecord]⟩
  by_cases htwo : h ∈ cfWsDomains 2 cfDomains false
  · refine ⟨4, .inr rfl, fun hfour => ?_⟩
    have hsame := List.prefix_of_prefix_length_le (hstart 2 htwo) (hstart 4 hfour) (by decide)
    exact absurd hsame (by decide)
  · exact ⟨2, .inl rfl, htwo⟩

/-- **Pooled Cloudflare connections lead to records of their DC** in every run of the server if and
only if `--cf-balance` is off or pooling is.

**Proof sketch.** If one of them is off, the contract of `CfPool` is kept. If both are on, a
connection to DC 2 or DC 4 whose spare goes to a zone is a run that breaks it. -/
theorem cf_pool_records_iff (cfg : Config) (hne : cfg.cfDomains ≠ [])
    (hdash : ∀ d ∈ cfg.cfDomains, Text.containsPattern d "-1.".toList = false) :
    (∀ ls s, Arrivals ls → (server cfg).run (System.initial World.start) ls = some s →
        PooledRecords cfg s) ↔
      cfg.cfBalance = false ∨ cfg.poolSize = 0 := by
  constructor
  · intro hall
    by_contra hcond
    rw [not_or, Bool.not_eq_false] at hcond
    obtain ⟨hbal, hpool⟩ := hcond
    obtain ⟨dc, -, hzone⟩ := notMem_cfWsDomains (spareZone cfg) cfg.cfDomains
    obtain ⟨ls, s, hls, hrun, r, hr, request, hdial, hhost⟩ :=
      exists_run_dials_zone hbal hne hpool ⟨dc, false, .ofNat dc, .intermediate⟩
    have hrecord := (hall ls s hls hrun).dials r hr _ _ hdial rfl
    rw [hhost] at hrecord
    exact hzone hrecord
  · exact fun hcond ls s hls hrun => run_pooledRecords cfg hdash hcond ls hls s hrun

/-! ## A pooled connection, without balancing and with it -/

/-- One zone, and one pooled connection. -/
def zoneConfig : Config := { smallConfig with cfDomains := ["example.com".toList] }

/-- A client of DC 2 connects through the zone, the refill opens the spare, and the next client
takes it. -/
def spareRun : List ServerLabel :=
  let client : ServerLabel := .start (.cfConnect .proxy ⟨2, false, 2, .intermediate⟩ [])
  client :: (smoothSteps 0 4 ++ smoothSteps 1 5 ++ client :: smoothSteps 2 2)

theorem arrivals_spareRun : Arrivals spareRun := by
  intro l hl tag htag
  subst htag
  simp only [spareRun, smoothSteps, List.mem_cons, List.mem_append, List.mem_replicate,
    reduceCtorEq, and_false, or_false, false_or, or_self] at hl
  cases hl
  trivial

theorem cf_pool_records_iff_spareRun :
    ∃ s, (server zoneConfig).run (System.initial World.start) spareRun = some s ∧
      s.trace.any (fun r => (poolHit r).isSome) = true ∧ PooledRecords zoneConfig s := by
  have hstate : ((server zoneConfig).run (System.initial World.start) spareRun).map
      (fun s => s.trace.any fun r => (poolHit r).isSome) = some true := by
    decide +kernel
  obtain ⟨s, hrun, hhit⟩ := Option.map_eq_some_iff.mp hstate
  exact ⟨s, hrun, hhit, (cf_pool_records_iff zoneConfig (by decide) (by decide +kernel)).mpr
    (.inl rfl) spareRun s arrivals_spareRun hrun⟩

/-- The same with `--cf-balance`. -/
def balancedZoneConfig : Config := { zoneConfig with cfBalance := true }

/-- With `--cf-balance` the spare is dialled at the bare zone, and the next client gets it. -/
theorem balanced_spare_dials_zone :
    (∀ d ∈ balancedZoneConfig.cfDomains, Text.containsPattern d "-1.".toList = false) ∧
      Arrivals spareRun ∧
      ∃ s, (server balancedZoneConfig).run (System.initial World.start) spareRun = some s ∧
        (s.trace.filterMap refillDial).map (fun x => (x.1.key, x.2.host)) =
          [((.proxy, 2, false), "example.com".toList)] ∧
        (s.trace.filterMap poolHit).map (fun x => (x.1, x.2.ws.request.host)) =
          [((.proxy, 2, false), "example.com".toList)] ∧
        ¬ PooledRecords balancedZoneConfig s := by
  refine ⟨by decide +kernel, arrivals_spareRun, ?_⟩
  have hstate : ((server balancedZoneConfig).run (System.initial World.start) spareRun).map
      (fun s : ServerState => decide ((s.trace.filterMap refillDial).map
          (fun x => (x.1.key, x.2.host)) = [((.proxy, 2, false), "example.com".toList)] ∧
        (s.trace.filterMap poolHit).map (fun x => (x.1, x.2.ws.request.host)) =
          [((.proxy, 2, false), "example.com".toList)])) = some true := by
    decide +kernel
  obtain ⟨s, hrun, hs⟩ := Option.map_eq_some_iff.mp hstate
  obtain ⟨hdials, hhits⟩ := of_decide_eq_true hs
  refine ⟨s, hrun, hdials, hhits, fun hrecords => ?_⟩
  have hmem : ((.proxy, 2, false), "example.com".toList) ∈
      (s.trace.filterMap poolHit).map (fun x => (x.1, x.2.ws.request.host)) := by
    rw [hhits]
    exact List.mem_singleton_self _
  obtain ⟨⟨key, entry⟩, hx, hpair⟩ := List.mem_map.mp hmem
  obtain ⟨r, hr, hhit⟩ := List.mem_filterMap.mp hx
  obtain ⟨rfl, hhost⟩ := Prod.mk.inj hpair
  have hrecord := hrecords.hits r hr 2 false entry hhit
  rw [hhost] at hrecord
  exact absurd hrecord (by decide +kernel)

end TgWsProxy
