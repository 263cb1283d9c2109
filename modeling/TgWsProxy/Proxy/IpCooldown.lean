import TgWsProxy.Pool.Capacity
import TgWsProxy.Proxy.Guarantees

set_option relaxedAutoImplicit false
set_option autoImplicit false

/-!
# The cooldown of addresses

An address whose TCP connect timed out is stepped over for a while. Two laws about that cooldown,
over all runs of concurrent connections: a direct connect that succeeds ends it, and only a timeout
at the full budget begins it. Neither holds in every run, and each holds exactly in the runs that
avoid one kind of step.

## Main definitions

* `TgWsProxy.EndsIpCooldown`, `FrontsUnblocked` — the first law, and the steps that keep it.
* `TgWsProxy.BlocksOnFullBudget`, `ReadsAgree` — the second law, and the steps that keep it.

## Main results

* `TgWsProxy.endsIpCooldown_iff` — a direct connect ends the cooldown of its address exactly if no
  fronted connect completes while its address cools.
* `TgWsProxy.blocksOnFullBudget_iff` — only full timeouts block an address exactly if the two reads
  of the DC cooldown agree in every connect that blocks its address.
-/

namespace TgWsProxy

open Process Route

variable {cfg : Config}

/-! ## A direct connect ends the cooldown of its address -/

/-- If the step completes a `direct_ws` with a stream, the address is not in cooldown after it. -/
def EndsIpCooldown (cfg : Config) (s : ServerState) (l : ServerLabel) : Prop :=
  ∀ s' i env route ip events ws, (server cfg).step s l = some s' → l = .step i env →
    System.InCall (server cfg) s' i (directWs cfg route ip) events (.ret (some ws)) →
    s'.world.cooling (.ipFail ip) = false

/-- If the step completes a fronted connect, sticky or reactive, the address is not in cooldown
before it. -/
def FrontsUnblocked (cfg : Config) (s : ServerState) (l : ServerLabel) : Prop :=
  ∀ i env route ip events ws, l = .step i env →
    System.InCall (server cfg) s i (directWs cfg route ip) events
      (.act .activateFronting fun _ => .ret (some ws)) →
    (s.world.later env.elapsed).cooling (.ipFail ip) = false

variable (cfg) in
/-- A cooldown that was just cleared is over. -/
theorem cooling_cooldownClear (key : CooldownKey) (env : Env) (w : World) :
    (exec cfg (.cooldownClear key) env w).2.1.cooling key = false := by
  simp [World.cooling, exec, execAt]

/-- What `direct_ws` performs last before it returns a stream. -/
theorem directWs_last {ip : Host} {route : Route} {events : History} {ws : Stream}
    (h : Path (directWs cfg route ip) events (.ret (some ws))) :
    ∃ before e, events = before ++ [e] ∧
      (e = ⟨.cooldownClear (.ipFail ip), ()⟩ ∨ e = ⟨.activateFronting, ()⟩) := by
  have hobeys : Obeys (DirectGuar cfg route) (DirectEnds ip) [] (directWs cfg route ip) :=
    directWs_obeys ip rfl
  exact DirectEnds.last (hobeys.path h) ws rfl

/-- **One step.** It keeps the law exactly if it does not complete a fronted connect to an address
in cooldown. -/
theorem step_endsIpCooldown_iff {s : ServerState} (hs : System.PathState (server cfg) s)
    (l : ServerLabel) : EndsIpCooldown cfg s l ↔ FrontsUnblocked cfg s l := by
  constructor
  · intro hends i env route ip events ws hl hcall
    subst hl
    obtain ⟨tag, after, htask⟩ := hcall.task hs
    obtain ⟨r, -, hcall'⟩ := hcall.perform hs env htask
    refine hends _ i env route ip _ ws ?_ rfl hcall'
    rw [System.step, htask]
    rfl
  · intro hunblocked s' i env route ip events ws hstep hl hcall
    subst hl
    rcases System.step_cases hstep with ⟨tag, hl, -⟩ | ⟨j, env', tag, op, next, hl, htask, rfl⟩
    · cases hl
    cases hl
    obtain ⟨t, before, after, -, -, -, hpath⟩ := id hcall
    obtain ⟨earlier, e, rfl, hlast⟩ := directWs_last hpath
    obtain ⟨he, next', hcall', hrest⟩ := hcall.before_perform htask
    rcases hlast with rfl | rfl
    · -- a plain hostname answered: the cooldown was cleared
      cases he
      exact cooling_cooldownClear cfg _ env s.world
    · -- a fronted connect: the cooldown is as it was
      cases he
      have hnext : next' = fun _ => .ret (some ws) := funext fun _ => hrest
      rw [hnext] at hcall'
      exact hunblocked i env route ip earlier ws rfl hcall'

/-- **A direct connect ends the cooldown of its address** in a run of the server exactly if no
fronted connect, sticky or reactive, completes while its address is in cooldown.

**Proof sketch.** `direct_ws` returns a stream right after clearing the cooldown of its address, or
right after opening the fronting window, and the latter leaves the cooldown as it was. -/
theorem endsIpCooldown_iff (cfg : Config) (ls : List ServerLabel) :
    (server cfg).Along (EndsIpCooldown cfg) (System.initial World.start) ls ↔
      (server cfg).Along (FrontsUnblocked cfg) (System.initial World.start) ls :=
  System.along_congr (fun _ _ _ hs hstep => System.step_path hs hstep)
    (fun _ l hs => step_endsIpCooldown_iff hs l) (System.pathState_initial World.start)

/-! ### A fronted connect to a blocked address -/

/-- A configuration with fronting and no other fallback. -/
def frontingConfig : Config :=
  { smallConfig with frontingDomain := some "front.example".toList }

/-- The address of DC 2. -/
def dcTwoIp : Host := "149.154.167.51".toList

/-- Steps of task `i`, one for each outcome of a connect. -/
def outcomeSteps (i : ℕ) (outcomes : List DialOutcome) : List ServerLabel :=
  outcomes.map fun outcome => .step i { smoothEnv with outcome }

/-- The TCP connects of one client time out, which blocks the address; the handshakes of the next
one stall, and its fronted retry connects. -/
def frontedRun : List ServerLabel :=
  .start (.client dcTwo) ::
    (smoothSteps 0 7 ++ outcomeSteps 0 [.connectTimedOut [], .connectTimedOut []] ++
    smoothSteps 0 2 ++
  .start (.client dcTwo) ::
    (smoothSteps 2 7 ++ outcomeSteps 2 [.timedOut, .timedOut] ++ smoothSteps 2 4))

/-- What the second client performs before its `direct_ws`. -/
def frontedBefore : History :=
  [⟨.cooldownActive (.ipFail dcTwoIp), true⟩, ⟨.cooldownActive (.ipFail dcTwoIp), true⟩,
   ⟨.now, (0 : ℕ)⟩, ⟨.poolTake (2, false) 0 none, none⟩]

/-- The stream it gets. -/
def frontedStream : Stream :=
  ⟨0, apiwsRequest dcTwoIp "kws2.web.telegram.org".toList false 2 frontingConfig.frontingDomain⟩

/-- What its `direct_ws` performs before it opens the fronting window. -/
def frontedEvents : History :=
  [⟨.frontingActive, false⟩, ⟨.cooldownActive (.wsFail 2 false), true⟩,
   ⟨.cooldownActive (.wsFail 2 false), true⟩,
   ⟨.dial (apiwsRequest dcTwoIp "kws2.web.telegram.org".toList false 2 none), .timedOut⟩,
   ⟨.dial (apiwsRequest dcTwoIp "kws2-1.web.telegram.org".toList false 2 none), .timedOut⟩,
   ⟨.cooldownActive (.frontingFail 2 false), false⟩,
   ⟨.cooldownActive (.wsFail 2 false), true⟩,
   ⟨.dial frontedStream.request, .connected frontedStream⟩,
   ⟨.cooldownClear (.frontingFail 2 false), ()⟩]

theorem frontedEvents_path : Path (directWs frontingConfig dcTwo dcTwoIp) frontedEvents
    (.act .activateFronting fun _ => .ret (some frontedStream)) :=
  .step (.step (.step (.step (.step (.step (.step (.step (.step (.here _)))))))))

theorem frontedBefore_path : ∃ after, Path (body frontingConfig (.client dcTwo)) frontedBefore
    (directWs frontingConfig dcTwo dcTwoIp >>= after) :=
  ⟨_, .step (.step (.step (.step (.here _))))⟩

/-- The fronted connect succeeds, and the address is still in cooldown after it. -/
theorem fronted_keeps_ipCooldown :
    ¬ (server frontingConfig).Along (EndsIpCooldown frontingConfig) (System.initial World.start)
      (frontedRun ++ [.step 2 smoothEnv]) := by
  intro hends
  have hrun : ((server frontingConfig).run (System.initial World.start) frontedRun).map
      (fun s => (s.tasks[2]?.map (·.tag), System.eventsOf s.trace 2,
        (s.world.later 0).cooling (.ipFail dcTwoIp))) =
      some (some (.client dcTwo), frontedBefore ++ frontedEvents, true) := by decide +kernel
  obtain ⟨s, hs, hfacts⟩ := Option.map_eq_some_iff.mp hrun
  simp only [Prod.mk.injEq] at hfacts
  obtain ⟨htag, hevents, hcooling⟩ := hfacts
  obtain ⟨t, ht, htag⟩ := Option.map_eq_some_iff.mp htag
  obtain ⟨after, hbefore⟩ := frontedBefore_path
  have hcall : System.InCall (server frontingConfig) s 2 (directWs frontingConfig dcTwo dcTwoIp)
      frontedEvents (.act .activateFronting fun _ => .ret (some frontedStream)) :=
    ⟨t, frontedBefore, after, ht, hevents, htag ▸ hbefore, frontedEvents_path⟩
  have hunblocked := (step_endsIpCooldown_iff (pathState_of_run hs) _).mp (hends.of_run hs)
  have hclear := hunblocked 2 smoothEnv dcTwo dcTwoIp _ _ rfl hcall
  rw [show smoothEnv.elapsed = 0 from rfl, hcooling] at hclear
  cases hclear

/-! ## Only a timeout at the full budget blocks an address -/

/-- If the step blocks an address, a TCP connect to it timed out in the running `direct_ws`, and
the first that did had the full connect timeout. -/
def BlocksOnFullBudget (cfg : Config) (s : ServerState) (l : ServerLabel) : Prop :=
  ∀ i env ip cooldown, l = .step i env →
    System.nextOp s i = some (.cooldownSet (.ipFail ip) cooldown) →
    TimedOutAt ip cfg.timeouts.wsConnect (System.eventsOf s.trace i)

/-- If the step blocks an address, the cooldown of its DC did not become active between the two
reads of the running `direct_ws`, or the probe is not shorter anyway. -/
def ReadsAgree (cfg : Config) (s : ServerState) (l : ServerLabel) : Prop :=
  ∀ i env ip cooldown, l = .step i env →
    System.nextOp s i = some (.cooldownSet (.ipFail ip) cooldown) →
    readsDisagree (sinceDirect (System.eventsOf s.trace i)) = false ∨
      cfg.timeouts.wsFailProbe = cfg.timeouts.wsConnect

/-- The first connect to time out determines its timeout. -/
theorem TimedOutAt.unique {ip ip' : Host} {timeout timeout' : ℕ} {history : History}
    (h : TimedOutAt ip timeout history) (h' : TimedOutAt ip' timeout' history) :
    timeout = timeout' := by
  obtain ⟨request, hrequest, -, rfl⟩ := h
  obtain ⟨request', hrequest', -, rfl⟩ := h'
  rw [hrequest] at hrequest'
  cases hrequest'
  rfl

/-- A connection that is about to block an address had a TCP connect to it time out. -/
theorem timedOutAt_of_block {s : ServerState} (hs : System.PathState (server cfg) s) {i : ℕ}
    {ip : Host} {cooldown : ℕ}
    (hop : System.nextOp s i = some (.cooldownSet (.ipFail ip) cooldown)) :
    TimedOutAt ip (attemptTimeout cfg (System.eventsOf s.trace i)) (System.eventsOf s.trace i) := by
  obtain ⟨tag, next, htask⟩ := System.nextOp_eq_some.mp hop
  have hguar := run_next hs htask
  by_cases htag : ∃ route, tag = .client route
  · obtain ⟨route, rfl⟩ := htag
    exact DirectGuar.block hguar ip cooldown rfl
  · rw [not_exists] at htag
    exact absurd (hguar.background htag) id

/-- **Only full timeouts block an address** in a run of the server, whatever its interleaving,
exactly if in every connect that blocks its address the two reads of the DC cooldown agree, or the
short timeout is configured to be the full one.

**Proof sketch.** A connect that blocks its address read the DC cooldown as inactive first; the
second read decided on the timeout of the attempt, and the first TCP connect to time out belongs to
that attempt. -/
theorem blocksOnFullBudget_iff (cfg : Config) (ls : List ServerLabel) :
    (server cfg).Along (BlocksOnFullBudget cfg) (System.initial World.start) ls ↔
      (server cfg).Along (ReadsAgree cfg) (System.initial World.start) ls := by
  refine System.along_congr (fun _ _ _ hs hstep => System.step_path hs hstep) (fun s l hs => ?_)
    (System.pathState_initial World.start)
  refine forall_congr' fun i => forall_congr' fun env => forall_congr' fun ip =>
    forall_congr' fun cooldown => forall_congr' fun _ => forall_congr' fun hop => ?_
  have hblock := timedOutAt_of_block hs hop
  rw [attemptTimeout] at hblock
  constructor
  · intro hfull
    have htimeout := hblock.unique hfull
    cases hreads : readsDisagree (sinceDirect (System.eventsOf s.trace i)) with
    | false => exact .inl rfl
    | true =>
      rw [hreads] at htimeout
      exact .inr htimeout
  · rintro (hreads | hequal)
    · rwa [hreads] at hblock
    · rwa [hequal, ite_self] at hblock

/-! ### A short probe that blocks an address -/

/-- Two clients of one DC. After the first has read the DC cooldown, the connects of the second
fail and set it; the first goes on with the short timeout, and its TCP connects time out. -/
def probeRun : List ServerLabel :=
  .start (.client dcTwo) :: .start (.client dcTwo) ::
    (smoothSteps 0 6 ++
    smoothSteps 1 7 ++ outcomeSteps 1 [.failed [], .failed []] ++ smoothSteps 1 1 ++
    smoothSteps 0 1 ++ outcomeSteps 0 [.connectTimedOut [], .connectTimedOut []] ++
    smoothSteps 0 1)

/-- The first client blocks its address although its connects had the short timeout. -/
theorem probe_blocks_address :
    ¬ (server smallConfig).Along (BlocksOnFullBudget smallConfig) (System.initial World.start)
      (probeRun ++ [.step 0 smoothEnv]) := by
  intro hblocks
  have hrun : ((server smallConfig).run (System.initial World.start) probeRun).map
      (fun s => (System.nextOp s 0, ((sinceDirect (System.eventsOf s.trace 0)).findSome?
        connectTimeout).map DialRequest.timeout)) =
      some (some (.cooldownSet (.ipFail dcTwoIp) 3600), some 2) := by decide +kernel
  obtain ⟨s, hs, hfacts⟩ := Option.map_eq_some_iff.mp hrun
  rw [Prod.mk.injEq] at hfacts
  obtain ⟨request, hrequest, -, hfull⟩ := hblocks.of_run hs 0 smoothEnv dcTwoIp 3600 rfl hfacts.1
  have hshort := hfacts.2
  rw [hrequest, Option.map_some, hfull] at hshort
  cases hshort

end TgWsProxy
