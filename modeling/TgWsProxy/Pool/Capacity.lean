import TgWsProxy.Server

set_option relaxedAutoImplicit false
set_option autoImplicit false

/-!
# The capacity of the direct pool

A refill looks at the bucket again when it pushes and drops what does not fit. The startup warm-up
pushes everything it opened, so a refill that filled the bucket meanwhile makes it overflow.

## Main definitions

* `TgWsProxy.WithinCapacity` — no bucket holds more than `pool_size` connections.
* `TgWsProxy.WarmupFits` — a step that, if it is a warm-up's push, finds room for all of it.

## Main results

* `TgWsProxy.step_within_iff` — a step from within the capacity stays within exactly if it fits.
* `TgWsProxy.run_within_iff` — a run stays within the capacity exactly if all its steps fit.
-/

namespace TgWsProxy

open Process

/-- No bucket of the direct pool holds more than `pool_size` connections. -/
def WithinCapacity (cfg : Config) (s : ServerState) : Prop :=
  ∀ key, (s.world.idle key).length ≤ cfg.poolSize

/-- If the next step pushes the batch of a warm-up, the bucket has room for all of it. -/
def WarmupFits (cfg : Config) (s : ServerState) (l : ServerLabel) : Prop :=
  ∀ i env tag key conns next, l = .step i env →
    s.tasks[i]? = some ⟨tag, .act (.warmupPush key conns) next⟩ →
    (s.world.idle key).length + conns.length ≤ cfg.poolSize

/-- **The step lemma.** From within the capacity, a step stays within it exactly if a warm-up's
push fits. -/
theorem step_within_iff {cfg : Config} {s s' : ServerState} {l : ServerLabel}
    (hs : WithinCapacity cfg s) (hstep : (server cfg).step s l = some s') :
    WithinCapacity cfg s' ↔ WarmupFits cfg s l := by
  rcases System.step_cases hstep with ⟨tag, rfl, rfl⟩ | ⟨i, env, tag, op, next, rfl, htask, rfl⟩
  · constructor
    · intro _ i env tag' key conns next hl
      cases hl
    · exact fun _ => hs
  · constructor
    · intro hs' j env' tag' key conns next' hl htask'
      cases hl
      rw [htask] at htask'
      cases htask'
      have hlen := hs' key
      simpa [System.perform, server, exec, execAt, World.push] using hlen
    · intro hfits key
      have hold := hs key
      change ((exec cfg op env s.world).2.1.idle key).length ≤ cfg.poolSize
      rcases exec_idle cfg op env s.world key with
        hsame | ⟨now, refill, -, hpre⟩ | ⟨conns, -, hpush⟩ | ⟨conns, rfl, hpush⟩
      · rw [hsame]
        exact hold
      · exact hpre.length_le.trans hold
      · rw [hpush]
        simp only [List.length_append, length_entries, List.length_take]
        omega
      · have hroom := hfits i env tag key conns next rfl htask
        rw [hpush]
        simpa using hroom

/-- **Capacity of the direct pool.** From any state within the capacity and for every interleaving
of tasks: every state on the way is within the capacity if and only if every push of a warm-up
finds room for everything it opened. -/
theorem along_within_iff (cfg : Config) (ls : List ServerLabel) :
    ∀ s : ServerState, WithinCapacity cfg s →
      ((∀ pre, pre <+: ls → ∀ s', (server cfg).run s pre = some s' → WithinCapacity cfg s') ↔
        (server cfg).Along (WarmupFits cfg) s ls) := by
  induction ls with
  | nil =>
    intro s hs
    refine ⟨fun _ => trivial, fun _ pre hpre s' hrun => ?_⟩
    rw [List.prefix_nil.mp hpre] at hrun
    cases hrun
    exact hs
  | cons l ls ih =>
    intro s hs
    constructor
    · intro hall
      have hone : ∀ s₁, (server cfg).step s l = some s₁ → WithinCapacity cfg s₁ := by
        intro s₁ hs₁
        exact hall [l] (by simp) s₁ (by simp [System.run, hs₁])
      refine ⟨?_, fun s₁ hs₁ => (ih s₁ (hone s₁ hs₁)).mp fun pre hpre s' hrun => ?_⟩
      · cases hstep : (server cfg).step s l with
        | none =>
          -- a step that does not happen pushes nothing
          intro i env tag key conns next hl htask
          subst hl
          simp [System.step, htask] at hstep
        | some s₁ => exact (step_within_iff hs hstep).mp (hone s₁ hstep)
      · exact hall (l :: pre) (by simpa using hpre) s' (by simp [System.run, hs₁, hrun])
    · rintro ⟨hfits, hrest⟩ pre hpre s' hrun
      cases pre with
      | nil =>
        cases hrun
        exact hs
      | cons m pre =>
        obtain ⟨rfl, htail⟩ := List.cons_prefix_cons.mp hpre
        obtain ⟨s₁, hs₁, hrun⟩ := Option.bind_eq_some_iff.mp hrun
        have hwithin := (step_within_iff hs hs₁).mpr hfits
        exact (ih s₁ hwithin).mpr (hrest s₁ hs₁) pre htail s' hrun

/-- **Capacity of the direct pool.** In every run of the server from its start, whatever tasks
arrive and however their steps interleave: no bucket ever holds more than `pool_size` connections
if and only if every push of a warm-up finds room for everything it opened. -/
theorem run_within_iff (cfg : Config) (ls : List ServerLabel) :
    (∀ pre, pre <+: ls → ∀ s, (server cfg).run (System.initial World.start) pre = some s →
        WithinCapacity cfg s) ↔
      (server cfg).Along (WarmupFits cfg) (System.initial World.start) ls :=
  along_within_iff cfg ls _ fun _ => Nat.zero_le _

/-! ## An overflow -/

/-- A configuration with pools of one connection and DC 2 at its built-in address. -/
def smallConfig : Config where
  dcIp := [(2, "149.154.167.51".toList)]
  skipTlsVerify := false
  poolSize := 1
  poolMaxAge := 60
  cfPriority := false
  cfBalance := false
  cfDomains := []
  cfWorkerDomains := []
  mtprotoProxies := []
  frontingDomain := none
  frontingCooldown := 1800
  timeouts := ⟨10, 2, 60, 300, 3600, 10, 60, 10, 60, 600⟩

/-- The same with a Worker and no DC of its own. -/
def workerConfig : Config :=
  { smallConfig with dcIp := [], cfWorkerDomains := ["worker.example.dev".toList] }

/-- A connection to DC 2. -/
def dcTwo : Route := ⟨2, false, 2, .intermediate⟩

/-- An environment in which every connect succeeds at once and idle connections stay quiet. -/
def smoothEnv : Env := ⟨0, .connected, some false, fun _ => false, fun _ => 0⟩

/-- Steps of task `i` in that environment. -/
def smoothSteps (i count : ℕ) : List ServerLabel := List.replicate count (.step i smoothEnv)

/-- DC 2 is warmed up; while the warm-up's connection is open but not pushed, a client finds the
bucket empty and its refill fills it. -/
def overflowRun : List ServerLabel :=
  .start (.warmup [(2, "149.154.167.51".toList)]) ::
  .start (.get ⟨2, false, "149.154.167.51".toList, false⟩ true) ::
    -- the warm-up reads the fronting window and connects
    (smoothSteps 0 2 ++
    -- the client misses, which starts task 2
    smoothSteps 1 2 ++
    -- the refill registers, measures, connects and pushes
    smoothSteps 2 5 ++
    -- the warm-up pushes
    smoothSteps 0 1)

/-- With `pool_size` one, one warm-up and one `get`, a bucket comes to hold two connections. -/
theorem warmup_overflows_bucket :
    ∃ s, (server smallConfig).run (System.initial World.start) overflowRun = some s ∧
      (s.world.idle (2, false)).length = 2 ∧ ¬ WithinCapacity smallConfig s := by
  have hlen : ((server smallConfig).run (System.initial World.start) overflowRun).map
      (fun s => (s.world.idle (2, false)).length) = some 2 := by decide +kernel
  obtain ⟨s, hs, htwo⟩ := Option.map_eq_some_iff.mp hlen
  refine ⟨s, hs, htwo, fun h => ?_⟩
  have := h (2, false)
  rw [htwo] at this
  exact absurd this (by decide)

end TgWsProxy
