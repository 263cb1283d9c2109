import TgWsProxy.Deadlines
import TgWsProxy.Proxy.DirectRules
import TgWsProxy.Proxy.TierRules
import TgWsProxy.Server

set_option relaxedAutoImplicit false
set_option autoImplicit false

/-!
# The cooldown maps under the server

A run of the server in step with the maps of `CooldownMap`. The tasks set the configured cooldowns
and no others, so as long as the clock leaves room for those, every call of the maps returns, with
the answer that the world has.

## Main definitions

* `TgWsProxy.Returns`, `StepReturns`, `MapsReturn` — an operation, a step and a run whose calls of
  the maps return.
* `TgWsProxy.ClockInRange` — the clock leaves room for the configured cooldowns.

## Main results

* `TgWsProxy.cooldown_relyGuarantee` — the tasks set the configured cooldowns only.
* `TgWsProxy.run_mapsReturn` — in every run within the range, every call returns.
-/

namespace TgWsProxy

open Process Route

/-! ## Which cooldowns are set -/

/-- A task sets the configured cooldowns only. -/
def CooldownGuar (cfg : Config) : Op → Prop
  | .cooldownSet _ cooldown => cooldown ∈ cfg.timeouts.cooldowns
  | _ => True

variable {cfg : Config}

theorem cooldownGuar_inner (op : Op) (h : op.Inner cfg) : CooldownGuar cfg op := by
  cases op with
  | cooldownSet key cooldown => exact h
  | _ => trivial

theorem cooldown_tierRules : TierRules cfg (CooldownGuar cfg) fun _ _ => True where
  now := trivial
  take _ _ := trivial
  advance _ := trivial
  dial _ _ := trivial
  active _ := trivial
  clear _ := trivial
  set _ _ _ _ _ _ hmem := hmem
  hit _ _ _ _ _ _ := trivial

theorem cooldown_directRules (ip : Host) (skipTls : Bool) :
    DirectRules cfg (CooldownGuar cfg) (fun _ _ => True) ip skipTls fun _ => True where
  inner := cooldownGuar_inner
  dial _ _ _ := trivial
  opens _ _ _ _ _ := trivial

/-- **The tasks of the server** set the configured cooldowns only. -/
theorem cooldown_relyGuarantee :
    System.RelyGuarantee (server cfg) (fun _ => True) (fun _ => True) (fun _ => True)
      (fun _ => CooldownGuar cfg) fun _ _ => True where
  exec _ _ _ _ _ _ _ _ := ⟨trivial, trivial, fun _ _ => trivial⟩
  body tag _ := by
    cases tag with
    | client route =>
      exact selectUpstream_safe cooldownGuar_inner
        (fun dst => cfWorker_safe cooldown_tierRules route dst fun _ _ => trivial)
        (cfProxy_safe_any cooldown_tierRules route fun _ => trivial)
        fun ip _ => directTier_safe (cooldown_directRules ip _) route fun _ _ _ => trivial
    | get args allowRefill =>
      exact safe_bind (get_safe cooldownGuar_inner (fun _ _ _ => trivial) _) fun _ _ => trivial
    | cfConnect tier route dst =>
      cases tier with
      | worker =>
        exact safe_bind (cfWorker_safe cooldown_tierRules route dst fun _ _ => trivial)
          fun _ _ => trivial
      | proxy =>
        exact safe_bind (cfProxy_safe_any cooldown_tierRules route fun _ => trivial)
          fun _ _ => trivial
    | warmup dcs =>
      exact safe_bind (warmup_safe (fun d _ => cooldown_directRules d.2 _)
        fun _ _ _ _ _ => trivial) fun _ _ => trivial
    | refill args =>
      exact safe_bind (refill_safe (cooldown_directRules args.targetIp _) fun _ _ => trivial)
        fun _ _ => trivial
    | cfRefill t =>
      exact safe_bind (cfRefill_safe_any trivial trivial trivial (fun _ => trivial)
        fun _ => trivial) fun _ _ => trivial

/-! ## Runs in step with the maps -/

/-- The calls of the maps that an operation makes at an instant return with its response, and leave
the maps as `m'`. -/
def Returns (cfg : Config) (m : CooldownMap CooldownKey) (now : Instant) :
    (op : Op) → op.Resp → CooldownMap CooldownKey → Prop
  | .cooldownSet key cooldown, _, m' => m.set key cooldown now = (true, m')
  | .cooldownClear key, _, m' => m.clear key = (true, m')
  | .cooldownActive key, answer, m' => m.active key now = some answer ∧ m' = m
  | .activateFronting, _, m' =>
    (activateFronting now cfg.frontingCooldown).isSome = true ∧ m' = m
  | _, _, m' => m' = m

/-- A step whose calls return; `start` is the instant at which the clock read zero. -/
def StepReturns (start : Instant) (cfg : Config) (s : ServerState) (m : CooldownMap CooldownKey)
    (l : ServerLabel) (m' : CooldownMap CooldownKey) : Prop :=
  match l with
  | .start _ => m' = m
  | .step i env => ∀ tag op next, s.tasks[i]? = some ⟨tag, .act op next⟩ →
      ∃ now, start.add (s.world.clock + env.elapsed) = some now ∧
        Returns cfg m now op (exec cfg op env s.world).1 m'

/-- A run whose calls all return. -/
def MapsReturn (start : Instant) (cfg : Config) :
    ServerState → CooldownMap CooldownKey → List ServerLabel → Prop
  | _, _, [] => True
  | s, m, l :: ls => ∀ s', (server cfg).step s l = some s' →
      ∃ m', StepReturns start cfg s m l m' ∧ MapsReturn start cfg s' m' ls

/-- The durations that deadlines are computed from. -/
def Config.deadlineCooldowns (cfg : Config) : List ℕ :=
  cfg.frontingCooldown :: cfg.timeouts.cooldowns

/-- At the step, the clock leaves room for the configured cooldowns. -/
def ClockInRange (start : Instant) (cfg : Config) (s : ServerState) (l : ServerLabel) : Prop :=
  ∀ i env, l = .step i env → ∀ cooldown ∈ cfg.deadlineCooldowns,
    start.secs + (s.world.clock + env.elapsed : ℕ) + cooldown < 2 ^ 63

variable {start : Instant} {m : CooldownMap CooldownKey}

/-- Within the range there is an instant for the step, and room behind it. -/
theorem instant_of_inRange {n : ℕ}
    (h : ∀ cooldown ∈ cfg.deadlineCooldowns, start.secs + (n : ℕ) + cooldown < 2 ^ 63) :
    ∃ now, start.add n = some now ∧
      ∀ cooldown ∈ cfg.deadlineCooldowns, now.secs + cooldown < 2 ^ 63 := by
  have hfronting := h cfg.frontingCooldown List.mem_cons_self
  obtain ⟨now, hnow⟩ := Option.isSome_iff_exists.mp
    (Instant.isSome_add_iff.mpr (show start.secs + n < 2 ^ 63 by omega))
  refine ⟨now, hnow, fun cooldown hmem => ?_⟩
  rw [Instant.secs_add hnow]
  exact h cooldown hmem

/-- **One operation** at an instant with room keeps maps and world together, and its calls
return. -/
theorem represents_exec {w : World} {env : Env} {now : Instant} (h : Represents start m w)
    (hnow : start.add (w.clock + env.elapsed) = some now)
    (hrange : ∀ cooldown ∈ cfg.deadlineCooldowns, now.secs + cooldown < 2 ^ 63) (op : Op)
    (hop : CooldownGuar cfg op) :
    ∃ m', Returns cfg m now op (exec cfg op env w).1 m' ∧
      Represents start m' (exec cfg op env w).2.1 := by
  have hsame : (∀ key, (exec cfg op env w).2.1.cooldowns key = w.cooldowns key) →
      Represents start m (exec cfg op env w).2.1 := fun hkeep =>
    ⟨h.sound, fun key => (h.entries key).trans (by rw [hkeep key]), fun key d hd =>
      h.inRange key d (by rwa [hkeep key] at hd)⟩
  have hkept : (∀ key cooldown, op ≠ .cooldownSet key cooldown) →
      (∀ key, op ≠ .cooldownClear key) → Represents start m (exec cfg op env w).2.1 := by
    intro hset hclear
    refine hsame fun key => ?_
    obtain hkeep | ⟨cooldown, hop, -⟩ | ⟨hop, -⟩ := exec_cooldowns cfg op env w key
    · exact hkeep
    · exact absurd hop (hset key cooldown)
    · exact absurd hop (hclear key)
  cases op with
  | cooldownSet key cooldown =>
    obtain ⟨hreturns, hrep⟩ := h.cooldownSet hnow (hrange _ (List.mem_cons_of_mem _ hop)) key
    exact ⟨_, Prod.ext hreturns rfl, hrep⟩
  | cooldownClear key =>
    obtain ⟨hreturns, hrep⟩ := h.cooldownClear key
    exact ⟨_, Prod.ext hreturns rfl, hrep⟩
  | cooldownActive key => exact ⟨m, ⟨h.cooldownActive hnow key, rfl⟩, hkept nofun nofun⟩
  | activateFronting =>
    refine ⟨m, ⟨?_, rfl⟩, hkept nofun nofun⟩
    rw [activateFronting, Option.isSome_map, Instant.isSome_add_iff]
    exact hrange _ List.mem_cons_self
  | _ => exact ⟨m, rfl, hkept nofun nofun⟩

/-- **Runs within the range.** From a state that the maps represent, every call of a run returns if
the clock leaves room at each step. -/
theorem mapsReturn_of_inRange {s : ServerState} (hrep : Represents start m s.world)
    (hsafe : System.SafeState (server cfg) (fun _ => True) (fun _ => True)
      (fun _ => CooldownGuar cfg) (fun _ _ => True) s) {ls : List ServerLabel}
    (hrange : (server cfg).Along (ClockInRange start cfg) s ls) :
    MapsReturn start cfg s m ls := by
  induction ls generalizing s m with
  | nil => trivial
  | cons l ls ih =>
    intro s' hstep
    have hadmits : System.Admits (fun _ : Env => True) (fun _ : Tag => True) l := by
      cases l <;> trivial
    have hsafe' := System.step_safe cooldown_relyGuarantee hadmits hsafe hstep
    have hrest := hrange.2 s' hstep
    rcases System.step_cases hstep with ⟨tag, rfl, rfl⟩ | ⟨i, env, tag, op, next, rfl, htask, rfl⟩
    · exact ⟨m, rfl, ih hrep hsafe' hrest⟩
    · obtain ⟨now, hnow, hroom⟩ := instant_of_inRange (hrange.1 i env rfl)
      have hop : CooldownGuar cfg op := (hsafe.tasks _ (List.mem_of_getElem? htask)).1
      obtain ⟨m', hreturns, hrep'⟩ := represents_exec hrep hnow hroom op hop
      refine ⟨m', fun tag' op' next' htask' => ?_, ih hrep' hsafe' hrest⟩
      rw [htask] at htask'
      cases htask'
      exact ⟨now, hnow, hreturns⟩

/-- In every run of the server from its start, whatever tasks arrive and however their steps
interleave. -/
theorem run_mapsReturn (start : Instant) (cfg : Config) (ls : List ServerLabel)
    (hrange : (server cfg).Along (ClockInRange start cfg) (System.initial World.start) ls) :
    MapsReturn start cfg (System.initial World.start) .new ls :=
  mapsReturn_of_inRange (.new start) (System.safeState_initial trivial) hrange

end TgWsProxy
