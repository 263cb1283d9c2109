import TgWsProxy.World

set_option relaxedAutoImplicit false
set_option autoImplicit false

/-!
# Deadlines

`CooldownMap` of `proxy.rs` and the fronting window of `runtime.rs` as they are implemented: a
deadline is an `Instant`, whose seconds are an `i64`, and the map is behind a mutex. An addition
beyond the range panics. In `CooldownMap::set` it does so with the lock held, which poisons the
mutex for every later call.

## Main definitions

* `TgWsProxy.Instant`, `Instant.add` — instants, and the addition of whole seconds.
* `TgWsProxy.CooldownMap` — the map, with `set`, `clear` and `active`.
* `TgWsProxy.activateFronting` — `Runtime::activate_fronting`.
* `TgWsProxy.Represents` — a map and the cooldowns of the world.

## Main results

* `TgWsProxy.CooldownMap.run_returns_iff` — every call of a run returns exactly if every deadline is
  within the range.
* `TgWsProxy.CooldownMap.run_poisoned` — after one that is not, no call returns.
* `TgWsProxy.Represents.cooldownSet`, `cooldownClear`, `cooldownActive` — within the range the map
  does what the operations of the world do.
-/

namespace TgWsProxy

/-! ## Instants -/

/-- `Instant`: seconds in an `i64`, and nanoseconds. -/
structure Instant where
  secs : ℤ
  nanos : ℕ
  lower : -2 ^ 63 ≤ secs
  upper : secs < 2 ^ 63
  nanos_lt : nanos < 1000000000

namespace Instant

/-- `now + Duration::from_secs(secs)`; `none` is its panic. -/
def add (now : Instant) (secs : ℕ) : Option Instant :=
  if h : now.secs + secs < 2 ^ 63 then
    some { now with secs := now.secs + secs, lower := by have := now.lower; omega, upper := h }
  else none

/-- `now < deadline`. -/
def before (now deadline : Instant) : Bool :=
  now.secs < deadline.secs || (now.secs == deadline.secs && now.nanos < deadline.nanos)

variable {t now later : Instant} {n c : ℕ}

/-- The range of an addition. -/
theorem isSome_add_iff : (now.add c).isSome = true ↔ now.secs + c < 2 ^ 63 := by
  unfold add
  split_ifs with h
  · exact iff_of_true rfl h
  · exact iff_of_false Bool.false_ne_true h

theorem secs_add (h : now.add c = some later) : later.secs = now.secs + c := by
  unfold add at h
  split_ifs at h
  cases h
  rfl

theorem nanos_add (h : now.add c = some later) : later.nanos = now.nanos := by
  unfold add at h
  split_ifs at h
  cases h
  rfl

/-- Seconds behind an instant that is itself some seconds behind another. -/
theorem add_of_add (h : t.add n = some now) (c : ℕ) : now.add c = t.add (n + c) := by
  have hsecs := secs_add h
  have hnanos := nanos_add h
  obtain ⟨secs, nanos, _, _, _⟩ := now
  simp only at hsecs hnanos
  subst hsecs hnanos
  simp only [add, Nat.cast_add, add_assoc]

/-- Instants compare as the seconds behind a common one. -/
theorem before_iff {d : ℕ} {deadline : Instant} (hnow : t.add n = some now)
    (hdeadline : t.add d = some deadline) : now.before deadline = true ↔ n < d := by
  have h₁ := secs_add hnow
  have h₂ := secs_add hdeadline
  have h₃ := nanos_add hnow
  have h₄ := nanos_add hdeadline
  simp only [before, h₁, h₂, h₃, h₄, lt_self_iff_false, decide_false, Bool.and_false,
    Bool.or_false, decide_eq_true_eq]
  omega

end Instant

/-! ## The map -/

/-- `CooldownMap`: the entries, and whether the mutex is poisoned. -/
structure CooldownMap (K : Type) where
  entries : K → Option Instant
  poisoned : Bool

/-- A call of the map. -/
inductive CooldownCall (K : Type)
  | set (key : K) (cooldown : ℕ)
  | clear (key : K)
  | active (key : K)

namespace CooldownMap

variable {K : Type} [DecidableEq K]

/-- `CooldownMap::new`. -/
def new : CooldownMap K := ⟨fun _ => none, false⟩

/-- `set`, at an instant: whether it returns, and the map afterwards. The deadline is computed with
the lock held. -/
def set (m : CooldownMap K) (key : K) (cooldown : ℕ) (now : Instant) : Bool × CooldownMap K :=
  if m.poisoned then (false, m)
  else
    match now.add cooldown with
    | none => (false, { m with poisoned := true })
    | some deadline => (true, { m with entries := Function.update m.entries key (some deadline) })

/-- `clear`. -/
def clear (m : CooldownMap K) (key : K) : Bool × CooldownMap K :=
  if m.poisoned then (false, m)
  else (true, { m with entries := Function.update m.entries key none })

/-- `active`; `none` is its panic. -/
def active (m : CooldownMap K) (key : K) (now : Instant) : Option Bool :=
  if m.poisoned then none else some ((m.entries key).any now.before)

/-- A call at an instant: whether it returns, and the map afterwards. -/
def call (m : CooldownMap K) (now : Instant) : CooldownCall K → Bool × CooldownMap K
  | .set key cooldown => m.set key cooldown now
  | .clear key => m.clear key
  | .active key => ((m.active key now).isSome, m)

/-- The calls of a run that return. -/
def run (m : CooldownMap K) : List (Instant × CooldownCall K) → List Bool
  | [] => []
  | c :: cs => (m.call c.1 c.2).1 :: run (m.call c.1 c.2).2 cs

/-- The deadline that a call computes is within the range. -/
def InRange (now : Instant) : CooldownCall K → Prop
  | .set _ cooldown => now.secs + cooldown < 2 ^ 63
  | _ => True

variable {m : CooldownMap K} {now : Instant}

/-- A call of a sound map returns, and leaves it sound, exactly if its deadline is in range. -/
theorem call_returns_iff (hsound : m.poisoned = false) (c : CooldownCall K) :
    (m.call now c).1 = !(m.call now c).2.poisoned ∧
      ((m.call now c).1 = true ↔ InRange now c) := by
  cases c with
  | set key cooldown =>
    simp only [call, set, hsound, Bool.false_eq_true, if_false, InRange,
      ← Instant.isSome_add_iff]
    cases now.add cooldown <;> simp
  | clear key => simp [call, clear, hsound, InRange]
  | active key => simp [call, active, hsound, InRange]

/-- **Poisoning.** Once the mutex is poisoned, no call returns. -/
theorem run_poisoned (hpoisoned : m.poisoned = true) (cs : List (Instant × CooldownCall K)) :
    ∀ r ∈ m.run cs, r = false := by
  induction cs with
  | nil => simp [run]
  | cons c cs ih =>
    have hcall : m.call c.1 c.2 = (false, m) := by
      cases hc : c.2 <;> simp [call, set, clear, active, hpoisoned]
    rw [run, hcall]
    exact List.forall_mem_cons.mpr ⟨rfl, ih⟩

/-- **Runs of the map.** Every call of a run returns exactly if every deadline is in range. -/
theorem run_returns_iff (hsound : m.poisoned = false) (cs : List (Instant × CooldownCall K)) :
    (∀ r ∈ m.run cs, r = true) ↔ ∀ c ∈ cs, InRange c.1 c.2 := by
  induction cs generalizing m with
  | nil => simp [run]
  | cons c cs ih =>
    obtain ⟨hpoison, hreturns⟩ := @call_returns_iff _ _ _ c.1 hsound c.2
    rw [run, List.forall_mem_cons, List.forall_mem_cons, hreturns]
    refine and_congr_right fun hrange => ih ?_
    rw [hreturns.mpr hrange] at hpoison
    simpa using hpoison.symm

end CooldownMap

/-- `Runtime::activate_fronting`: the deadline is computed before the lock is taken. -/
def activateFronting (now : Instant) (frontingCooldown : ℕ) : Option (Option Instant) :=
  (now.add frontingCooldown).map some

/-! ## The world -/

/-- The map is sound, and its deadlines are those of the world, in seconds behind `start`. -/
structure Represents (start : Instant) (m : CooldownMap CooldownKey) (w : World) : Prop where
  sound : m.poisoned = false
  entries : ∀ key, m.entries key = (w.cooldowns key).bind start.add
  inRange : ∀ key d, w.cooldowns key = some d → (start.add d).isSome = true

namespace Represents

variable {start now : Instant} {m : CooldownMap CooldownKey} {w : World} {cfg : Config} {env : Env}

theorem new (start : Instant) : Represents start .new .start :=
  ⟨rfl, fun _ => rfl, fun _ _ h => by cases h⟩

/-- Setting a cooldown, within the range. -/
theorem cooldownSet (h : Represents start m w) (hnow : start.add (w.clock + env.elapsed) = some now)
    {cooldown : ℕ} (hrange : now.secs + cooldown < 2 ^ 63) (key : CooldownKey) :
    (m.set key cooldown now).1 = true ∧ Represents start (m.set key cooldown now).2
      (exec cfg (.cooldownSet key cooldown) env w).2.1 := by
  obtain ⟨deadline, hdeadline⟩ := Option.isSome_iff_exists.mp (Instant.isSome_add_iff.mpr hrange)
  have hset : m.set key cooldown now =
      (true, { m with entries := Function.update m.entries key (some deadline) }) := by
    simp [CooldownMap.set, h.sound, hdeadline]
  have hstart : start.add (w.clock + env.elapsed + cooldown) = some deadline :=
    (Instant.add_of_add hnow cooldown).symm.trans hdeadline
  rw [hset]
  refine ⟨rfl, h.sound, fun k => ?_, fun k d hd => ?_⟩
  · simp only [exec, execAt, Function.update_apply]
    split_ifs
    · rw [Option.bind_some, hstart]
    · exact h.entries k
  · simp only [exec, execAt, Function.update_apply] at hd
    split_ifs at hd
    · cases hd
      rw [hstart]
      rfl
    · exact h.inRange k d hd

/-- Clearing a cooldown. -/
theorem cooldownClear (h : Represents start m w) (key : CooldownKey) :
    (m.clear key).1 = true ∧
      Represents start (m.clear key).2 (exec cfg (.cooldownClear key) env w).2.1 := by
  have hclear : m.clear key =
      (true, { m with entries := Function.update m.entries key none }) := by
    simp [CooldownMap.clear, h.sound]
  rw [hclear]
  refine ⟨rfl, h.sound, fun k => ?_, fun k d hd => ?_⟩
  · simp only [exec, execAt, Function.update_apply]
    split_ifs
    · rfl
    · exact h.entries k
  · simp only [exec, execAt, Function.update_apply] at hd
    split_ifs at hd
    exact h.inRange k d hd

/-- Reading a cooldown. -/
theorem cooldownActive (h : Represents start m w)
    (hnow : start.add (w.clock + env.elapsed) = some now) (key : CooldownKey) :
    m.active key now = some (exec cfg (.cooldownActive key) env w).1 := by
  simp only [CooldownMap.active, h.sound, Bool.false_eq_true, if_false, exec, execAt, h.entries key]
  cases hd : w.cooldowns key with
  | none => rfl
  | some d =>
    obtain ⟨deadline, hdeadline⟩ := Option.isSome_iff_exists.mp (h.inRange key d hd)
    rw [Option.bind_some, hdeadline, Option.any_some, Option.any_some, Option.some_inj,
      Bool.eq_iff_iff, Instant.before_iff hnow hdeadline, decide_eq_true_eq]

end Represents

end TgWsProxy
