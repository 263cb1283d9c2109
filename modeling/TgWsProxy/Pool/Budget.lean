import TgWsProxy.Lib.Totals
import TgWsProxy.Pool.Capacity
import TgWsProxy.Proxy.Guarantees

set_option relaxedAutoImplicit false
set_option autoImplicit false

/-!
# How many connections the pools hold

Background tasks open connections before they find out whether there is room for them. The number
of connections that a pool holds and that its tasks have open is bounded all the same: a key has at
most one refill, a refill opens no more than was missing when it measured, and a warm-up opens at
most `pool_size` connections for a bucket it has not filled yet.

## Main definitions

* `TgWsProxy.Refilling` — a refill of a key is past its registration.
* `TgWsProxy.inFlight`, `cfInFlight` — the connections that a task is opening or has open.
* `TgWsProxy.DirectPoolBudget`, `CfPoolBudget` — the bounds.

## Main results

* `TgWsProxy.run_holders` — a key is registered exactly by its one refill.
* `TgWsProxy.direct_pool_budget` — the direct pool stays within twice `pool_size` for each bucket.
* `TgWsProxy.cf_pool_budget` — the Cloudflare pool stays within one connection for each key.
-/

namespace TgWsProxy

open Process

/-- The measures of the server's tasks. -/
abbrev TaskMeasure := System.Measure Op Op.Resp Tag (Option Upstream)

variable {cfg : Config}

/-! ## The keys of the refills -/

/-- The keys that refills register, of both pools. -/
inductive RefillKey
  | direct (key : PoolKey)
  | cf (key : CfKey)
  deriving DecidableEq

/-- The key of a refill. -/
def Tag.refillKey : Tag → Option RefillKey
  | .refill args => some (.direct args.key)
  | .cfRefill target => some (.cf target.key)
  | _ => none

/-- The sets `refilling` and `cf_refilling`. -/
def World.registered (w : World) : RefillKey → Bool
  | .direct key => w.refilling key
  | .cf key => w.cfRefilling key

def Op.registers : Op → Option RefillKey
  | .refillRegister key => some (.direct key)
  | .cfRegister key => some (.cf key)
  | _ => none

def Op.releases : Op → Option RefillKey
  | .refillRelease key => some (.direct key)
  | .cfRelease key => some (.cf key)
  | _ => none

/-- The task is a refill of the bucket and holds its key. -/
def holdsKey (key : RefillKey) (tag : Tag) (history : History) : Bool :=
  tag.refillKey == some key && (progress history).registered

/-- Task `i` is a refill of the bucket that is past its registration. -/
def Refilling (key : RefillKey) (s : ServerState) (i : ℕ) : Prop :=
  ∃ t, s.tasks[i]? = some t ∧ holdsKey key t.tag (System.eventsOf s.trace i) = true

theorem exec_registered (cfg : Config) (op : Op) (env : Env) (w : World) (key : RefillKey) :
    (exec cfg op env w).2.1.registered key =
      if op.registers = some key then true
      else if op.releases = some key then false else w.registered key := by
  cases op with
  | refillRegister k =>
    cases key <;> simp [exec, execAt, World.registered, Op.registers, Op.releases,
      Function.update_apply, eq_comm]
  | refillRelease k =>
    cases key <;> simp [exec, execAt, World.registered, Op.registers, Op.releases,
      Function.update_apply, eq_comm]
  | cfRegister k =>
    cases key <;> simp [exec, execAt, World.registered, Op.registers, Op.releases,
      Function.update_apply, eq_comm]
  | cfRelease k =>
    cases key <;> simp [exec, execAt, World.registered, Op.registers, Op.releases,
      Function.update_apply, eq_comm]
  | dial request =>
    simp only [exec, execAt]
    cases env.outcome <;> rfl
  | cfPush t ws =>
    cases key <;> simp only [exec, execAt] <;> split <;> rfl
  | _ => rfl

/-- A task registers if it performs an operation that does, and the key was free. -/
theorem after_registered (cfg : Config) (op : Op) (env : Env) (w : World) (p : Progress) :
    (p.after ⟨op, (exec cfg op env w).1⟩).registered =
      (op.registers.map fun key => !w.registered key).getD
        (if op.releases.isSome then false else p.registered) := by
  cases op with
  | dial request =>
    simp only [exec, execAt]
    cases env.outcome <;> rfl
  | _ => rfl

/-- Refills register their own keys, and only at their beginning. -/
theorem TaskGuar.registers {tag : Tag} {history : History} {op : Op} {key : RefillKey}
    (h : TaskGuar cfg tag history op) (hop : op.registers = some key) :
    tag.refillKey = some key ∧ (progress history).registered = false := by
  cases op with
  | refillRegister k =>
    cases hop
    obtain ⟨args, rfl⟩ := h.owner
    exact ⟨by rw [h.1]; rfl, by rw [h.2]; rfl⟩
  | cfRegister k =>
    cases hop
    obtain ⟨target, rfl⟩ := h.owner
    exact ⟨by rw [h.1]; rfl, by rw [h.2]; rfl⟩
  | _ => cases hop

/-- Refills give back the keys they hold. -/
theorem TaskGuar.releases {tag : Tag} {history : History} {op : Op} {key : RefillKey}
    (h : TaskGuar cfg tag history op) (hop : op.releases = some key) :
    tag.refillKey = some key ∧ (progress history).registered = true := by
  cases op with
  | refillRelease k =>
    cases hop
    obtain ⟨args, rfl⟩ := h.owner
    exact ⟨by rw [h.1]; rfl, h.2.1⟩
  | cfRelease k =>
    cases hop
    obtain ⟨target, rfl⟩ := h.owner
    exact ⟨by rw [h.1]; rfl, h.2.1⟩
  | _ => cases hop

/-- **One operation** leaves a key alone, takes it while it is free, or gives it back. -/
theorem holdsKey_step {tag : Tag} {history : History} {op : Op}
    (h : TaskGuar cfg tag history op) (key : RefillKey) (env : Env) (w : World) :
    System.LockStep (holdsKey key tag history)
      (holdsKey key tag (history ++ [⟨op, (exec cfg op env w).1⟩])) (w.registered key)
      ((exec cfg op env w).2.1.registered key) := by
  rw [exec_registered, holdsKey, holdsKey, progress_snoc, after_registered]
  cases hreg : op.registers with
  | some k =>
    obtain ⟨htag, hfree⟩ := h.registers hreg
    rw [htag, hfree]
    by_cases hk : k = key
    · subst hk
      cases hheld : w.registered k with
      | true => exact .same (by simp [hheld]) (by simp)
      | false => exact .takes (by simp) (by simp [hheld]) rfl (by simp)
    · have hrel : op.releases = none := by
        cases op <;> first | rfl | cases hreg
      exact .same (by simp [hk]) (by simp [hk, hrel])
  | none =>
    cases hrel : op.releases with
    | some k =>
      obtain ⟨htag, hheld⟩ := h.releases hrel
      rw [htag, hheld]
      by_cases hk : k = key
      · subst hk
        exact .releases (by simp) (by simp) (by simp)
      · exact .same (by simp [hk]) (by simp [hk])
    | none => exact .same (by simp) (by simp)

theorem initial_holders (key : RefillKey) :
    System.ExactHolders (holdsKey key) (fun w => w.registered key)
      (System.initial World.start : ServerState) := by
  cases key <;> rfl

theorem step_holders {key : RefillKey} {s s' : ServerState} {l : ServerLabel}
    (hs : System.PathState (server cfg) s)
    (h : System.ExactHolders (holdsKey key) (fun w => w.registered key) s)
    (hstep : (server cfg).step s l = some s') :
    System.ExactHolders (holdsKey key) (fun w => w.registered key) s' := by
  refine System.step_exactHolders hs (fun tag => ?_) (fun i env tag op next htask => ?_) h hstep
  · simp [holdsKey, Progress.start]
  · exact holdsKey_step (run_next hs htask) key env s.world

/-- **Mutual exclusion.** In every run, a key is registered exactly if one refill is past its
registration, and never more than one is. -/
theorem run_holders {ls : List ServerLabel} {s : ServerState}
    (hrun : (server cfg).run (System.initial World.start) ls = some s) (key : RefillKey) :
    System.ExactHolders (holdsKey key) (fun w => w.registered key) s :=
  System.run_invariant_of_path (fun _ _ _ hs h hstep => step_holders hs h hstep)
    (initial_holders key) hrun

/-! ## Connections in flight -/

/-- A dial in progress. -/
def dialling : Action (Option Upstream) → ℕ
  | .act (.dial _) _ => 1
  | _ => 0

/-- The connections that a task of the direct pool is opening or has open for a bucket, and has
neither pushed nor dropped. -/
def inFlight (key : PoolKey) : TaskMeasure := fun t history =>
  match t.tag with
  | .refill args =>
    if args.key = key then (progress history).conns.length + dialling t.prog else 0
  | .warmup dcs =>
    if (warmupKeys dcs)[(progress history).filled]? = some key then
      (progress history).conns.length + dialling t.prog
    else 0
  | _ => 0

/-- The same for a Cloudflare refill. -/
def cfInFlight (key : CfKey) : TaskMeasure := fun t history =>
  match t.tag with
  | .cfRefill target =>
    if target.key = key then (progress history).conns.length + dialling t.prog else 0
  | _ => 0

/-- The batch that a refill of the bucket may still push. -/
def batchOf (cfg : Config) (key : PoolKey) : TaskMeasure := fun t history =>
  match t.tag with
  | .refill args => if args.key = key then (progress history).budget cfg.poolSize else 0
  | _ => 0

/-- How often a warm-up visits the bucket. -/
def visits (key : PoolKey) : TaskMeasure := fun t _ =>
  match t.tag with
  | .warmup dcs => (warmupKeys dcs).count key
  | _ => 0

/-- How often it still has to push to it. -/
def visitsLeft (key : PoolKey) : TaskMeasure := fun t history =>
  match t.tag with
  | .warmup dcs => ((warmupKeys dcs).drop (progress history).filled).count key
  | _ => 0

theorem budget_le (p : Progress) (capacity : ℕ) : p.budget capacity ≤ capacity := by
  rw [Progress.budget]
  cases p.measured with
  | none => exact Nat.zero_le _
  | some current => exact Nat.sub_le _ _

/-- The connections that an operation is opening. -/
def Op.dials : Op → ℕ
  | .dial _ => 1
  | _ => 0

section Flight

variable {s : ServerState} (hs : System.PathState (server cfg) s) {i : ℕ} {tag : Tag}
  {prog : Action (Option Upstream)}

include hs

/-- What the guarantee of a task bounds is bounded, and nothing is left open when it returns. -/
theorem flight_le (bound : Progress → ℕ) (htask : s.tasks[i]? = some ⟨tag, prog⟩)
    (hpost : ∀ history answer, TaskPost tag history answer → (progress history).conns = [])
    (hguar : ∀ history op, TaskGuar cfg tag history op →
      (progress history).conns.length + op.dials ≤ bound (progress history)) :
    (progress (System.eventsOf s.trace i)).conns.length + dialling prog ≤
      bound (progress (System.eventsOf s.trace i)) := by
  cases prog with
  | ret answer =>
    rw [hpost _ answer (run_returned hs htask)]
    exact Nat.zero_le _
  | act op next =>
    have hop := hguar _ op (run_next hs htask)
    cases op <;> exact hop

/-- A refill has no more in flight than its batch. -/
theorem refill_flight {args : RefillArgs} (htask : s.tasks[i]? = some ⟨.refill args, prog⟩) :
    (progress (System.eventsOf s.trace i)).conns.length + dialling prog ≤
      (progress (System.eventsOf s.trace i)).budget cfg.poolSize := by
  refine flight_le hs (·.budget cfg.poolSize) htask (fun _ _ hpost => hpost.2.2) ?_
  intro history op hguar
  change RefillGuar cfg args history op at hguar
  cases op with
  | refillRegister key => rw [hguar.2]; exact Nat.zero_le _
  | bucketLen key => rw [hguar.2]; exact Nat.zero_le _
  | frontingActive => rw [hguar.2]; exact Nat.zero_le _
  | dial request => exact hguar.2.2
  | refillPush key conns => rw [← hguar.2.2.1]; exact hguar.2.2.2
  | refillRelease key => rw [hguar.2.2]; exact Nat.zero_le _
  | _ => exact absurd hguar id

/-- A warm-up has at most `pool_size` connections in flight. -/
theorem warmup_flight {dcs : List (ℕ × Host)} (htask : s.tasks[i]? = some ⟨.warmup dcs, prog⟩) :
    (progress (System.eventsOf s.trace i)).conns.length + dialling prog ≤ cfg.poolSize := by
  refine flight_le hs (fun _ => cfg.poolSize) htask (fun _ _ hpost => hpost.1) ?_
  intro history op hguar
  change WarmupGuar cfg dcs history op at hguar
  cases op with
  | frontingActive =>
    rw [show (progress history).conns = [] from hguar]
    exact Nat.zero_le _
  | dial request => exact hguar.2.1
  | warmupPush key conns => rw [← hguar.2.1]; exact hguar.2.2
  | _ => exact absurd hguar id

/-- A Cloudflare refill has no more in flight than was missing when it measured. -/
theorem cfRefill_flight {target : CfTarget}
    (htask : s.tasks[i]? = some ⟨.cfRefill target, prog⟩) :
    (progress (System.eventsOf s.trace i)).conns.length + dialling prog ≤
      (progress (System.eventsOf s.trace i)).budget cfg.cfBudget := by
  refine flight_le hs (·.budget cfg.cfBudget) htask (fun _ _ hpost => hpost.2.2) ?_
  intro history op hguar
  change CfRefillGuar cfg target history op at hguar
  cases op with
  | cfRegister key => rw [hguar.2]; exact Nat.zero_le _
  | cfLen key => rw [hguar.2]; exact Nat.zero_le _
  | dial request => exact hguar.2.2
  | cfPush target' ws => rw [hguar.2.2.1]; exact hguar.2.2.2
  | cfRelease key => rw [hguar.2.2]; exact Nat.zero_le _
  | _ => exact absurd hguar id

/-- A refill that does not hold its key has measured nothing. -/
theorem refill_unregistered {key : RefillKey} (htag : tag.refillKey = some key)
    (htask : s.tasks[i]? = some ⟨tag, prog⟩)
    (hfree : (progress (System.eventsOf s.trace i)).registered = false) :
    (progress (System.eventsOf s.trace i)).measured = none := by
  have hheld : ∀ {P : Prop}, (progress (System.eventsOf s.trace i)).registered = true → P := by
    intro P hregistered
    rw [hfree] at hregistered
    cases hregistered
  cases tag with
  | refill args =>
    cases prog with
    | ret answer => exact (run_returned hs htask).2.1
    | act op next =>
      have hguar : RefillGuar cfg args (System.eventsOf s.trace i) op := run_next hs htask
      cases op with
      | refillRegister key => rw [hguar.2]; rfl
      | bucketLen key => rw [hguar.2]
      | frontingActive => exact hheld hguar.1
      | dial request => exact hheld hguar.1
      | refillPush key conns => exact hheld hguar.2.1
      | refillRelease key => exact hheld hguar.2.1
      | _ => exact absurd hguar id
  | cfRefill target =>
    cases prog with
    | ret answer => exact (run_returned hs htask).2.1
    | act op next =>
      have hguar : CfRefillGuar cfg target (System.eventsOf s.trace i) op := run_next hs htask
      cases op with
      | cfRegister key => rw [hguar.2]; rfl
      | cfLen key => rw [hguar.2]
      | dial request => exact hheld hguar.1
      | cfPush target' ws => exact hheld hguar.2.1
      | cfRelease key => exact hheld hguar.2.1
      | _ => exact absurd hguar id
  | _ => cases htag

/-- Task by task, what is in flight for a bucket is covered by the batch of its refill and the
visits that a warm-up still has to make. -/
theorem total_inFlight_le (key : PoolKey) :
    System.total (inFlight key) s ≤
      System.total (batchOf cfg key) s + cfg.poolSize * System.total (visitsLeft key) s := by
  rw [← System.total_mul, ← System.total_add]
  refine System.total_le_total fun i t ht => ?_
  obtain ⟨tag, prog⟩ := t
  cases tag with
  | refill args =>
    simp only [inFlight, batchOf, visitsLeft, Nat.mul_zero, Nat.add_zero]
    split_ifs
    · exact refill_flight hs ht
    · exact le_rfl
  | warmup dcs =>
    simp only [inFlight, batchOf, visitsLeft, Nat.zero_add]
    split_ifs with hkey
    · have hcount : 0 < (List.drop (progress (System.eventsOf s.trace i)).filled
          (warmupKeys dcs)).count key := by
        rw [List.count_pos_iff]
        exact List.mem_of_getElem? (i := 0) (by rw [List.getElem?_drop]; exact hkey)
      exact (warmup_flight hs ht).trans (Nat.le_mul_of_pos_right _ hcount)
    · exact Nat.zero_le _
  | _ => exact Nat.zero_le _

end Flight

/-! ## The direct pool -/

/-- **The invariant.** What is idle, what a refill may push and what warm-ups have still to push
fit into one `pool_size`, and another one for each visit of a warm-up. -/
def BucketBound (cfg : Config) (key : PoolKey) (s : ServerState) : Prop :=
  (s.world.idle key).length + System.total (batchOf cfg key) s +
      cfg.poolSize * System.total (visitsLeft key) s ≤
    cfg.poolSize + cfg.poolSize * System.total (visits key) s

theorem visitsLeft_le_visits (key : PoolKey) (s : ServerState) :
    System.total (visitsLeft key) s ≤ System.total (visits key) s := by
  refine System.total_le_total fun i t _ => ?_
  obtain ⟨tag, prog⟩ := t
  cases tag with
  | warmup dcs => exact (List.drop_sublist _ _).count_le _
  | _ => exact le_rfl

/-- Tasks that are spawned bring neither a batch nor visits. -/
theorem fresh_of_spawn {op : Op} {env : Env} {w : World} {tag : Tag}
    (h : tag ∈ (exec cfg op env w).2.2) (key : PoolKey) :
    batchOf cfg key ((server cfg).spawn tag) [] = 0 ∧
      visits key ((server cfg).spawn tag) [] = 0 ∧
      visitsLeft key ((server cfg).spawn tag) [] = 0 := by
  rcases exec_spawn cfg op env w h with ⟨_, _, args, -, rfl⟩ | ⟨_, -, rfl⟩
  · exact ⟨ite_self 0, rfl, rfl⟩
  · exact ⟨rfl, rfl, rfl⟩

theorem exec_dial_idle (request : DialRequest) (env : Env) (w : World) :
    (exec cfg (.dial request) env w).2.1.idle = w.idle := by
  simp only [exec, execAt]
  cases env.outcome <;> rfl

/-- Unless it measures the bucket, an operation of a refill leaves or shrinks the idle connections
and the batch together. -/
theorem refill_charge {args : RefillArgs} {history : History} {op : Op} {key : PoolKey}
    (h : RefillGuar cfg args history op) (hop : op ≠ .bucketLen key) (env : Env) (w : World)
    (prog prog' : Action (Option Upstream)) :
    ((exec cfg op env w).2.1.idle key).length +
        batchOf cfg key ⟨.refill args, prog'⟩ (history ++ [⟨op, (exec cfg op env w).1⟩]) ≤
      (w.idle key).length + batchOf cfg key ⟨.refill args, prog⟩ history := by
  simp only [batchOf, progress_snoc]
  cases op with
  | refillPush k conns =>
    obtain ⟨rfl, -, -, hlimit⟩ := h
    by_cases hkey : args.key = key
    · subst hkey
      -- what is pushed is covered by the batch, which is used up
      simp only [exec, execAt, World.push, Function.update_self, if_true, List.length_append,
        length_entries, List.length_take, Progress.after, Progress.budget, Option.map_none,
        Option.getD_none] at hlimit ⊢
      omega
    · have hsame : (exec cfg (.refillPush args.key conns) env w).2.1.idle key = w.idle key := by
        simp [exec, execAt, World.push, Ne.symm hkey]
      rw [hsame, if_neg hkey, if_neg hkey]
  | bucketLen k =>
    have hkey : args.key ≠ key := by
      rintro rfl
      exact hop (by rw [h.1])
    rw [if_neg hkey, if_neg hkey]
    exact le_rfl
  | dial request =>
    rw [exec_dial_idle]
    cases hr : (exec cfg (.dial request) env w).1 <;> exact le_rfl
  | refillRegister k => exact le_rfl
  | frontingActive => exact le_rfl
  | refillRelease k =>
    refine Nat.add_le_add_left ?_ _
    split_ifs
    · exact Nat.zero_le _
    · exact le_rfl
  | _ => exact absurd h id

/-- An operation of a warm-up leaves or shrinks the idle connections and what it has still to
bring. -/
theorem warmup_charge {dcs : List (ℕ × Host)} {history : History} {op : Op} (key : PoolKey)
    (h : WarmupGuar cfg dcs history op) (env : Env) (w : World)
    (prog prog' : Action (Option Upstream)) :
    ((exec cfg op env w).2.1.idle key).length + cfg.poolSize *
        visitsLeft key ⟨.warmup dcs, prog'⟩ (history ++ [⟨op, (exec cfg op env w).1⟩]) ≤
      (w.idle key).length + cfg.poolSize * visitsLeft key ⟨.warmup dcs, prog⟩ history := by
  simp only [visitsLeft, progress_snoc]
  cases op with
  | warmupPush k conns =>
    obtain ⟨hk, -, hlimit⟩ := h
    -- the visit that ends with this push
    have hdrop : (warmupKeys dcs).drop (progress history).filled =
        k :: (warmupKeys dcs).drop ((progress history).filled + 1) := by
      obtain ⟨hlt, hget⟩ := List.getElem?_eq_some_iff.mp hk
      rw [List.drop_eq_getElem_cons hlt, hget]
    simp only [Progress.after, hdrop, List.count_cons, beq_iff_eq]
    by_cases hkey : k = key
    · subst hkey
      rw [if_pos rfl, Nat.mul_add, Nat.mul_one]
      simp only [exec, execAt, World.push, Function.update_self, List.length_append,
        length_entries]
      omega
    · have hsame : (exec cfg (.warmupPush k conns) env w).2.1.idle key = w.idle key := by
        simp [exec, execAt, World.push, Ne.symm hkey]
      rw [hsame, if_neg hkey]
      exact le_rfl
  | dial request =>
    rw [exec_dial_idle]
    cases hr : (exec cfg (.dial request) env w).1 <;> exact le_rfl
  | frontingActive => exact le_rfl
  | _ => exact absurd h id

/-- Unless it measures the bucket, an operation leaves or shrinks what it stands for: idle
connections, the batch of its task and the visits that its task has still to make. -/
theorem charge_step {tag : Tag} {history : History} {op : Op} {key : PoolKey}
    (h : TaskGuar cfg tag history op) (hop : op ≠ .bucketLen key) (env : Env) (w : World)
    (prog prog' : Action (Option Upstream)) :
    ((exec cfg op env w).2.1.idle key).length +
        batchOf cfg key ⟨tag, prog'⟩ (history ++ [⟨op, (exec cfg op env w).1⟩]) +
        cfg.poolSize * visitsLeft key ⟨tag, prog'⟩ (history ++ [⟨op, (exec cfg op env w).1⟩]) ≤
      (w.idle key).length + batchOf cfg key ⟨tag, prog⟩ history +
        cfg.poolSize * visitsLeft key ⟨tag, prog⟩ history := by
  cases tag with
  | refill args => exact refill_charge h hop env w prog prog'
  | warmup dcs => exact warmup_charge key h env w prog prog'
  | _ =>
    -- the other tasks take from the bucket at most
    rcases exec_idle cfg op env w key with hsame | ⟨_, _, -, hpre⟩ | ⟨_, rfl, -⟩ | ⟨_, rfl, -⟩
    · rw [hsame]
      exact le_rfl
    · exact Nat.add_le_add_right (Nat.add_le_add_right hpre.length_le _) _
    · obtain ⟨args, htag⟩ := h.owner
      cases htag
    · obtain ⟨dcs, htag⟩ := h.owner
      cases htag

/-- When a refill measures its bucket, nobody else has a batch for it. -/
theorem batch_of_measuring {s : ServerState} (hs : System.PathState (server cfg) s)
    {args : RefillArgs}
    (hholders : System.ExactHolders (holdsKey (.direct args.key))
      (fun w => w.registered (.direct args.key)) s) {i : ℕ} {prog : Action (Option Upstream)}
    (htask : s.tasks[i]? = some ⟨.refill args, prog⟩)
    (hprogress : progress (System.eventsOf s.trace i) = ⟨true, none, [], 0⟩) :
    System.total (batchOf cfg args.key) s = 0 := by
  refine System.total_eq_zero fun j t ht => ?_
  obtain ⟨tag, prog'⟩ := t
  cases tag with
  | refill args' =>
    simp only [batchOf]
    split_ifs with hkey
    · have hmeasured : (progress (System.eventsOf s.trace j)).measured = none := by
        cases hheld : (progress (System.eventsOf s.trace j)).registered with
        | false => exact refill_unregistered hs rfl ht hheld
        | true =>
          -- two refills that hold the key are one
          have hij : i = j := hholders.unique htask ht
            (by simp [holdsKey, Tag.refillKey, hprogress])
            (by simp [holdsKey, Tag.refillKey, hkey, hheld])
          subst hij
          rw [hprogress]
      rw [Progress.budget, hmeasured]
      rfl
    · rfl
  | _ => rfl

/-- **One step** keeps the bound. -/
theorem step_bucketBound {key : PoolKey} {s s' : ServerState} {l : ServerLabel}
    (hs : System.PathState (server cfg) s)
    (hholders : System.ExactHolders (holdsKey (.direct key))
      (fun w => w.registered (.direct key)) s)
    (h : BucketBound cfg key s) (hstep : (server cfg).step s l = some s') :
    BucketBound cfg key s' := by
  rw [BucketBound] at h ⊢
  rcases System.step_cases hstep with ⟨tag, rfl, rfl⟩ | ⟨i, env, tag, op, next, rfl, htask, rfl⟩
  · -- an arrival brings no batch, and all its visits are still to be made
    have hbatch : batchOf cfg key ((server cfg).spawn tag) [] = 0 := by
      cases tag with
      | refill args => exact ite_self 0
      | _ => rfl
    have hvisits : visitsLeft key ((server cfg).spawn tag) [] =
        visits key ((server cfg).spawn tag) [] := by
      cases tag <;> rfl
    rw [System.total_start hs, System.total_start hs, System.total_start hs, hbatch, hvisits,
      Nat.mul_add, Nat.mul_add]
    change (s.world.idle key).length + _ + _ ≤ _
    omega
  · have hguar := run_next hs htask
    -- the three totals, by what changes for the task that moved
    have hB : System.total (batchOf cfg key) ((server cfg).perform s i env tag op next) +
          batchOf cfg key ⟨tag, .act op next⟩ (System.eventsOf s.trace i) =
        System.total (batchOf cfg key) s + batchOf cfg key ⟨tag, next (exec cfg op env s.world).1⟩
          (System.eventsOf s.trace i ++ [⟨op, (exec cfg op env s.world).1⟩]) :=
      System.total_perform hs env htask fun tag' htag' => (fresh_of_spawn htag' key).1
    have hL : System.total (visitsLeft key) ((server cfg).perform s i env tag op next) +
          visitsLeft key ⟨tag, .act op next⟩ (System.eventsOf s.trace i) =
        System.total (visitsLeft key) s + visitsLeft key ⟨tag, next (exec cfg op env s.world).1⟩
          (System.eventsOf s.trace i ++ [⟨op, (exec cfg op env s.world).1⟩]) :=
      System.total_perform hs env htask fun tag' htag' => (fresh_of_spawn htag' key).2.2
    have hV : System.total (visits key) ((server cfg).perform s i env tag op next) =
        System.total (visits key) s :=
      Nat.add_right_cancel (System.total_perform (m := visits key) hs env htask
        fun tag' htag' => (fresh_of_spawn htag' key).2.1)
    have hleft := Nat.mul_le_mul_left cfg.poolSize
      (visitsLeft_le_visits key ((server cfg).perform s i env tag op next))
    by_cases hop : op = .bucketLen key
    · -- the batch is what is missing
      subst hop
      obtain ⟨args, rfl⟩ := hguar.owner
      obtain ⟨rfl, hprogress⟩ : key = args.key ∧
        progress (System.eventsOf s.trace i) = ⟨true, none, [], 0⟩ := hguar
      have hzero := batch_of_measuring hs hholders htask hprogress
      have hL : System.total (visitsLeft args.key)
            ((server cfg).perform s i env (.refill args) (.bucketLen args.key) next) =
          System.total (visitsLeft args.key) s := Nat.add_right_cancel hL
      have hbatch : System.total (batchOf cfg args.key)
            ((server cfg).perform s i env (.refill args) (.bucketLen args.key) next) =
          cfg.poolSize - (s.world.idle args.key).length := by
        simp only [batchOf, if_true, progress_snoc, hprogress, hzero] at hB
        exact hB.trans (Nat.zero_add _)
      have hidle : ((server cfg).perform s i env (.refill args) (.bucketLen args.key)
          next).world.idle args.key = s.world.idle args.key := rfl
      rw [hzero] at h
      rw [hbatch, hidle, hL, hV]
      rw [hL, hV] at hleft
      omega
    · have hcharge := charge_step hguar hop env s.world (.act op next)
        (next (exec cfg op env s.world).1)
      have hL := congrArg (cfg.poolSize * ·) hL
      simp only [Nat.mul_add] at hL
      rw [hV]
      change ((exec cfg op env s.world).2.1.idle key).length + _ + _ ≤ _
      omega

/-- **In every run** the bound holds. -/
theorem run_bucketBound {ls : List ServerLabel} {s : ServerState}
    (hrun : (server cfg).run (System.initial World.start) ls = some s) (key : PoolKey) :
    BucketBound cfg key s :=
  (System.run_invariant_of_path
    (I := fun s => System.ExactHolders (holdsKey (.direct key))
      (fun w => w.registered (.direct key)) s ∧ BucketBound cfg key s)
    (fun _ _ _ hs h hstep => ⟨step_holders hs h.1 hstep, step_bucketBound hs h.1 h.2 hstep⟩)
    ⟨initial_holders _, Nat.zero_le _⟩ hrun).2

/-! ### One warm-up -/

/-- The warm-ups that arrive in a run. -/
def warmups (ls : List ServerLabel) : List (List (ℕ × Host)) :=
  ls.filterMap fun l =>
    match l with
    | .start (.warmup dcs) => some dcs
    | _ => none

/-- No bucket is warmed up twice: one warm-up over the keys of a map, for example. -/
def WarmsOnce (ls : List ServerLabel) : Prop := ((warmups ls).flatMap warmupKeys).Nodup

/-- The visits of a run are those of the warm-ups that arrived in it. -/
theorem total_visits {ls : List ServerLabel} (key : PoolKey) :
    ∀ {s s' : ServerState}, System.PathState (server cfg) s →
      (server cfg).run s ls = some s' →
      System.total (visits key) s' =
        System.total (visits key) s + ((warmups ls).flatMap warmupKeys).count key := by
  induction ls with
  | nil =>
    intro s s' _ hrun
    cases hrun
    rfl
  | cons l ls ih =>
    intro s s' hs hrun
    obtain ⟨s₁, hs₁, hrun⟩ := Option.bind_eq_some_iff.mp hrun
    have hstep := System.step_path hs hs₁
    rw [ih hstep hrun]
    rcases System.step_cases hs₁ with ⟨tag, rfl, rfl⟩ | ⟨i, env, tag, op, next, rfl, htask, rfl⟩
    · rw [System.total_start hs]
      cases tag with
      | warmup dcs =>
        simp only [warmups, List.filterMap_cons, List.flatMap_cons, List.count_append]
        exact Nat.add_assoc _ _ _
      | _ => rfl
    · rw [Nat.add_right_cancel (System.total_perform (m := visits key) hs env htask
        fun tag' htag' => (fresh_of_spawn htag' key).2.1)]
      rfl

/-- What is idle or in flight for a bucket is within the amount reserved for it. -/
theorem bucket_within {ls : List ServerLabel} {s : ServerState} (hwarms : WarmsOnce ls)
    (hrun : (server cfg).run (System.initial World.start) ls = some s) (key : PoolKey) :
    (s.world.idle key).length + System.total (inFlight key) s ≤ 2 * cfg.poolSize := by
  have hbound : BucketBound cfg key s := run_bucketBound hrun key
  have hflight := total_inFlight_le (pathState_of_run hrun) key
  have hvisits := total_visits key (System.pathState_initial World.start) hrun
  have honce : System.total (visits key) s ≤ 1 := by
    rw [hvisits, System.total_initial, Nat.zero_add]
    exact List.nodup_iff_count_le_one.mp hwarms key
  have hmul := Nat.mul_le_mul_left cfg.poolSize honce
  rw [BucketBound] at hbound
  omega

/-- What the direct pool keeps to for a bucket: at most one refill is past its registration, the
set of refilling keys says exactly whether one is, and the connections that are idle, being opened,
or opened and neither pushed nor dropped are at most twice `pool_size`. -/
structure DirectPoolBudget (cfg : Config) (key : PoolKey) (s : ServerState) : Prop where
  one : ∀ i j, Refilling (.direct key) s i → Refilling (.direct key) s j → i = j
  exact : s.world.refilling key = true ↔ ∃ i, Refilling (.direct key) s i
  within : (s.world.idle key).length + System.total (inFlight key) s ≤ 2 * cfg.poolSize

/-- **The direct pool stays within its budget**, for every `pool_size` and bucket and in every
interleaving of a startup warm-up, `get`s and refills with any outcomes.

**Proof sketch.** A refill's batch was computed from the bucket that it measured, with nobody else
holding its key; `get`s only shrink the bucket, and a push adds no more than the batch. A warm-up
adds at most `pool_size` on its one visit. -/
theorem direct_pool_budget (cfg : Config) (ls : List ServerLabel) (hwarms : WarmsOnce ls)
    (s : ServerState) (hrun : (server cfg).run (System.initial World.start) ls = some s)
    (key : PoolKey) : DirectPoolBudget cfg key s := by
  have hholders := run_holders hrun (.direct key)
  refine ⟨?_, hholders.locked_iff, bucket_within hwarms hrun key⟩
  rintro i j ⟨t, ht, hi⟩ ⟨u, hu, hj⟩
  exact hholders.unique ht hu hi hj

/-- The run in which a warm-up and a refill fill the same bucket. -/
theorem direct_pool_budget_overflowRun :
    WarmsOnce overflowRun ∧
      ∃ s, (server smallConfig).run (System.initial World.start) overflowRun = some s ∧
        DirectPoolBudget smallConfig (2, false) s := by
  have hsome : ((server smallConfig).run (System.initial World.start) overflowRun).isSome =
      true := by decide +kernel
  obtain ⟨s, hs⟩ := Option.isSome_iff_exists.mp hsome
  have hwarms : WarmsOnce overflowRun := by
    rw [WarmsOnce]
    decide
  exact ⟨hwarms, s, hs, direct_pool_budget smallConfig overflowRun hwarms s hs (2, false)⟩

/-! ## The Cloudflare pool -/

/-- Task by task, what is in flight for a key is in flight for the one who holds it. -/
theorem total_cfInFlight_le {s : ServerState} (hs : System.PathState (server cfg) s)
    (key : CfKey) : System.total (cfInFlight key) s ≤
      cfg.cfBudget * System.total (System.holders (holdsKey (.cf key))) s := by
  rw [← System.total_mul]
  refine System.total_le_total fun i t ht => ?_
  obtain ⟨tag, prog⟩ := t
  cases tag with
  | cfRefill target =>
    by_cases hkey : target.key = key
    · subst hkey
      have hflight := cfRefill_flight hs ht
      cases hheld : (progress (System.eventsOf s.trace i)).registered with
      | true =>
        have hbudget := budget_le (progress (System.eventsOf s.trace i)) cfg.cfBudget
        simpa [cfInFlight, System.holders, holdsKey, Tag.refillKey, hheld] using
          hflight.trans hbudget
      | false =>
        rw [Progress.budget, refill_unregistered hs rfl ht hheld] at hflight
        simpa [cfInFlight, System.holders, holdsKey, Tag.refillKey, hheld] using hflight
    · simp only [cfInFlight, if_neg hkey]
      exact Nat.zero_le _
  | _ => exact Nat.zero_le _

/-- A refill pushes only below the budget. -/
theorem exec_cfIdle_within (op : Op) (env : Env) {w : World} {key : CfKey}
    (h : (w.cfIdle key).length ≤ cfg.cfBudget) :
    ((exec cfg op env w).2.1.cfIdle key).length ≤ cfg.cfBudget := by
  rcases exec_cfIdle cfg op env w key with hsame | ⟨_, -, hpre⟩ | ⟨t, ws, rfl, rfl, hpush⟩
  · rwa [hsame]
  · exact hpre.length_le.trans h
  · by_cases hroom : (w.cfIdle t.key).length < cfg.cfBudget
    · rw [hpush, List.length_append]
      exact hroom
    · have hsame : (exec cfg (.cfPush t ws) env w).2.1.cfIdle t.key = w.cfIdle t.key := by
        simp [exec, execAt, hroom]
      rwa [hsame]

/-- **In every run** a bucket of the Cloudflare pool stays within its budget. -/
theorem run_cfIdle_within {ls : List ServerLabel} {s : ServerState}
    (hrun : (server cfg).run (System.initial World.start) ls = some s) (key : CfKey) :
    (s.world.cfIdle key).length ≤ cfg.cfBudget := by
  refine System.run_invariant_of_path
    (I := fun s : ServerState => (s.world.cfIdle key).length ≤ cfg.cfBudget)
    (fun s l s' _ h hstep => ?_) (Nat.zero_le _) hrun
  rcases System.step_cases hstep with ⟨tag, rfl, rfl⟩ | ⟨i, env, tag, op, next, rfl, -, rfl⟩
  · exact h
  · exact exec_cfIdle_within op env h

/-- Task `i` is dialling or has dialled before. -/
def Dials (s : ServerState) (i : ℕ) : Prop :=
  (∃ e ∈ System.eventsOf s.trace i, ∃ request, e.op = .dial request) ∨
    ∃ t, s.tasks[i]? = some t ∧ dialling t.prog ≠ 0

/-- Without a budget, Cloudflare refills do not dial. -/
theorem not_dials_of_disabled {s : ServerState} (hs : System.PathState (server cfg) s)
    (hdisabled : cfg.poolSize = 0) {i : ℕ} {target : CfTarget} {prog : Action (Option Upstream)}
    (htask : s.tasks[i]? = some ⟨.cfRefill target, prog⟩) : ¬ Dials s i := by
  have hbudget : cfg.cfBudget = 0 := by rw [Config.cfBudget, hdisabled, Nat.min_zero]
  have hno : ∀ history request, ¬ CfRefillGuar cfg target history (.dial request) := by
    intro history request hguar
    have hle := budget_le (progress history) cfg.cfBudget
    have hlt := hguar.2.2
    omega
  rintro (⟨e, he, request, hop⟩ | ⟨t, ht, hdialling⟩)
  · obtain ⟨before, after, hevents⟩ := List.append_of_mem he
    have hpath := hs.path i _ htask
    rw [hevents] at hpath
    have hguar : CfRefillGuar cfg target ([] ++ before) e.op :=
      (body_obeys (.cfRefill target)).path_guar hpath
    rw [hop] at hguar
    exact hno _ _ hguar
  · have hflight := (cfRefill_flight hs htask).trans (budget_le _ _)
    rw [htask] at ht
    cases ht
    rw [hbudget] at hflight
    exact hdialling (Nat.eq_zero_of_add_eq_zero_left (Nat.le_zero.mp hflight))

/-- What the Cloudflare pool keeps to for a key: at most one refill is past its registration, at
most one connection is being opened, or opened and neither pushed nor dropped, and at most
`min 1 pool_size` are idle. Without a pool, nothing is dialled or kept. -/
structure CfPoolBudget (cfg : Config) (key : CfKey) (s : ServerState) : Prop where
  one : ∀ i j, Refilling (.cf key) s i → Refilling (.cf key) s j → i = j
  flight : System.total (cfInFlight key) s ≤ 1
  idle : (s.world.cfIdle key).length ≤ min 1 cfg.poolSize
  disabled : cfg.poolSize = 0 → s.world.cfIdle key = [] ∧
    ∀ i target prog, s.tasks[i]? = some ⟨.cfRefill target, prog⟩ → ¬ Dials s i

/-- **The Cloudflare pool stays within its budget**, for every `pool_size` and key and in every
interleaving of `cf_get`s, prefetches and refills with any outcomes.

**Proof sketch.** A refill has something in flight only while it holds its key, which one refill
does at a time; it looks at the bucket again when it pushes. -/
theorem cf_pool_budget (cfg : Config) (ls : List ServerLabel) (s : ServerState)
    (hrun : (server cfg).run (System.initial World.start) ls = some s) (key : CfKey) :
    CfPoolBudget cfg key s := by
  have hs := pathState_of_run hrun
  have hholders := run_holders hrun (.cf key)
  have hidle := run_cfIdle_within hrun key
  refine ⟨?_, ?_, hidle, fun hdisabled => ⟨?_, ?_⟩⟩
  · rintro i j ⟨t, ht, hi⟩ ⟨u, hu, hj⟩
    exact hholders.unique ht hu hi hj
  · have hflight := total_cfInFlight_le hs key
    have hone : System.total (System.holders (holdsKey (.cf key))) s ≤ 1 := by
      rw [hholders]
      split_ifs
      · exact le_rfl
      · exact Nat.zero_le _
    calc System.total (cfInFlight key) s
        ≤ cfg.cfBudget * System.total (System.holders (holdsKey (.cf key))) s := hflight
      _ ≤ 1 * 1 := Nat.mul_le_mul (Nat.min_le_left _ _) hone
  · rw [Config.cfBudget, hdisabled] at hidle
    exact List.eq_nil_of_length_eq_zero (Nat.le_zero.mp hidle)
  · exact fun i target prog htask => not_dials_of_disabled hs hdisabled htask

/-- A spare through a Worker for DC 2. -/
def workerSpare : CfTarget :=
  ⟨.worker, 2, false, "149.154.167.51".toList, "worker.example.dev".toList, false, 10⟩

/-- Two prefetches of one spare: the second finds the key taken while the first is connecting. -/
def prefetchRun : List ServerLabel :=
  .start (.cfRefill workerSpare) :: .start (.cfRefill workerSpare) ::
    (smoothSteps 0 2 ++ smoothSteps 1 1 ++ smoothSteps 0 3)

theorem cf_pool_budget_prefetchRun :
    ∃ s, (server smallConfig).run (System.initial World.start) prefetchRun = some s ∧
      (s.world.cfIdle workerSpare.key).length = 1 ∧
      CfPoolBudget smallConfig workerSpare.key s := by
  have hlen : ((server smallConfig).run (System.initial World.start) prefetchRun).map
      (fun s => (s.world.cfIdle workerSpare.key).length) = some 1 := by decide +kernel
  obtain ⟨s, hs, hone⟩ := Option.map_eq_some_iff.mp hlen
  exact ⟨s, hs, hone, cf_pool_budget smallConfig prefetchRun s hs workerSpare.key⟩

end TgWsProxy
