import TgWsProxy.Pool.Progress
import TgWsProxy.Proxy.Direct
import TgWsProxy.Server

set_option relaxedAutoImplicit false
set_option autoImplicit false

/-!
# What the tasks of the server guarantee

The guarantees of the client connections and of the tasks of the pools, put together: in every
state of a run, what a task does next is allowed by its own history.

## Main definitions

* `TgWsProxy.TaskGuar`, `TaskPost` — the guarantee of each kind of task, and what holds when it
  returns.
* `TgWsProxy.Op.Owner` — the kind of task that performs an operation of the pools.
* `TgWsProxy.Op.Background` — operations that leave the cooldowns of the direct tier and the
  fronting window alone.

## Main results

* `TgWsProxy.body_obeys` — every task keeps its guarantee on every path.
* `TgWsProxy.run_next`, `run_returned` — so it does in every state of a run.
-/

namespace TgWsProxy

open Process

/-- What a single `get` does. -/
def Op.Gets (args : RefillArgs) : Op → Prop
  | .now => True
  | .poolTake key _ refill => key = args.key ∧ ∀ a ∈ refill, a = args
  | _ => False

/-- What each kind of task guarantees. -/
def TaskGuar (cfg : Config) : Tag → History → Op → Prop
  | .client route => DirectGuar cfg route
  | .get args _ => fun _ op => op.Gets args
  | .cfConnect _ route _ => fun _ op => op.Routing cfg route False
  | .warmup dcs => WarmupGuar cfg dcs
  | .refill args => RefillGuar cfg args
  | .cfRefill target => CfRefillGuar cfg target

/-- What holds of the history and the result of a task that has returned. -/
def TaskPost : Tag → History → Option Upstream → Prop
  | .client route => fun history answer =>
    due history = .nothing ∧ ∀ u, answer = some u → u.Origin route history
  | .get .. => fun _ _ => True
  | .cfConnect .. => fun _ _ => True
  | .warmup dcs => fun history _ => (progress history).conns = [] ∧
      (progress history).filled = (warmupKeys dcs).length
  | .refill _ => fun history _ => (progress history).Released
  | .cfRefill _ => fun history _ => (progress history).Released

variable {cfg : Config}

theorem client_obeys (route : Route) :
    Obeys (DirectGuar cfg route) (TaskPost (.client route)) []
      (selectUpstream cfg route (cfg.dcTargetIp route.dc)) :=
  selectUpstream_obeys (fun _ _ hdue hop => directGuar_of_aside hdue hop.aside)
    (fun history op r _ hop => due_of_aside cfg route history op r hop.aside)
    (fun ip _ hdue => (directWs_obeys ip hdue).mono fun _ _ h => ⟨h.settled, h.opened⟩)
    _ id rfl

/-- **The guarantees.** Every task keeps its guarantee on every path of its program. -/
theorem body_obeys (tag : Tag) : Obeys (TaskGuar cfg tag) (TaskPost tag) [] (body cfg tag) := by
  cases tag with
  | client route => exact client_obeys route
  | get args allowRefill =>
    refine obeys_op trivial fun (now : ℕ) => obeys_op ⟨rfl, fun a ha => ?_⟩ fun _ => trivial
    cases allowRefill with
    | false => cases ha
    | true =>
      cases ha
      rfl
  | cfConnect tier route dst =>
    cases tier with
    | worker => exact obeys_bind (cfWorker_obeys dst) fun _ _ _ => trivial
    | proxy => exact obeys_bind cfProxy_obeys fun _ _ _ => trivial
  | warmup dcs => exact obeys_bind (warmup_obeys dcs) fun _ _ h => h
  | refill args => exact obeys_bind (refill_obeys args) fun _ _ h => h
  | cfRefill target => exact obeys_bind (cfRefill_obeys target) fun _ _ h => h

/-! ## Runs -/

section Runs

variable {s : ServerState} {i : ℕ} {tag : Tag}

/-- The next operation of a task meets its guarantee. -/
theorem run_next (hs : System.PathState (server cfg) s) {op : Op}
    {next : op.Resp → Action (Option Upstream)} (htask : s.tasks[i]? = some ⟨tag, .act op next⟩) :
    TaskGuar cfg tag (System.eventsOf s.trace i) op :=
  (hs.obeys body_obeys htask).1

/-- A task that has returned has done what it had to. -/
theorem run_returned (hs : System.PathState (server cfg) s) {answer : Option Upstream}
    (htask : s.tasks[i]? = some ⟨tag, .ret answer⟩) :
    TaskPost tag (System.eventsOf s.trace i) answer :=
  hs.obeys body_obeys htask

theorem pathState_of_run {ls : List ServerLabel}
    (hrun : (server cfg).run (System.initial World.start) ls = some s) :
    System.PathState (server cfg) s :=
  System.run_path (System.pathState_initial World.start) hrun

end Runs

/-! ## Background tasks -/

/-- The kind of task that an operation of the pools belongs to. -/
def Op.Owner (tag : Tag) : Op → Prop
  | .refillRegister _ => ∃ args, tag = .refill args
  | .bucketLen _ => ∃ args, tag = .refill args
  | .refillPush .. => ∃ args, tag = .refill args
  | .refillRelease _ => ∃ args, tag = .refill args
  | .warmupPush .. => ∃ dcs, tag = .warmup dcs
  | .cfRegister _ => ∃ target, tag = .cfRefill target
  | .cfLen _ => ∃ target, tag = .cfRefill target
  | .cfPush .. => ∃ target, tag = .cfRefill target
  | .cfRelease _ => ∃ target, tag = .cfRefill target
  | _ => True

/-- Connections leave the inside of the pools to the tasks of the pools. -/
theorem TaskGuar.owner {tag : Tag} {history : History} {op : Op}
    (h : TaskGuar cfg tag history op) : op.Owner tag := by
  cases tag with
  | client route =>
    have hasks : op.Asks cfg route (route.HasTarget cfg) := DirectGuar.pools h
    cases op <;> trivial
  | refill args => cases op <;> first | exact ⟨args, rfl⟩ | trivial
  | warmup dcs => cases op <;> first | exact ⟨dcs, rfl⟩ | trivial
  | cfRefill target => cases op <;> first | exact ⟨target, rfl⟩ | trivial
  | get args allowRefill => cases op <;> trivial
  | cfConnect tier route dst => cases op <;> trivial

/-- Operations that leave the cooldowns of the direct tier and the fronting window alone. -/
def Op.Background : Op → Prop
  | .cooldownSet (.upstreamFail _) _ => True
  | .cooldownSet (.cfWorkerFail _) _ => True
  | .cooldownSet .. => False
  | .cooldownClear (.upstreamFail _) => True
  | .cooldownClear (.cfWorkerFail _) => True
  | .cooldownClear _ => False
  | .activateFronting => False
  | .deactivateFronting => False
  | _ => True

/-- Only client connections change the cooldowns of the direct tier and the fronting window. -/
theorem TaskGuar.background {tag : Tag} (htag : ∀ route, tag ≠ .client route) {history : History}
    {op : Op} (h : TaskGuar cfg tag history op) : op.Background := by
  cases tag with
  | client route => exact absurd rfl (htag route)
  | get args allowRefill => cases op <;> trivial
  | cfConnect tier route dst =>
    cases op with
    | cooldownSet key cooldown => cases key <;> trivial
    | cooldownClear key => cases key <;> trivial
    | activateFronting => exact absurd h id
    | deactivateFronting => exact absurd h id
    | _ => trivial
  | warmup dcs => cases op <;> trivial
  | refill args => cases op <;> trivial
  | cfRefill target => cases op <;> trivial

end TgWsProxy
