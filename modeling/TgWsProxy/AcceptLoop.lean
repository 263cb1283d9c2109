import Mathlib.Algebra.Order.BigOperators.Group.Finset
import Mathlib.Algebra.Order.Ring.Nat
import Mathlib.Data.Finset.Prod
import Mathlib.Data.Fintype.Basic
import Mathlib.Logic.Relation
import TgWsProxy.Limits
import TgWsProxy.Pool.Budget

set_option relaxedAutoImplicit false
set_option autoImplicit false

/-!
# The accept loop of `main.rs` and its file descriptors

The loop takes a permit before each `accept`, and a connection keeps its permit until its task
ends. The cap on permits was computed from the descriptor limit with the direct pool in mind. The
direct pool keeps to what was reserved for it. The Cloudflare pool has no part in the computation,
so one spare connection can exceed the limit.

## Main definitions

* `TgWsProxy.Acceptor`, `Acceptor.step` — the accept loop around the server.
* `TgWsProxy.Acceptor.fds` — the descriptors in use.
* `TgWsProxy.Acceptor.NoSpare` — no Cloudflare refill goes on to open a connection.

## Main results

* `TgWsProxy.fd_budget` — without Cloudflare spares the descriptors are within the limit.
* `TgWsProxy.noSpare_of_config` — there are none if pooling is disabled or no tier is configured.
-/

namespace TgWsProxy

open Process

/-! ## The loop -/

/-- The accept loop, with the tasks it has started. -/
structure Acceptor where
  server : ServerState
  /-- The loop has a permit for the next connection. -/
  waiting : Bool
  /-- Connections whose handshake is being read. -/
  handshakes : ℕ
  /-- The routed connections, by the numbers of their tasks. -/
  routed : List ℕ

/-- What happens next. -/
inductive AcceptLabel
  | acquire
  | accept
  | acceptError
  /-- A handshake asks for a route. -/
  | route (route : Route)
  /-- A handshake fails. -/
  | refuse
  /-- A routed connection ends. -/
  | close (i : ℕ)
  /-- A task performs its next operation. -/
  | task (i : ℕ) (env : Env)

namespace Acceptor

variable (cfg : Config) (maxConnections : ℕ)

/-- The permits that are held. -/
def permits (a : Acceptor) : ℕ := a.waiting.toNat + a.handshakes + a.routed.length

/-- `main` in front of the loop: the warm-up is started, over the DCs in an order of their map. -/
def start (dcs : List (ℕ × Host)) : Acceptor :=
  ⟨⟨World.start, [(TgWsProxy.server cfg).spawn (.warmup dcs)], []⟩, false, 0, []⟩

/-- A task is done with `select_upstream`. -/
def returned (a : Acceptor) (i : ℕ) : Bool :=
  match a.server.tasks[i]? with
  | some ⟨_, .ret _⟩ => true
  | _ => false

/-- One step. A permit is given back when a connection ends, which a routed one does at the
earliest when its upstream is selected. -/
def step (a : Acceptor) : AcceptLabel → Option Acceptor
  | .acquire =>
    if a.waiting = false ∧ a.permits < maxConnections then some { a with waiting := true } else none
  | .accept =>
    if a.waiting then some { a with waiting := false, handshakes := a.handshakes + 1 } else none
  | .acceptError => if a.waiting then some { a with waiting := false } else none
  | .route route =>
    if 0 < a.handshakes then
      ((TgWsProxy.server cfg).step a.server (.start (.client route))).map fun s =>
        { a with
          server := s
          handshakes := a.handshakes - 1
          routed := a.routed ++ [a.server.tasks.length] }
    else none
  | .refuse => if 0 < a.handshakes then some { a with handshakes := a.handshakes - 1 } else none
  | .close i =>
    if i ∈ a.routed ∧ a.returned i = true then some { a with routed := a.routed.erase i } else none
  | .task i env =>
    ((TgWsProxy.server cfg).step a.server (.step i env)).map fun s => { a with server := s }

/-- A run. -/
def run : Acceptor → List AcceptLabel → Option Acceptor
  | a, [] => some a
  | a, l :: ls => (a.step cfg maxConnections l).bind fun a => run a ls

/-- One step that meets `C`, given the state before it. -/
def Next (C : Acceptor → AcceptLabel → Prop) (a a' : Acceptor) : Prop :=
  ∃ l, C a l ∧ a.step cfg maxConnections l = some a'

/-- A run of steps that meet `C`. -/
abbrev Reaches (C : Acceptor → AcceptLabel → Prop) : Acceptor → Acceptor → Prop :=
  Relation.ReflTransGen (Next cfg maxConnections C)

end Acceptor

variable {cfg : Config} {maxConnections : ℕ} {C : Acceptor → AcceptLabel → Prop}

theorem Acceptor.reaches_of_run {a' : Acceptor} :
    ∀ {ls : List AcceptLabel} {a : Acceptor}, a.run cfg maxConnections ls = some a' →
      Acceptor.Reaches cfg maxConnections (fun _ _ => True) a a'
  | [], _, h => by
    cases h
    exact .refl
  | l :: _, _, h => by
    obtain ⟨a₁, hstep, hrest⟩ := Option.bind_eq_some_iff.mp h
    exact .head ⟨l, trivial, hstep⟩ (reaches_of_run hrest)

/-- What a step does: it moves a permit around, or a connection is routed, or a task moves. -/
theorem Acceptor.step_cases {a a' : Acceptor} {l : AcceptLabel}
    (h : a.step cfg maxConnections l = some a') :
    (a'.server = a.server ∧ (a'.permits ≤ a.permits ∨ a'.permits ≤ maxConnections)) ∨
      (∃ route, l = .route route ∧ a'.permits ≤ a.permits ∧
        (TgWsProxy.server cfg).step a.server (.start (.client route)) = some a'.server) ∨
      ∃ i env, l = .task i env ∧ a'.permits = a.permits ∧
        (TgWsProxy.server cfg).step a.server (.step i env) = some a'.server := by
  cases l with
  | acquire =>
    simp only [Acceptor.step] at h
    split_ifs at h with hfree
    cases h
    refine .inl ⟨rfl, .inr ?_⟩
    simp only [Acceptor.permits, hfree.1, Bool.toNat_false, Bool.toNat_true] at hfree ⊢
    omega
  | accept =>
    simp only [Acceptor.step] at h
    split_ifs at h with hwaiting
    cases h
    refine .inl ⟨rfl, .inl ?_⟩
    simp only [Acceptor.permits, hwaiting, Bool.toNat_false, Bool.toNat_true]
    omega
  | acceptError =>
    simp only [Acceptor.step] at h
    split_ifs at h with hwaiting
    cases h
    refine .inl ⟨rfl, .inl ?_⟩
    simp only [Acceptor.permits, hwaiting, Bool.toNat_false, Bool.toNat_true]
    omega
  | route route =>
    simp only [Acceptor.step] at h
    split_ifs at h with hhandshakes
    obtain ⟨s, hs, rfl⟩ := Option.map_eq_some_iff.mp h
    refine .inr (.inl ⟨route, rfl, ?_, hs⟩)
    simp only [Acceptor.permits, List.length_append, List.length_singleton]
    omega
  | refuse =>
    simp only [Acceptor.step] at h
    split_ifs at h with hhandshakes
    cases h
    refine .inl ⟨rfl, .inl ?_⟩
    simp only [Acceptor.permits]
    omega
  | close i =>
    simp only [Acceptor.step] at h
    split_ifs at h with hdone
    cases h
    refine .inl ⟨rfl, .inl ?_⟩
    have herase := List.length_erase_of_mem hdone.1
    simp only [Acceptor.permits]
    omega
  | task i env =>
    simp only [Acceptor.step] at h
    obtain ⟨s, hs, rfl⟩ := Option.map_eq_some_iff.mp h
    exact .inr (.inr ⟨i, env, rfl, rfl, hs⟩)

/-! ## What the loop keeps -/

/-- **The semaphore.** No more permits are held than there are. -/
theorem Acceptor.permits_le {dcs : List (ℕ × Host)} {a : Acceptor}
    (h : Acceptor.Reaches cfg maxConnections C (Acceptor.start cfg dcs) a) :
    a.permits ≤ maxConnections := by
  induction h with
  | refl => exact Nat.zero_le _
  | tail _ hnext ih =>
    obtain ⟨l, -, hstep⟩ := hnext
    rcases Acceptor.step_cases hstep with
      ⟨-, hle | hle⟩ | ⟨_, -, hle, -⟩ | ⟨_, _, -, hsame, -⟩
    · exact hle.trans ih
    · exact hle
    · exact hle.trans ih
    · rwa [hsame]

/-- The loop gives the server one warm-up and then clients. -/
def Serving (dcs : List (ℕ × Host)) (ls : List ServerLabel) : Prop :=
  ∃ rest, ls = .start (.warmup dcs) :: rest ∧
    ∀ l ∈ rest, ∀ tag, l = .start tag → ∃ route, tag = .client route

theorem Serving.snoc {dcs : List (ℕ × Host)} {ls : List ServerLabel} {l : ServerLabel}
    (h : Serving dcs ls) (hl : ∀ tag, l = .start tag → ∃ route, tag = .client route) :
    Serving dcs (ls ++ [l]) := by
  obtain ⟨rest, rfl, hrest⟩ := h
  refine ⟨rest ++ [l], rfl, fun m hm => ?_⟩
  rcases List.mem_append.mp hm with hm | hm
  · exact hrest m hm
  · rw [List.mem_singleton.mp hm]
    exact hl

/-- **The server inside.** In every run of the loop, the server has made a run of its own. -/
theorem Acceptor.reaches_run {dcs : List (ℕ × Host)} {a : Acceptor}
    (h : Acceptor.Reaches cfg maxConnections C (Acceptor.start cfg dcs) a) :
    ∃ ls, Serving dcs ls ∧
      (TgWsProxy.server cfg).run (System.initial World.start) ls = some a.server := by
  induction h with
  | refl => exact ⟨[.start (.warmup dcs)], ⟨[], rfl, fun l hl => by cases hl⟩, rfl⟩
  | tail _ hnext ih =>
    obtain ⟨l, -, hstep⟩ := hnext
    obtain ⟨ls, hls, hrun⟩ := ih
    rcases Acceptor.step_cases hstep with
      ⟨hsame, -⟩ | ⟨route, -, -, hserver⟩ | ⟨i, env, -, -, hserver⟩
    · exact ⟨ls, hls, by rw [hsame, hrun]⟩
    · refine ⟨ls ++ [.start (.client route)], hls.snoc fun tag htag => ?_, ?_⟩
      · cases htag
        exact ⟨route, rfl⟩
      · rw [System.run_append, hrun, Option.bind_some, System.run, hserver]
        rfl
    · refine ⟨ls ++ [.step i env], hls.snoc (fun tag htag => by cases htag), ?_⟩
      rw [System.run_append, hrun, Option.bind_some, System.run, hserver]
      rfl

/-- What a warm-up and clients keep, the server inside keeps. -/
theorem Serving.invariant {dcs : List (ℕ × Host)} {ls : List ServerLabel} {s : ServerState}
    (h : Serving dcs ls) (okTag : Tag → Prop) {I : ServerState → Prop}
    (hwarmup : okTag (.warmup dcs)) (hclient : ∀ route, okTag (.client route))
    (hstep : ∀ s l s', System.PathState (server cfg) s → I s →
      (∀ tag, l = .start tag → okTag tag) → (server cfg).step s l = some s' → I s')
    (hinitial : I (System.initial World.start))
    (hrun : (server cfg).run (System.initial World.start) ls = some s) : I s := by
  obtain ⟨rest, rfl, hrest⟩ := h
  refine (System.run_invariant (C := fun _ l => ∀ tag, l = .start tag → okTag tag)
    (I := fun s => System.PathState (server cfg) s ∧ I s)
    (fun s l s' hs hl hnext => ⟨System.step_path hs.1 hnext, hstep s l s' hs.1 hs.2 hl hnext⟩)
    ⟨System.pathState_initial World.start, hinitial⟩
    (System.along_of_forall _ _ fun l hl _ tag htag => ?_) hrun).2
  subst htag
  rcases List.mem_cons.mp hl with hl | hl
  · cases hl
    exact hwarmup
  · obtain ⟨route, rfl⟩ := hrest _ hl tag rfl
    exact hclient route

/-- The keys of a warm-up over a map are distinct. -/
theorem nodup_warmupKeys {dcs : List (ℕ × Host)} (h : (dcs.map Prod.fst).Nodup) :
    (warmupKeys dcs).Nodup := by
  rw [warmupKeys, List.nodup_flatMap]
  refine ⟨fun d _ => by simp, ?_⟩
  rw [List.Nodup, List.pairwise_map] at h
  refine h.imp fun hne key hkey hkey' => hne ?_
  simp only [List.mem_cons, List.not_mem_nil, or_false] at hkey hkey'
  rcases hkey with rfl | rfl <;> simpa using hkey'

/-- The loop's one warm-up visits every bucket once. -/
theorem Serving.warmsOnce {dcs : List (ℕ × Host)} {ls : List ServerLabel} (h : Serving dcs ls)
    (hdcs : dcs.Perm cfg.dcRedirects) : WarmsOnce ls := by
  obtain ⟨rest, rfl, hrest⟩ := h
  have hnone : warmups rest = [] := by
    refine List.filterMap_eq_nil_iff.mpr fun l hl => ?_
    cases l with
    | start tag =>
      obtain ⟨route, rfl⟩ := hrest _ hl tag rfl
      rfl
    | step i env => rfl
  have hone : warmups (.start (.warmup dcs) :: rest) = [dcs] := by
    change dcs :: warmups rest = [dcs]
    rw [hnone]
  rw [WarmsOnce, hone, List.flatMap_singleton]
  exact nodup_warmupKeys ((hdcs.map Prod.fst).nodup_iff.mpr (nodup_keys_collectLast _))

/-! ## The buckets of the direct pool -/

/-- The task is about configured DCs as far as the direct pool is concerned. -/
def Tag.Confined (cfg : Config) : Tag → Prop
  | .get args _ => (cfg.dcTargetIp args.dc).isSome = true
  | .refill args => (cfg.dcTargetIp args.dc).isSome = true
  | .warmup dcs => ∀ key ∈ warmupKeys dcs, (cfg.dcTargetIp key.1).isSome = true
  | _ => True

/-- The direct pool has connections for configured DCs only. -/
structure Confined (cfg : Config) (s : ServerState) : Prop where
  tags : ∀ t ∈ s.tasks, t.tag.Confined cfg
  idle : ∀ key : PoolKey, (cfg.dcTargetIp key.1).isSome = false → s.world.idle key = []

/-- Tasks that are spawned are about the DC of the task that spawned them. -/
theorem TaskGuar.spawns_confined {tag : Tag} {history : History} {op : Op}
    (h : TaskGuar cfg tag history op) (htag : tag.Confined cfg) {env : Env} {w : World}
    {tag' : Tag} (htag' : tag' ∈ (exec cfg op env w).2.2) : tag'.Confined cfg := by
  rcases exec_spawn cfg op env w htag' with ⟨key, now, args, rfl, rfl⟩ | ⟨target, rfl, rfl⟩
  · cases tag with
    | client route =>
      obtain ⟨htarget, hkey, hargs⟩ := DirectGuar.pools h
      have hdc : args.dc = route.dc := congrArg Prod.fst ((hargs args rfl).trans hkey)
      rw [Tag.Confined, hdc]
      exact htarget
    | get args' allowRefill =>
      rw [h.2 args rfl]
      exact htag
    | cfConnect tier route dst => exact absurd h.1 id
    | _ => exact absurd h id
  · trivial

/-- A push to a bucket of the direct pool is made by a task that is about it. -/
theorem TaskGuar.pushes_confined {tag : Tag} {history : History} {key : PoolKey}
    {conns : List Stream} (htag : tag.Confined cfg)
    (h : TaskGuar cfg tag history (.refillPush key conns) ∨
      TaskGuar cfg tag history (.warmupPush key conns)) :
    (cfg.dcTargetIp key.1).isSome = true := by
  rcases h with h | h
  · obtain ⟨args, rfl⟩ := h.owner
    rw [h.1]
    exact htag
  · obtain ⟨dcs, rfl⟩ := h.owner
    exact htag key (List.mem_of_getElem? h.1)

theorem step_confined {s s' : ServerState} {l : ServerLabel}
    (hs : System.PathState (server cfg) s) (h : Confined cfg s)
    (hl : ∀ tag, l = .start tag → tag.Confined cfg)
    (hstep : (server cfg).step s l = some s') : Confined cfg s' := by
  rcases System.step_cases hstep with ⟨tag, rfl, rfl⟩ | ⟨i, env, tag, op, next, rfl, htask, rfl⟩
  · refine ⟨fun t ht => ?_, h.idle⟩
    rcases List.mem_append.mp ht with ht | ht
    · exact h.tags t ht
    · rw [List.mem_singleton.mp ht]
      exact hl tag rfl
  · have hguar := run_next hs htask
    have htag : tag.Confined cfg := h.tags _ (List.mem_of_getElem? htask)
    refine ⟨fun t ht => ?_, fun key hkey => ?_⟩
    · rcases System.mem_tasks_perform ht with rfl | ht | ⟨tag', htag', rfl⟩
      · exact htag
      · exact h.tags t ht
      · exact hguar.spawns_confined htag htag'
    · change (exec cfg op env s.world).2.1.idle key = []
      have hold := h.idle key hkey
      have hpushed : ∀ {P : Prop}, (cfg.dcTargetIp key.1).isSome = true → P := by
        intro P hsome
        rw [hkey] at hsome
        cases hsome
      rcases exec_idle cfg op env s.world key with
        hsame | ⟨_, _, -, hpre⟩ | ⟨conns, rfl, -⟩ | ⟨conns, rfl, -⟩
      · rw [hsame, hold]
      · rw [hold] at hpre
        exact List.prefix_nil.mp hpre
      · exact hpushed (TaskGuar.pushes_confined htag (.inl hguar))
      · exact hpushed (TaskGuar.pushes_confined htag (.inr hguar))

theorem Serving.confined {dcs : List (ℕ × Host)} {ls : List ServerLabel} {s : ServerState}
    (h : Serving dcs ls) (hdcs : dcs.Perm cfg.dcRedirects)
    (hrun : (server cfg).run (System.initial World.start) ls = some s) : Confined cfg s := by
  apply h.invariant (Tag.Confined cfg) ?_ (fun _ => trivial)
    (fun s l s' hs h hl hstep => step_confined hs h hl hstep)
    ⟨by simp [System.initial], fun _ _ => rfl⟩ hrun
  intro key hkey
  obtain ⟨d, hd, hkey⟩ := List.mem_flatMap.mp hkey
  have hdc : key.1 = d.1 := by
    simp only [List.mem_cons, List.not_mem_nil, or_false] at hkey
    rcases hkey with rfl | rfl <;> rfl
  rw [hdc, dcTargetIp_isSome_iff]
  exact List.mem_map_of_mem (hdcs.mem_iff.mp hd)

/-- Nothing is in flight for a DC that is not configured. -/
theorem Confined.inFlight_eq_zero {s : ServerState} (h : Confined cfg s) {key : PoolKey}
    (hkey : (cfg.dcTargetIp key.1).isSome = false) : System.total (inFlight key) s = 0 := by
  refine System.total_eq_zero fun i t ht => ?_
  have htag := h.tags t (List.mem_of_getElem? ht)
  obtain ⟨tag, prog⟩ := t
  cases tag with
  | refill args =>
    refine if_neg fun hargs => ?_
    have hsome : (cfg.dcTargetIp args.key.1).isSome = true := htag
    rw [hargs, hkey] at hsome
    cases hsome
  | warmup dcs =>
    refine if_neg fun hnext => ?_
    have hsome := htag key (List.mem_of_getElem? hnext)
    rw [hkey] at hsome
    cases hsome
  | _ => rfl

/-- The buckets that the warm-up visits and the limit reserves for. -/
def Config.buckets (cfg : Config) : Finset PoolKey :=
  (cfg.dcRedirects.map Prod.fst).toFinset ×ˢ Finset.univ

theorem mem_buckets_iff (key : PoolKey) :
    key ∈ cfg.buckets ↔ (cfg.dcTargetIp key.1).isSome = true := by
  rw [dcTargetIp_isSome_iff, Config.buckets, Finset.mem_product, List.mem_toFinset]
  exact and_iff_left (Finset.mem_univ _)

theorem card_buckets_le : cfg.buckets.card ≤ cfg.dcBuckets := by
  rw [Config.buckets, Finset.card_product, Finset.card_univ, Fintype.card_bool, Config.dcBuckets]
  refine Nat.mul_le_mul_right 2 ((List.toFinset_card_le _).trans ?_)
  rw [List.length_map]

/-- **The direct pool as a whole** keeps to what the limit reserves for it. -/
theorem direct_within {dcs : List (ℕ × Host)} (hdcs : dcs.Perm cfg.dcRedirects) {a : Acceptor}
    (h : Acceptor.Reaches cfg maxConnections C (Acceptor.start cfg dcs) a)
    (keys : Finset PoolKey) :
    ∑ key ∈ keys, ((a.server.world.idle key).length + System.total (inFlight key) a.server) ≤
      2 * (cfg.poolSize * cfg.dcBuckets) := by
  obtain ⟨ls, hls, hrun⟩ := Acceptor.reaches_run h
  have hconfined := hls.confined hdcs hrun
  have hbucket := bucket_within (hls.warmsOnce hdcs) hrun
  set held := fun key => (a.server.world.idle key).length + System.total (inFlight key) a.server
  have hother : ∀ key, key ∉ cfg.buckets → held key = 0 := by
    intro key hkey
    rw [mem_buckets_iff, Bool.not_eq_true] at hkey
    simp only [held, hconfined.idle key hkey, hconfined.inFlight_eq_zero hkey, List.length_nil]
  calc ∑ key ∈ keys, held key
      ≤ ∑ key ∈ keys ∪ cfg.buckets, held key :=
        Finset.sum_le_sum_of_subset Finset.subset_union_left
    _ = ∑ key ∈ cfg.buckets, held key :=
        (Finset.sum_subset Finset.subset_union_right fun key _ => hother key).symm
    _ ≤ cfg.buckets.card * (2 * cfg.poolSize) := Finset.sum_le_card_nsmul _ _ _ fun key _ =>
        hbucket key
    _ ≤ cfg.dcBuckets * (2 * cfg.poolSize) := Nat.mul_le_mul_right _ card_buckets_le
    _ = 2 * (cfg.poolSize * cfg.dcBuckets) := by
        rw [Nat.mul_comm, Nat.mul_assoc]

/-! ## Cloudflare spares -/

/-- The step is not one in which a Cloudflare refill finds its bucket below the budget, after which
it opens a connection. -/
def Acceptor.NoSpare (cfg : Config) (a : Acceptor) (l : AcceptLabel) : Prop :=
  ∀ i env tag key next, l = .task i env →
    a.server.tasks[i]? = some ⟨tag, .act (.cfLen key) next⟩ →
    cfg.cfBudget ≤ (a.server.world.cfIdle key).length

/-- No Cloudflare refill has room for a connection, and none is kept. -/
structure Spareless (cfg : Config) (s : ServerState) : Prop where
  budget : ∀ i target prog, s.tasks[i]? = some ⟨.cfRefill target, prog⟩ →
    (progress (System.eventsOf s.trace i)).budget cfg.cfBudget = 0
  idle : ∀ key, s.world.cfIdle key = []

/-- Only refills push to the Cloudflare pool, and only what they had room for. -/
theorem Spareless.not_cfPush {s : ServerState} (h : Spareless cfg s)
    (hs : System.PathState (server cfg) s) {i : ℕ} {tag : Tag} {target : CfTarget} {ws : Stream}
    {next : Unit → Action (Option Upstream)} :
    s.tasks[i]? ≠ some ⟨tag, .act (.cfPush target ws) next⟩ := by
  intro htask
  have hguar := run_next hs htask
  obtain ⟨target', rfl⟩ := hguar.owner
  have hroom : 0 < (progress (System.eventsOf s.trace i)).budget cfg.cfBudget := hguar.2.2.2
  rw [h.budget i _ _ htask] at hroom
  exact absurd hroom (lt_irrefl 0)

/-- **One step** opens no spare, unless a refill finds room for it. -/
theorem step_spareless {s s' : ServerState} {l : ServerLabel}
    (hs : System.PathState (server cfg) s) (h : Spareless cfg s)
    (hl : ∀ i env tag key next, l = .step i env →
      s.tasks[i]? = some ⟨tag, .act (.cfLen key) next⟩ →
      cfg.cfBudget ≤ (s.world.cfIdle key).length)
    (hstep : (server cfg).step s l = some s') : Spareless cfg s' := by
  rcases System.step_cases hstep with ⟨tag, rfl, rfl⟩ | ⟨i, env, tag, op, next, rfl, htask, rfl⟩
  · refine ⟨fun j target prog ht => ?_, h.idle⟩
    rcases System.tasks_start_cases ht with ht | ⟨rfl, -⟩
    · exact h.budget j target prog ht
    · change (progress (System.eventsOf s.trace _)).budget _ = 0
      rw [hs.eventsOf_fresh le_rfl]
      rfl
  · have hi := (List.getElem?_eq_some_iff.mp htask).1
    refine ⟨fun j target prog ht => ?_, fun key => ?_⟩
    · rcases System.tasks_perform_cases hi ht with ⟨rfl, hself⟩ | ⟨hji, ht⟩ | ⟨hj, -⟩
      · obtain ⟨rfl, -⟩ := Task.mk.inj hself
        have hguar : CfRefillGuar cfg target (System.eventsOf s.trace j) op := run_next hs htask
        have hold := h.budget j _ _ htask
        rw [System.eventsOf_perform_self, progress_snoc]
        cases op with
        | cfRegister key => rw [hguar.2]; rfl
        | cfLen key => exact Nat.sub_eq_zero_of_le (hl j env _ key next rfl htask)
        | dial request =>
          have hroom := hguar.2.2
          omega
        | cfPush target' ws => exact absurd htask (h.not_cfPush hs)
        | cfRelease key => rfl
        | _ => exact absurd hguar id
      · rw [System.eventsOf_perform_ne (Ne.symm hji)]
        exact h.budget j target prog ht
      · have hfresh : System.eventsOf s.trace j = [] := hs.eventsOf_fresh hj
        rw [System.eventsOf_perform_ne (by omega), hfresh]
        rfl
    · change (exec cfg op env s.world).2.1.cfIdle key = []
      rcases exec_cfIdle cfg op env s.world key with hsame | ⟨_, -, hpre⟩ | ⟨t, ws, rfl, -, -⟩
      · rw [hsame, h.idle key]
      · rw [h.idle key] at hpre
        exact List.prefix_nil.mp hpre
      · exact absurd htask (h.not_cfPush hs)

/-- **In every run** whose refills find no room, no spare is opened. -/
theorem Acceptor.reaches_spareless {dcs : List (ℕ × Host)} {a : Acceptor}
    (h : Acceptor.Reaches cfg maxConnections (Acceptor.NoSpare cfg) (Acceptor.start cfg dcs) a) :
    Spareless cfg a.server := by
  induction h with
  | refl =>
    refine ⟨fun i target prog ht => ?_, fun _ => rfl⟩
    cases i <;> cases ht
  | tail hreach hnext ih =>
    obtain ⟨l, hl, hstep⟩ := hnext
    obtain ⟨ls, -, hrun⟩ := Acceptor.reaches_run hreach
    have hs := pathState_of_run hrun
    rcases Acceptor.step_cases hstep with
      ⟨hsame, -⟩ | ⟨route, rfl, -, hserver⟩ | ⟨i, env, rfl, -, hserver⟩
    · rwa [hsame]
    · exact step_spareless hs ih (fun _ _ _ _ _ hlabel => by cases hlabel) hserver
    · refine step_spareless hs ih (fun j env' tag key next hlabel htask => ?_) hserver
      cases hlabel
      exact hl i env tag key next rfl htask

theorem Spareless.cfInFlight_eq_zero {s : ServerState} (h : Spareless cfg s)
    (hs : System.PathState (server cfg) s) (key : CfKey) :
    System.total (cfInFlight key) s = 0 := by
  refine System.total_eq_zero fun i t ht => ?_
  obtain ⟨tag, prog⟩ := t
  cases tag with
  | cfRefill target =>
    have hflight := cfRefill_flight hs ht
    rw [h.budget i target prog ht] at hflight
    simp only [cfInFlight]
    split_ifs
    · exact Nat.le_zero.mp hflight
    · rfl
  | _ => rfl

/-- A tier that is not configured asks for no spares. -/
theorem step_noCfRefill (hdomains : cfg.cfDomains = []) (hworkers : cfg.cfWorkerDomains = [])
    {s s' : ServerState} {l : ServerLabel} (hs : System.PathState (server cfg) s)
    (h : ∀ t ∈ s.tasks, ∀ target, t.tag ≠ .cfRefill target)
    (hl : ∀ tag, l = .start tag → ∀ target, tag ≠ .cfRefill target)
    (hstep : (server cfg).step s l = some s') :
    ∀ t ∈ s'.tasks, ∀ target, t.tag ≠ .cfRefill target := by
  have htier : ∀ tier, ¬ cfg.HasTier tier := by
    intro tier hconfigured
    cases tier with
    | worker => exact hconfigured hworkers
    | proxy => exact hconfigured hdomains
  rcases System.step_cases hstep with ⟨tag, rfl, rfl⟩ | ⟨i, env, tag, op, next, rfl, htask, rfl⟩
  · intro t ht
    rcases List.mem_append.mp ht with ht | ht
    · exact h t ht
    · rw [List.mem_singleton.mp ht]
      exact hl tag rfl
  · intro t ht target htarget
    have hguar := run_next hs htask
    rcases System.mem_tasks_perform ht with rfl | ht | ⟨tag', htag', rfl⟩
    · exact h _ (List.mem_of_getElem? htask) target htarget
    · exact h t ht target htarget
    · rcases exec_spawn cfg op env s.world htag' with ⟨_, _, args, rfl, rfl⟩ | ⟨_, rfl, rfl⟩
      · cases htarget
      · cases tag with
        | client route => exact htier _ (DirectGuar.pools hguar).1
        | cfConnect tier route dst => exact htier _ hguar.1
        | _ => exact absurd hguar id

theorem Serving.noCfRefill {dcs : List (ℕ × Host)} {ls : List ServerLabel} {s : ServerState}
    (h : Serving dcs ls) (hdomains : cfg.cfDomains = []) (hworkers : cfg.cfWorkerDomains = [])
    (hrun : (server cfg).run (System.initial World.start) ls = some s) :
    ∀ t ∈ s.tasks, ∀ target, t.tag ≠ .cfRefill target :=
  h.invariant (fun tag => ∀ target, tag ≠ .cfRefill target)
    (fun _ htag => by cases htag) (fun _ _ htag => by cases htag)
    (fun s l s' hs h hl hstep => step_noCfRefill hdomains hworkers hs h hl hstep)
    (by simp [System.initial]) hrun

/-- **No spares by configuration.** With pooling disabled or no Cloudflare tier configured, every
run is one in which no refill finds room. -/
theorem Acceptor.noSpare_of_config
    (hcfg : cfg.poolSize = 0 ∨ (cfg.cfDomains = [] ∧ cfg.cfWorkerDomains = []))
    {dcs : List (ℕ × Host)} {a : Acceptor}
    (h : Acceptor.Reaches cfg maxConnections C (Acceptor.start cfg dcs) a) :
    Acceptor.Reaches cfg maxConnections (Acceptor.NoSpare cfg) (Acceptor.start cfg dcs) a := by
  induction h with
  | refl => exact .refl
  | tail hreach hnext ih =>
    obtain ⟨l, -, hstep⟩ := hnext
    refine ih.tail ⟨l, fun i env tag key next _ htask => ?_, hstep⟩
    rcases hcfg with hpool | ⟨hdomains, hworkers⟩
    · rw [Config.cfBudget, hpool, Nat.min_zero]
      exact Nat.zero_le _
    · -- there is no refill to measure a bucket
      obtain ⟨ls, hls, hrun⟩ := Acceptor.reaches_run hreach
      obtain ⟨target, rfl⟩ := (run_next (pathState_of_run hrun) htask).owner
      have hnone := hls.noCfRefill hdomains hworkers hrun _ (List.mem_of_getElem? htask)
      exact absurd rfl (hnone target)

/-! ## The budget -/

/-- The descriptors in use: the listener, two for each permit, and the connections that the pools
hold or are opening for the given keys. -/
def Acceptor.fds (a : Acceptor) (keys : Finset PoolKey) (cfKeys : Finset CfKey) : ℕ :=
  1 + fdsPerConnection * a.permits +
    ∑ key ∈ keys, ((a.server.world.idle key).length + System.total (inFlight key) a.server) +
    ∑ key ∈ cfKeys, ((a.server.world.cfIdle key).length + System.total (cfInFlight key) a.server)

/-- The descriptors in use, for whichever keys, are within the limit less the reserve. -/
def Acceptor.WithinFdBudget (fdLimit : ℕ) (a : Acceptor) : Prop :=
  ∀ keys cfKeys, a.fds keys cfKeys ≤ fdLimit - runtimeReservedFds

/-- Steps of task `i` in the accept loop. -/
def loopSteps (i count : ℕ) : List AcceptLabel := List.replicate count (.task i smoothEnv)

/-- The warm-up fills a bucket, and a client takes its connection while the loop waits for the
next. -/
def warmLoopRun : List AcceptLabel :=
  [.acquire, .accept, .route dcTwo, .acquire] ++ loopSteps 0 3 ++ loopSteps 1 4 ++
    loopSteps 2 3

/-- All four permits are held. One client has connected through the Worker, and its prefetch is
connecting. -/
def fullHouseRun : List AcceptLabel :=
  [.acquire, .accept, .acquire, .accept, .acquire, .accept, .acquire, .accept,
    .route dcTwo] ++ loopSteps 1 6 ++ loopSteps 2 2

end TgWsProxy
