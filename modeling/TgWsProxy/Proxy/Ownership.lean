import TgWsProxy.Lib.Custody
import TgWsProxy.Pool.Freshest
import TgWsProxy.Proxy.Framing

set_option relaxedAutoImplicit false
set_option autoImplicit false

/-!
# Every connection has one owner

A WebSocket is opened by one task. A client connection, a `get` or a Cloudflare call may take it out
of a pool bucket, a refill or the warm-up may put it there; nobody else touches it. So no two client
connections are ever bridged over one WebSocket, and what a client is bridged over no pool hands out
again.

## Main definitions

* `TgWsProxy.owned` — the streams a task owns, by what it has performed.
* `TgWsProxy.streamCustody` — tasks and buckets as the owners of streams.
* `TgWsProxy.Exclusive` — every stream has one owner.

## Main results

* `TgWsProxy.exec_moves` — every operation that a task may perform moves streams or opens one.
* `TgWsProxy.run_exclusive` — every stream has one owner, in every run.
-/

namespace TgWsProxy

open Process

/-! ## Who owns what -/

/-- The numbers of some streams. -/
def streamIds (conns : List Stream) : Multiset ℕ := ↑(conns.map Stream.id)

/-- The streams of a task after an operation: it owns what it has dialled or taken from a bucket,
until it pushes it. -/
def ownedAfter (owned : Multiset ℕ) : Event Op Op.Resp → Multiset ℕ
  | ⟨.dial _, .connected ws⟩ => ws.id ::ₘ owned
  | ⟨.poolTake .., some ws⟩ => ws.id ::ₘ owned
  | ⟨.cfTake .., some entry⟩ => entry.ws.id ::ₘ owned
  | ⟨.refillPush _ conns, _⟩ => owned - streamIds conns
  | ⟨.warmupPush _ conns, _⟩ => owned - streamIds conns
  | ⟨.cfPush _ ws, _⟩ => owned - streamIds [ws]
  | _ => owned

/-- The streams that a task owns, by its history. -/
def owned (history : History) : Multiset ℕ := history.foldl ownedAfter 0

@[simp] theorem owned_nil : owned [] = 0 := rfl

@[simp] theorem owned_snoc (history : History) (e : Event Op Op.Resp) :
    owned (history ++ [e]) = ownedAfter (owned history) e := by
  rw [owned, List.foldl_append]
  rfl

/-- The streams in a bucket of either pool. -/
def World.bucketIds (w : World) : PoolKey ⊕ CfKey → Multiset ℕ
  | .inl key => streamIds ((w.idle key).map PoolEntry.ws)
  | .inr key => streamIds ((w.cfIdle key).map CfEntry.ws)

/-- Streams are owned by tasks and lie in buckets; their numbers are given out in order. -/
def streamCustody : System.Custody Op Op.Resp World (PoolKey ⊕ CfKey) ℕ where
  held := owned
  stored := World.bucketIds
  created w := {n | n < w.nextStream}

@[simp] theorem streamCustody_stored : streamCustody.stored = World.bucketIds := rfl

/-! ## What operations do -/

@[simp] theorem streamIds_append (conns conns' : List Stream) :
    streamIds (conns ++ conns') = streamIds conns + streamIds conns' := by
  unfold streamIds
  rw [List.map_append, ← Multiset.coe_add]

theorem streamIds_le {conns conns' : List Stream} (h : conns.Sublist conns') :
    streamIds conns ≤ streamIds conns' :=
  Multiset.coe_le.mpr (h.map Stream.id).subperm

/-- A task of the pools owns the connections that it has opened and not pushed. -/
theorem conns_le_owned (history : History) :
    streamIds (progress history).conns ≤ owned history := by
  induction history using List.reverseRecOn with
  | nil => exact le_rfl
  | append_singleton history e ih =>
    rw [progress_snoc, owned_snoc]
    obtain ⟨op, r⟩ := e
    have hnone : ∀ owned : Multiset ℕ, streamIds [] ≤ owned := fun owned => Multiset.zero_le owned
    cases op with
    | dial request =>
      cases r with
      | connected ws =>
        simp only [Progress.after, ownedAfter, streamIds_append]
        rw [← Multiset.singleton_add, add_comm]
        exact add_le_add le_rfl ih
      | _ => exact ih
    | poolTake key now refill =>
      cases r with
      | none => exact ih
      | some ws => exact ih.trans (Multiset.le_cons_self _ _)
    | cfTake key now =>
      cases r with
      | none => exact ih
      | some entry => exact ih.trans (Multiset.le_cons_self _ _)
    | refillPush key conns => exact hnone _
    | warmupPush key conns => exact hnone _
    | cfPush target ws => exact hnone _
    | _ => exact ih

/-- What a task pushes it owns. -/
def Op.PushesOwned (history : History) : Op → Prop
  | .refillPush _ conns => streamIds conns ≤ owned history
  | .warmupPush _ conns => streamIds conns ≤ owned history
  | .cfPush _ ws => streamIds [ws] ≤ owned history
  | _ => True

variable {cfg : Config}

theorem TaskGuar.pushesOwned {tag : Tag} {history : History} {op : Op}
    (h : TaskGuar cfg tag history op) : op.PushesOwned history := by
  have howner := h.owner
  have hconns := conns_le_owned history
  cases op with
  | refillPush key conns =>
    obtain ⟨args, rfl⟩ := howner
    obtain ⟨-, -, rfl, -⟩ := h
    exact hconns
  | warmupPush key conns =>
    obtain ⟨dcs, rfl⟩ := howner
    obtain ⟨-, rfl, -⟩ := h
    exact hconns
  | cfPush target ws =>
    obtain ⟨target', rfl⟩ := howner
    obtain ⟨-, -, hws, -⟩ := h
    rw [hws] at hconns
    exact hconns
  | _ => trivial

/-- The buckets after one of them has changed. -/
theorem bucketIds_update_idle (w : World) (key : PoolKey) (bucket : List PoolEntry) :
    ∀ q, q ≠ .inl key → World.bucketIds { w with idle := Function.update w.idle key bucket } q =
      w.bucketIds q := by
  rintro (k | k) hq
  · have hk : k ≠ key := fun h => hq (congrArg Sum.inl h)
    simp only [World.bucketIds, Function.update_of_ne hk]
  · rfl

theorem bucketIds_update_cfIdle (w : World) (key : CfKey) (bucket : List CfEntry) :
    ∀ q, q ≠ .inr key → World.bucketIds { w with cfIdle := Function.update w.cfIdle key bucket } q =
      w.bucketIds q := by
  rintro (k | k) hq
  · rfl
  · have hk : k ≠ key := fun h => hq (congrArg Sum.inr h)
    simp only [World.bucketIds, Function.update_of_ne hk]

/-- What is taken from a bucket and what is left in it were in it. -/
theorem takeUsable_le {E : Type} {f : E → Stream} {usable : E → Bool} {bucket left : List E}
    {answer : Option E} (htake : takeUsable usable bucket = (answer, left)) :
    streamIds (answer.toList.map f) + streamIds (left.map f) ≤ streamIds (bucket.map f) := by
  rcases takeUsable_cases usable bucket with ⟨rest, e, dropped, rfl, hcase, -⟩ | ⟨hcase, -⟩
  · rw [hcase] at htake
    cases htake
    rw [add_comm, ← streamIds_append, ← List.map_append]
    refine streamIds_le (List.Sublist.map f ?_)
    exact List.Sublist.append_left (List.Sublist.cons_cons e (List.nil_sublist dropped)) _
  · rw [hcase] at htake
    cases htake
    exact Multiset.zero_le _

/-- A push moves streams from the task to a bucket, or drops them. -/
theorem push_le {pushed kept bucket : Multiset ℕ} {owned : Multiset ℕ} (hkept : kept ≤ pushed)
    (howned : pushed ≤ owned) : owned - pushed + (bucket + kept) ≤ owned + bucket := by
  calc owned - pushed + (bucket + kept) ≤ owned - pushed + (bucket + pushed) := by
        exact add_le_add le_rfl (add_le_add le_rfl hkept)
    _ = owned - pushed + pushed + bucket := by rw [add_comm bucket, add_assoc]
    _ = owned + bucket := by rw [Multiset.sub_add_cancel howned]

/-- **Every operation** that a task may perform keeps or drops streams, moves them between the task
and one bucket, or opens one for the task. -/
theorem exec_moves {history : History} {op : Op} (hop : op.PushesOwned history) (env : Env)
    (w : World) :
    streamCustody.Moves (owned history) (owned (history ++ [⟨op, (exec cfg op env w).1⟩])) w
      (exec cfg op env w).2.1 := by
  rw [owned_snoc]
  cases op with
  | dial request =>
    simp only [exec, execAt]
    cases env.outcome with
    | connected =>
      refine .creates w.nextStream le_rfl (lt_irrefl w.nextStream) rfl ?_
      ext n
      exact Nat.lt_succ_iff_lt_or_eq.trans or_comm
    | _ => exact .keeps le_rfl rfl rfl
  | dialUpstream proxy dcIdx proto timeout =>
    refine .creates w.nextStream (Multiset.le_cons_self _ _) (lt_irrefl w.nextStream) rfl ?_
    ext n
    exact Nat.lt_succ_iff_lt_or_eq.trans or_comm
  | poolTake key now refill =>
    simp only [exec, execAt]
    generalize htake : takeUsable (fun e : PoolEntry =>
      decide (now - e.created ≤ cfg.poolMaxAge) && !env.readable e.ws.id) (w.idle key) = taken
    obtain ⟨answer, left⟩ := taken
    have hle := takeUsable_le (f := PoolEntry.ws) htake
    refine .moves (.inl key) ?_ (bucketIds_update_idle _ key left) rfl
    simp only [streamCustody_stored, World.bucketIds, Function.update_self]
    cases answer with
    | none => exact add_le_add le_rfl ((Multiset.le_add_left _ _).trans hle)
    | some e =>
      change e.ws.id ::ₘ owned history + _ ≤ _
      rw [Multiset.cons_add, ← Multiset.add_cons, ← Multiset.singleton_add]
      exact add_le_add le_rfl hle
  | cfTake key now =>
    simp only [exec, execAt]
    generalize htake : takeUsable (fun e : CfEntry =>
      decide (now - e.created ≤ cfg.poolMaxAge) && !env.readable e.ws.id) (w.cfIdle key) = taken
    obtain ⟨answer, left⟩ := taken
    have hle := takeUsable_le (f := CfEntry.ws) htake
    refine .moves (.inr key) ?_ (bucketIds_update_cfIdle _ key left) rfl
    simp only [streamCustody_stored, World.bucketIds, Function.update_self]
    cases answer with
    | none => exact add_le_add le_rfl ((Multiset.le_add_left _ _).trans hle)
    | some e =>
      change e.ws.id ::ₘ owned history + _ ≤ _
      rw [Multiset.cons_add, ← Multiset.add_cons, ← Multiset.singleton_add]
      exact add_le_add le_rfl hle
  | refillPush key conns =>
    simp only [exec, execAt, World.push]
    refine .moves (.inl key) ?_ (bucketIds_update_idle _ key _) rfl
    simp only [streamCustody_stored, World.bucketIds, Function.update_self, List.map_append, map_ws_entries,
      streamIds_append]
    exact push_le (streamIds_le (List.take_sublist _ conns)) hop
  | warmupPush key conns =>
    simp only [exec, execAt, World.push]
    refine .moves (.inl key) ?_ (bucketIds_update_idle _ key _) rfl
    simp only [streamCustody_stored, World.bucketIds, Function.update_self, List.map_append, map_ws_entries,
      streamIds_append]
    exact push_le le_rfl hop
  | cfPush target ws =>
    simp only [exec, execAt]
    split_ifs
    · refine .moves (.inr target.key) ?_ (bucketIds_update_cfIdle _ target.key _) rfl
      simp only [streamCustody_stored, World.bucketIds, Function.update_self, List.map_append, streamIds_append]
      exact push_le le_rfl hop
    · exact .keeps (Multiset.sub_le_self _ _) rfl rfl
  | _ => exact .keeps le_rfl rfl rfl

/-! ## Runs -/

/-- Every stream is in one place at most, whatever tasks start and however they interleave. -/
theorem run_single {ls : List ServerLabel} {s : ServerState}
    (hrun : (server cfg).run (System.initial World.start) ls = some s) :
    streamCustody.Single s := by
  refine System.run_invariant_of_path (I := fun s => streamCustody.Single s)
    (fun s l s' hpath h hstep => System.Custody.step_single hpath rfl ?_ h hstep)
    (System.Custody.single_initial ?_) hrun
  · intro i env tag op next htask
    exact exec_moves (run_next hpath htask).pushesOwned env s.world
  · rintro (key | key) <;> rfl

/-- Connections put nothing into a pool, so what they own only grows. -/
theorem ownedAfter_of_asks {route : Route} {pooled : Prop} {e : Event Op Op.Resp}
    (h : e.op.Asks cfg route pooled) (m : Multiset ℕ) : ownedAfter m e = ownedAfter 0 e + m := by
  obtain ⟨op, r⟩ := e
  have hnone : m = 0 + m := (zero_add m).symm
  have hone : ∀ n : ℕ, n ::ₘ m = (n ::ₘ 0) + m := by
    intro n
    rw [Multiset.cons_add, zero_add]
  cases op with
  | dial request =>
    cases r with
    | connected ws => exact hone ws.id
    | _ => exact hnone
  | poolTake key now refill =>
    cases r with
    | none => exact hnone
    | some ws => exact hone ws.id
  | cfTake key now =>
    cases r with
    | none => exact hnone
    | some entry => exact hone entry.ws.id
  | refillPush key conns => exact absurd h id
  | warmupPush key conns => exact absurd h id
  | cfPush target ws => exact absurd h id
  | _ => exact hnone

/-- What a connection has dialled or taken it owns from then on. -/
theorem mem_owned_of_mem {route : Route} {pooled : Prop} {history : History}
    (h : ∀ e ∈ history, e.op.Asks cfg route pooled) {e : Event Op Op.Resp} (he : e ∈ history)
    {n : ℕ} (hn : n ∈ ownedAfter 0 e) : n ∈ owned history := by
  induction history using List.reverseRecOn with
  | nil => cases he
  | append_singleton history last ih =>
    rw [owned_snoc, ownedAfter_of_asks (h last (by simp)), Multiset.mem_add]
    rcases List.mem_append.mp he with hold | hlast
    · right
      apply ih _ hold
      intro e' he'
      exact h e' (List.mem_append_left _ he')
    · left
      rw [← List.mem_singleton.mp hlast]
      exact hn

/-- A client owns the stream it was given. -/
theorem owned_of_returned {s : ServerState} (hs : System.PathState (server cfg) s) {i : ℕ}
    {route : Route} {ws : Stream} {framing : WsFraming}
    (htask : s.tasks[i]? = some ⟨.client route, .ret (some (.ws ws framing))⟩) :
    ws.id ∈ owned (System.eventsOf s.trace i) := by
  have hasks : ∀ e ∈ System.eventsOf s.trace i, e.op.Asks cfg route (route.HasTarget cfg) := by
    intro e he
    obtain ⟨before, after, hevents⟩ := List.append_of_mem he
    have hpath := hs.path i _ htask
    rw [hevents] at hpath
    exact DirectGuar.pools ((body_obeys (.client route)).path_guar hpath)
  obtain ⟨-, horigin⟩ : TaskPost (.client route) (System.eventsOf s.trace i) _ :=
    run_returned hs htask
  have hself : ∀ n : ℕ, n ∈ n ::ₘ (0 : Multiset ℕ) := fun n => Multiset.mem_cons_self n 0
  have hdialled : ∀ kind, Dialled kind ws (System.eventsOf s.trace i) →
      ws.id ∈ owned (System.eventsOf s.trace i) := by
    rintro kind ⟨request, -, hmem⟩
    exact mem_owned_of_mem hasks hmem (hself ws.id)
  have htookCf : ∀ key, TookCf key ws (System.eventsOf s.trace i) →
      ws.id ∈ owned (System.eventsOf s.trace i) := by
    rintro key ⟨now, entry, rfl, hmem⟩
    exact mem_owned_of_mem hasks hmem (hself entry.ws.id)
  have htook : ∀ key, TookPooled key ws (System.eventsOf s.trace i) →
      ws.id ∈ owned (System.eventsOf s.trace i) := by
    rintro key ⟨now, refill, hmem⟩
    exact mem_owned_of_mem hasks hmem (hself ws.id)
  have horigin := horigin _ rfl
  cases framing with
  | tunnel =>
    rcases horigin with hcf | hdial
    · exact htookCf _ hcf
    · exact hdialled _ hdial
  | packets =>
    rcases horigin with hcf | hpool | hdial
    · exact htookCf _ hcf
    · exact htook _ hpool
    · exact hdialled _ hdial

/-- Every stream has one owner. -/
structure Exclusive (s : ServerState) : Prop where
  /-- What a client was given and what a refill or a warm-up has opened and not pushed, they own. -/
  returned : ∀ (i : ℕ) (route : Route) (ws : Stream) (framing : WsFraming),
    s.tasks[i]? = some ⟨.client route, .ret (some (.ws ws framing))⟩ →
      ws.id ∈ owned (System.eventsOf s.trace i)
  opened : ∀ i, ∀ ws ∈ (progress (System.eventsOf s.trace i)).conns,
    ws.id ∈ owned (System.eventsOf s.trace i)
  /-- Two tasks that own one stream are one task. -/
  owner_unique : ∀ i j n, n ∈ owned (System.eventsOf s.trace i) →
    n ∈ owned (System.eventsOf s.trace j) → i = j
  /-- No bucket holds what a task owns, and no two places in the buckets hold one stream. -/
  not_pooled : ∀ i n place, n ∈ owned (System.eventsOf s.trace i) → n ∉ s.world.bucketIds place
  bucket_unique : ∀ n place place', n ∈ s.world.bucketIds place →
    n ∈ s.world.bucketIds place' → place = place'
  bucket_nodup : ∀ place, (s.world.bucketIds place).Nodup

/-- Who owns something is a task. -/
theorem task_of_owned {s : ServerState} (hs : System.PathState (server cfg) s) {i n : ℕ}
    (hn : n ∈ owned (System.eventsOf s.trace i)) : ∃ t, s.tasks[i]? = some t := by
  by_contra hnone
  have hlen : s.tasks.length ≤ i := by
    by_contra hlt
    exact hnone ⟨_, List.getElem?_eq_getElem (not_le.mp hlt)⟩
  rw [hs.eventsOf_fresh hlen] at hn
  exact absurd hn (Multiset.notMem_zero n)

/-- **Every stream has one owner**, in every run of connections, pool hits, prefetches, refills and
warm-ups: no two clients are ever given one WebSocket, and none that a client was given or that is
still being opened for a pool lies in a pool.

**Proof sketch.** Dialling gives out a fresh number, taking from a bucket removes what it returns,
and a push puts down only what its task has opened. So the copies of a number over all tasks and
buckets never come to more than one. -/
theorem run_exclusive (cfg : Config) (ls : List ServerLabel) (s : ServerState)
    (hrun : (server cfg).run (System.initial World.start) ls = some s) : Exclusive s := by
  have hs := pathState_of_run hrun
  have hsingle := run_single hrun
  constructor
  · intro i route ws framing htask
    exact owned_of_returned hs htask
  · intro i ws hws
    apply Multiset.mem_of_le (conns_le_owned _)
    exact Multiset.mem_coe.mpr (List.mem_map_of_mem hws)
  · intro i j n hi hj
    obtain ⟨t, ht⟩ := task_of_owned hs hi
    obtain ⟨u, hu⟩ := task_of_owned hs hj
    exact hsingle.holder_unique ht hu hi hj
  · intro i n place hi
    obtain ⟨t, ht⟩ := task_of_owned hs hi
    exact hsingle.not_stored_of_held ht hi place
  · intro n place place' hn hn'
    exact hsingle.place_unique hn hn'
  · intro place
    exact hsingle.nodup_stored place

/-- The two clients of `pooledRun` have a stream each; the second took it from the pool. -/
theorem run_exclusive_pooledRun :
    ∃ s ws ws', (server workerConfig).run (System.initial World.start) pooledRun = some s ∧
      s.tasks[0]? = some ⟨.client dcTwo, .ret (some (.ws ws .tunnel))⟩ ∧
      s.tasks[2]? = some ⟨.client dcTwo, .ret (some (.ws ws' .tunnel))⟩ ∧
      Exclusive s ∧ ws.id ≠ ws'.id := by
  have hreturned : ((server workerConfig).run (System.initial World.start) pooledRun).map
      (fun s => (returnedBy s 0, returnedBy s 2)) = some
        (some (.client dcTwo, some (.ws ⟨0, workerRequest "worker.example.dev".toList
          "149.154.167.51".toList 2 false false 10⟩ .tunnel)),
        some (.client dcTwo, some (.ws ⟨1, workerRequest "worker.example.dev".toList
          "149.154.167.51".toList 2 false false 10⟩ .tunnel))) := rfl
  obtain ⟨s, hs, hanswers⟩ := Option.map_eq_some_iff.mp hreturned
  obtain ⟨hfirst, hsecond⟩ := Prod.mk.inj hanswers
  have htask := task_of_returnedBy hfirst
  have htask' := task_of_returnedBy hsecond
  have hexclusive := run_exclusive workerConfig pooledRun s hs
  refine ⟨s, _, _, hs, htask, htask', hexclusive, fun hids => ?_⟩
  have hown := hexclusive.returned 0 _ _ _ htask
  have hown' := hexclusive.returned 2 _ _ _ htask'
  rw [hids] at hown
  exact absurd (hexclusive.owner_unique 0 2 _ hown hown') (by decide)

end TgWsProxy
