import TgWsProxy.Pool.Capacity
import TgWsProxy.Proxy.Guarantees
import TgWsProxy.Proxy.Messages

set_option relaxedAutoImplicit false
set_option autoImplicit false

/-!
# Framing matches the upstream

A stream does not say which connector opened it. The pools keep the streams of the connectors apart
by where they store them: the direct pool by DC, the Cloudflare pool by tier and DC. So the framing
that `select_upstream` returns is the one that the stream's connector calls for, over the whole
history of the pools.

## Main definitions

* `TgWsProxy.Tag.purpose` — the DC that a task opens connections for.
* `TgWsProxy.OpenedFor` — the stream was opened for a DC with a request of a kind.
* `TgWsProxy.Sourced` — everything in the pools was opened for the key it is stored under.

## Main results

* `TgWsProxy.step_sourced`, `run_sourced` — the pools keep the streams apart.
* `TgWsProxy.framing_matches` — the framing of an upstream is that of its connector, and what the
  bridge sends to it follows.
-/

namespace TgWsProxy

open Process

variable {cfg : Config}

/-! ## Who opened a stream -/

/-- The DC that a task opens its next connection for; a warm-up goes from bucket to bucket. -/
def Tag.purpose : Tag → History → Option PoolKey
  | .client route, _ => some (route.dc, route.isMedia)
  | .get .., _ => none
  | .cfConnect _ route _, _ => some (route.dc, route.isMedia)
  | .warmup dcs, history => (warmupKeys dcs)[(progress history).filled]?
  | .refill args, _ => some args.key
  | .cfRefill target, _ => some (target.dc, target.isMedia)

/-- Some task has opened the stream for the DC, with a request of the kind. -/
def OpenedFor (s : ServerState) (key : PoolKey) (kind : DialRequest → Prop) (ws : Stream) : Prop :=
  ∃ i t before request after, s.tasks[i]? = some t ∧
    System.eventsOf s.trace i = before ++ ⟨.dial request, .connected ws⟩ :: after ∧
    kind request ∧ t.tag.purpose before = some key

/-- What has been opened stays so. -/
theorem OpenedFor.step {s s' : ServerState} {l : ServerLabel} {key : PoolKey}
    {kind : DialRequest → Prop} {ws : Stream} (h : OpenedFor s key kind ws)
    (hstep : (server cfg).step s l = some s') : OpenedFor s' key kind ws := by
  obtain ⟨j, t, before, request, after, ht, hevents, hkind, hpurpose⟩ := h
  have hj := (List.getElem?_eq_some_iff.mp ht).1
  rcases System.step_cases hstep with ⟨tag, rfl, rfl⟩ | ⟨i, env, tag, op, next, rfl, htask, rfl⟩
  · exact ⟨j, t, before, request, after, by rw [List.getElem?_append_left hj, ht], hevents, hkind,
      hpurpose⟩
  · by_cases hij : i = j
    · subst hij
      rw [htask] at ht
      cases ht
      refine ⟨i, _, before, request, after ++ [⟨op, (exec cfg op env s.world).1⟩],
        System.getElem?_tasks_perform_self hj, ?_, hkind, hpurpose⟩
      rw [System.eventsOf_perform_self, hevents, List.append_assoc, List.cons_append]
      rfl
    · exact ⟨j, t, before, request, after, System.getElem?_tasks_perform_ne hij ht,
        by rw [System.eventsOf_perform_ne hij, hevents], hkind, hpurpose⟩

/-- The requests of the connector that fills a bucket of the Cloudflare pool. -/
def cfKind (key : CfKey) (request : DialRequest) : Prop :=
  match key.1 with
  | .worker => request.IsWorker key.2.1 key.2.2
  | .proxy => request.IsApiws

/-! ## What a task of the pool has open -/

/-- A stream that is open was dialled since the last push. -/
theorem dialled_of_mem_conns {history : History} {ws : Stream}
    (h : ws ∈ (progress history).conns) :
    ∃ before request after, history = before ++ ⟨.dial request, .connected ws⟩ :: after ∧
      (progress before).filled = (progress history).filled := by
  induction history using List.reverseRecOn with
  | nil => cases h
  | append_singleton history e ih =>
    rw [progress_snoc] at h ⊢
    -- an operation that changes neither the open streams nor the bucket
    have hkeep : ((progress history).after e).conns = (progress history).conns →
        ((progress history).after e).filled = (progress history).filled →
        ∃ before request after,
          history ++ [e] = before ++ ⟨.dial request, .connected ws⟩ :: after ∧
            (progress before).filled = ((progress history).after e).filled := by
      intro hconns hfilled
      rw [hconns] at h
      obtain ⟨before, request, after, rfl, hbefore⟩ := ih h
      exact ⟨before, request, after ++ [e], by simp, by rw [hfilled, hbefore]⟩
    obtain ⟨op, r⟩ := e
    cases op with
    | dial request =>
      cases r with
      | connected ws' =>
        change ws ∈ (progress history).conns ++ [ws'] at h
        rcases List.mem_append.mp h with h | h
        · obtain ⟨before, request', after, rfl, hbefore⟩ := ih h
          exact ⟨before, request', after ++ [⟨.dial request, .connected ws'⟩], by simp, hbefore⟩
        · rw [List.mem_singleton.mp h]
          exact ⟨history, request, [], rfl, rfl⟩
      | _ => exact hkeep rfl rfl
    | refillPush key conns => cases h
    | cfPush target ws' => cases h
    | warmupPush key conns => cases h
    | _ => exact hkeep rfl rfl

/-- What a task has open, it has opened as its guarantee allows. -/
theorem opened_of_mem_conns {s : ServerState} (hs : System.PathState (server cfg) s) {i : ℕ}
    {t : Task Op Op.Resp Tag (Option Upstream)} (ht : s.tasks[i]? = some t) {ws : Stream}
    (h : ws ∈ (progress (System.eventsOf s.trace i)).conns) {key : PoolKey}
    {kind : DialRequest → Prop}
    (hpurpose : ∀ before, (progress before).filled =
      (progress (System.eventsOf s.trace i)).filled → t.tag.purpose before = some key)
    (hkind : ∀ before request, TaskGuar cfg t.tag before (.dial request) → kind request) :
    OpenedFor s key kind ws := by
  obtain ⟨before, request, after, hevents, hfilled⟩ := dialled_of_mem_conns h
  have hpath := hs.path i t ht
  rw [hevents] at hpath
  have hguar : TaskGuar cfg t.tag ([] ++ before) (.dial request) :=
    (body_obeys t.tag).path_guar hpath
  exact ⟨i, t, before, request, after, ht, hevents, hkind _ _ hguar, hpurpose before hfilled⟩

/-! ## The invariant of the pools -/

/-- What a response says about a stream: the request it was opened with, or where it was taken
from. -/
def Op.RespSourced (s : ServerState) : (op : Op) → op.Resp → Prop
  | .dial request, .connected ws => ws.request = request
  | .poolTake key _ _, some ws => OpenedFor s key DialRequest.IsApiws ws
  | .cfTake key _, some entry => OpenedFor s key.2 (cfKind key) entry.ws
  | _, _ => True

/-- Everything in the pools, and everything taken from them, was opened for the key it is stored
under, by the connector that belongs there. -/
structure Sourced (s : ServerState) : Prop where
  idle : ∀ key, ∀ e ∈ s.world.idle key, OpenedFor s key DialRequest.IsApiws e.ws
  cfIdle : ∀ key, ∀ e ∈ s.world.cfIdle key, OpenedFor s key.2 (cfKind key) e.ws
  events : ∀ i, ∀ e ∈ System.eventsOf s.trace i, e.op.RespSourced s e.resp

theorem Op.RespSourced.step {s s' : ServerState} {l : ServerLabel} {op : Op} {r : op.Resp}
    (h : op.RespSourced s r) (hstep : (server cfg).step s l = some s') : op.RespSourced s' r := by
  cases op with
  | dial request => cases r <;> exact h
  | poolTake key now refill =>
    cases r with
    | none => trivial
    | some ws => exact OpenedFor.step h hstep
  | cfTake key now =>
    cases r with
    | none => trivial
    | some entry => exact OpenedFor.step h hstep
  | _ => trivial

/-- What an operation returns comes from where the invariant says. -/
theorem Sourced.resp {s : ServerState} (h : Sourced s) (op : Op) (env : Env) :
    op.RespSourced s (exec cfg op env s.world).1 := by
  cases op with
  | dial request =>
    simp only [exec, execAt]
    cases env.outcome <;> first | rfl | trivial
  | poolTake key now refill =>
    cases htaken : (exec cfg (.poolTake key now refill) env s.world).1 with
    | none => trivial
    | some ws =>
      obtain ⟨e, he, rfl⟩ := Option.map_eq_some_iff.mp htaken
      exact h.idle key e (takeUsable_mem he)
  | cfTake key now =>
    cases htaken : (exec cfg (.cfTake key now) env s.world).1 with
    | none => trivial
    | some entry => exact h.cfIdle key entry (takeUsable_mem htaken)
  | _ => trivial

section Pushes

variable {s : ServerState} (hs : System.PathState (server cfg) s) {i : ℕ} {tag : Tag}

include hs

/-- A refill pushes what it opened for its bucket. -/
theorem refillPush_opened {key : PoolKey} {conns : List Stream}
    {next : Unit → Action (Option Upstream)}
    (htask : s.tasks[i]? = some ⟨tag, .act (.refillPush key conns) next⟩) {ws : Stream}
    (hws : ws ∈ conns) : OpenedFor s key DialRequest.IsApiws ws := by
  have hguar := run_next hs htask
  obtain ⟨args, rfl⟩ := hguar.owner
  obtain ⟨rfl, -, rfl, -⟩ := hguar
  apply opened_of_mem_conns hs htask hws
  · exact fun _ _ => rfl
  · exact fun _ _ hdial => hdial.2.1

/-- A warm-up pushes what it opened for the bucket it is at. -/
theorem warmupPush_opened {key : PoolKey} {conns : List Stream}
    {next : Unit → Action (Option Upstream)}
    (htask : s.tasks[i]? = some ⟨tag, .act (.warmupPush key conns) next⟩) {ws : Stream}
    (hws : ws ∈ conns) : OpenedFor s key DialRequest.IsApiws ws := by
  have hguar := run_next hs htask
  obtain ⟨dcs, rfl⟩ := hguar.owner
  obtain ⟨hkey, rfl, -⟩ := hguar
  apply opened_of_mem_conns hs htask hws
  · intro before hfilled
    rw [Tag.purpose, hfilled]
    exact hkey
  · exact fun _ _ hdial => hdial.1

/-- A Cloudflare refill pushes the connection of its tier that it opened for its DC. -/
theorem cfPush_opened {target : CfTarget} {ws : Stream} {next : Unit → Action (Option Upstream)}
    (htask : s.tasks[i]? = some ⟨tag, .act (.cfPush target ws) next⟩) :
    OpenedFor s target.key.2 (cfKind target.key) ws := by
  have hguar := run_next hs htask
  obtain ⟨target', rfl⟩ := hguar.owner
  obtain ⟨rfl, -, hconns, -⟩ := hguar
  have hws : ws ∈ (progress (System.eventsOf s.trace i)).conns := by simp [hconns]
  apply opened_of_mem_conns hs htask hws
  · exact fun _ _ => rfl
  · exact fun _ _ hdial => hdial.2.1

end Pushes

/-- **One step** keeps the streams apart. -/
theorem step_sourced {s s' : ServerState} {l : ServerLabel}
    (hs : System.PathState (server cfg) s) (h : Sourced s)
    (hstep : (server cfg).step s l = some s') : Sourced s' := by
  rcases System.step_cases hstep with ⟨tag, rfl, rfl⟩ | ⟨i, env, tag, op, next, rfl, htask, rfl⟩
  · exact ⟨fun key e he => (h.idle key e he).step hstep,
      fun key e he => (h.cfIdle key e he).step hstep,
      fun j e he => (h.events j e he).step hstep⟩
  · refine ⟨fun key e he => ?_, fun key e he => ?_, fun j e he => ?_⟩
    · change e ∈ (exec cfg op env s.world).2.1.idle key at he
      suffices hopened : OpenedFor s key DialRequest.IsApiws e.ws from hopened.step hstep
      rcases exec_idle cfg op env s.world key with
        hsame | ⟨_, _, -, hpre⟩ | ⟨conns, rfl, hpush⟩ | ⟨conns, rfl, hpush⟩
      · rw [hsame] at he
        exact h.idle key e he
      · exact h.idle key e (hpre.subset he)
      · rw [hpush] at he
        rcases List.mem_append.mp he with he | he
        · exact h.idle key e he
        · exact refillPush_opened hs htask (List.mem_of_mem_take (ws_mem_of_mem_entries he))
      · rw [hpush] at he
        rcases List.mem_append.mp he with he | he
        · exact h.idle key e he
        · exact warmupPush_opened hs htask (ws_mem_of_mem_entries he)
    · change e ∈ (exec cfg op env s.world).2.1.cfIdle key at he
      suffices hopened : OpenedFor s key.2 (cfKind key) e.ws from hopened.step hstep
      rcases exec_cfIdle cfg op env s.world key with hsame | ⟨_, -, hpre⟩ | ⟨t, ws, rfl, rfl, hpush⟩
      · rw [hsame] at he
        exact h.cfIdle key e he
      · exact h.cfIdle key e (hpre.subset he)
      · rw [hpush] at he
        rcases List.mem_append.mp he with he | he
        · exact h.cfIdle _ e he
        · rw [List.mem_singleton.mp he]
          exact cfPush_opened hs htask
    · rcases System.mem_eventsOf_perform he with he | ⟨rfl, rfl⟩
      · exact (h.events j e he).step hstep
      · exact (h.resp op env).step hstep

/-- **In every run** everything in the pools was opened for the key it is stored under. -/
theorem run_sourced {ls : List ServerLabel} {s : ServerState}
    (hrun : (server cfg).run (System.initial World.start) ls = some s) : Sourced s := by
  refine System.run_invariant_of_path (fun _ _ _ hs h hstep => step_sourced hs h hstep) ?_ hrun
  refine ⟨fun key e he => ?_, fun key e he => ?_, fun i e he => ?_⟩ <;> cases he

/-! ## The upstream of a client -/

/-- The requests of the connectors that call for a framing. -/
def WsFraming.kind (route : Route) : WsFraming → DialRequest → Prop
  | .tunnel => (DialRequest.IsWorker · route.dc route.isMedia)
  | .packets => DialRequest.IsApiws

/-- A stream remembers the request it was opened with. -/
theorem OpenedFor.request {s : ServerState} (h : Sourced s) {key : PoolKey}
    {kind : DialRequest → Prop} {ws : Stream} (hopened : OpenedFor s key kind ws) :
    kind ws.request := by
  obtain ⟨i, t, before, request, after, -, hevents, hkind, -⟩ := hopened
  have hrequest : ws.request = request :=
    h.events i ⟨.dial request, .connected ws⟩ (by rw [hevents]; simp)
  rwa [hrequest]

/-- No stream was opened by connectors of both kinds. -/
theorem Sourced.framing_unique {s : ServerState} (h : Sourced s) {route : Route} {ws : Stream}
    {key key' : PoolKey} {framing framing' : WsFraming}
    (hopened : OpenedFor s key (framing.kind route) ws)
    (hopened' : OpenedFor s key' (framing'.kind route) ws) : framing = framing' := by
  have hkind := hopened.request h
  have hkind' := hopened'.request h
  cases framing <;> cases framing'
  · rfl
  · exact absurd hkind (DialRequest.IsWorker.not_isApiws hkind')
  · exact absurd hkind' (DialRequest.IsWorker.not_isApiws hkind)
  · rfl

/-- What a client has dialled, it has opened for its own DC. -/
theorem openedFor_of_dialled {s : ServerState} {i : ℕ} {route : Route}
    {prog : Action (Option Upstream)} (htask : s.tasks[i]? = some ⟨.client route, prog⟩)
    {kind : DialRequest → Prop} {ws : Stream}
    (h : Dialled kind ws (System.eventsOf s.trace i)) :
    OpenedFor s (route.dc, route.isMedia) kind ws := by
  obtain ⟨request, hkind, hmem⟩ := h
  obtain ⟨before, after, hevents⟩ := List.append_of_mem hmem
  exact ⟨i, _, before, request, after, htask, hevents, hkind, rfl⟩

/-- **Where an upstream comes from.** The stream of a client was opened for its DC by a connector
that calls for the framing returned with it. -/
theorem openedFor_of_returned {s : ServerState} (hs : System.PathState (server cfg) s)
    (h : Sourced s) {i : ℕ} {route : Route} {ws : Stream} {framing : WsFraming}
    (htask : s.tasks[i]? = some ⟨.client route, .ret (some (.ws ws framing))⟩) :
    OpenedFor s (route.dc, route.isMedia) (framing.kind route) ws := by
  obtain ⟨-, horigin⟩ : TaskPost (.client route) (System.eventsOf s.trace i) _ :=
    run_returned hs htask
  have horigin := horigin _ rfl
  cases framing with
  | tunnel =>
    rcases horigin with ⟨now, entry, rfl, hmem⟩ | hdialled
    · exact h.events i _ hmem
    · exact openedFor_of_dialled htask hdialled
  | packets =>
    rcases horigin with ⟨now, entry, rfl, hmem⟩ | ⟨now, refill, hmem⟩ | hdialled
    · exact h.events i _ hmem
    · exact h.events i _ hmem
    · exact openedFor_of_dialled htask hdialled

/-- The framing of an upstream is that of its connector, and its bridge sends what the connector's
far end can take: to a Worker no message longer than the read buffer, to the others only outputs of
the splitter after the relay init. -/
structure FramingMatches (s : ServerState) (route : Route) (ws : Stream) (framing : WsFraming) :
    Prop where
  tunnel : framing = .tunnel ↔ OpenedFor s (route.dc, route.isMedia)
    (DialRequest.IsWorker · route.dc route.isMedia) ws
  packets : framing = .packets ↔ OpenedFor s (route.dc, route.isMedia) DialRequest.IsApiws ws
  toWorker : OpenedFor s (route.dc, route.isMedia)
      (DialRequest.IsWorker · route.dc route.isMedia) ws →
    ∀ P oracle relayInit c proto reader script b,
      Bridge.Session P oracle framing relayInit c proto reader script b →
      ∀ msg ∈ b.sent, msg.length ≤ clientReadBufSize
  toOthers : OpenedFor s (route.dc, route.isMedia) DialRequest.IsApiws ws →
    ∀ P oracle relayInit c proto reader script b,
      Bridge.Session P oracle framing relayInit c proto reader script b →
      b.sent = [] ∨ ∃ msgs outs splitter, b.sent = relayInit.bytes :: msgs ∧
        (MsgSplitter.new P relayInit proto).Emits P splitter outs ∧ msgs.Sublist outs

/-- **Framing matches the upstream**, for every configuration and in every run of connections, pool
hits, prefetches, refills and warm-ups.

**Proof sketch.** A client ends up with a stream that it dialled itself or took from a bucket, and
`run_sourced` says what is in the buckets. The requests of the two kinds of connectors differ, so
the framing is determined by the stream. -/
theorem framing_matches (cfg : Config) (ls : List ServerLabel) (s : ServerState)
    (hrun : (server cfg).run (System.initial World.start) ls = some s) (i : ℕ) (route : Route)
    (ws : Stream) (framing : WsFraming)
    (htask : s.tasks[i]? = some ⟨.client route, .ret (some (.ws ws framing))⟩) :
    FramingMatches s route ws framing := by
  have hsourced := run_sourced hrun
  have hopened := openedFor_of_returned (pathState_of_run hrun) hsourced htask
  have htunnel : framing = .tunnel ↔ OpenedFor s (route.dc, route.isMedia)
      (WsFraming.kind route .tunnel) ws := by
    constructor
    · rintro rfl
      exact hopened
    · exact fun hworker => hsourced.framing_unique hopened hworker
  have hpackets : framing = .packets ↔ OpenedFor s (route.dc, route.isMedia)
      (WsFraming.kind route .packets) ws := by
    constructor
    · rintro rfl
      exact hopened
    · exact fun hapiws => hsourced.framing_unique hopened hapiws
  refine ⟨htunnel, hpackets, fun hworker => ?_, fun hapiws => ?_⟩
  · obtain rfl := htunnel.mpr hworker
    intro P oracle relayInit c proto reader script b hsession
    exact Bridge.run_tunnel (reader.length_fromClient_le script) hsession
  · obtain rfl := hpackets.mpr hapiws
    intro P oracle relayInit c proto reader script b hsession
    obtain ⟨splitter, outs, -, hemits, ⟨-, hnone⟩ | ⟨msgs, hsent, hmsgs⟩⟩ :=
      Bridge.run_packets hsession
    · exact .inl hnone
    · exact .inr ⟨msgs, outs, splitter, hsent, hemits, hmsgs⟩

/-- What a task returned. -/
def returnedBy (s : ServerState) (i : ℕ) : Option (Tag × Option Upstream) :=
  match s.tasks[i]? with
  | some ⟨tag, .ret answer⟩ => some (tag, answer)
  | _ => none

theorem task_of_returnedBy {s : ServerState} {i : ℕ} {tag : Tag} {answer : Option Upstream}
    (h : returnedBy s i = some (tag, answer)) : s.tasks[i]? = some ⟨tag, .ret answer⟩ := by
  unfold returnedBy at h
  split at h
  · rename_i htask
    cases h
    exact htask
  · cases h

/-- One client connects through the Worker, and its spare is opened in the background; the next
client takes the spare. -/
def pooledRun : List ServerLabel :=
  .start (.client dcTwo) :: (smoothSteps 0 6 ++ smoothSteps 1 5) ++
    .start (.client dcTwo) :: smoothSteps 2 3

theorem framing_matches_pooledRun :
    ∃ s ws, (server workerConfig).run (System.initial World.start) pooledRun = some s ∧
      s.tasks[2]? = some ⟨.client dcTwo, .ret (some (.ws ws .tunnel))⟩ ∧
      FramingMatches s dcTwo ws .tunnel := by
  have hreturned : ((server workerConfig).run (System.initial World.start) pooledRun).map
      (fun s => returnedBy s 2) = some (some (.client dcTwo, some (.ws ⟨1, workerRequest
        "worker.example.dev".toList "149.154.167.51".toList 2 false false 10⟩ .tunnel))) := by
    decide +kernel
  obtain ⟨s, hs, hanswer⟩ := Option.map_eq_some_iff.mp hreturned
  have htask := task_of_returnedBy hanswer
  exact ⟨s, _, hs, htask, framing_matches workerConfig pooledRun s hs 2 dcTwo _ .tunnel htask⟩

end TgWsProxy
