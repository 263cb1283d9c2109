import TgWsProxy.Proxy.IpCooldown

set_option relaxedAutoImplicit false
set_option autoImplicit false

/-!
# The cooldown of fronting

A fronted attempt that fails is remembered per DC and media flag, while the window that a fronted
success opens is shared by all of them. A connection that finds the window open goes straight to a
fronted attempt without looking at the failures of its own DC.

## Main definitions

* `TgWsProxy.FailsFronted`, `FrontsNext` — a fronted attempt fails, and one is about to be made.
* `TgWsProxy.NotRetried` — the law: none is made within the cooldown.
* `TgWsProxy.heedsFailures` — the steps that keep it.
* `TgWsProxy.Awaits` — what holds between a failed attempt and the end of its cooldown.

## Main results

* `TgWsProxy.step_awaits` — it is kept by every step that heeds the failures.
* `TgWsProxy.fronting_not_retried` — so no fronted attempt is made within the cooldown.
-/

namespace TgWsProxy

open Process Route

variable {cfg : Config}

/-! ## The law -/

/-- The bucket of a connection, which is also the key of its cooldowns. -/
def Route.key (route : Route) : PoolKey := (route.dc, route.isMedia)

/-- Task `i` is a client of the DC and is about to dial with a fronted SNI. -/
def FrontsNext (key : PoolKey) (s : ServerState) (i : ℕ) : Prop :=
  ∃ route request next, s.tasks[i]? = some ⟨.client route, .act (.dial request) next⟩ ∧
    route.key = key ∧ request.sniOverride.isSome = true

/-- The step ends a fronted attempt of a client of the DC in failure: its dial brings no stream,
and the client does not dial another hostname. -/
def FailsFronted (cfg : Config) (key : PoolKey) (s : ServerState) (l : ServerLabel)
    (s' : ServerState) : Prop :=
  ∃ i env, l = .step i env ∧ FrontsNext key s i ∧ env.outcome ≠ .connected ∧
    (server cfg).step s l = some s' ∧ ∀ request, System.nextOp s' i ≠ some (.dial request)

/-- Behind a fronted attempt that failed, no fronted attempt is made for the same DC and media flag
before the cooldown has passed. -/
def NotRetried (cfg : Config) (ls : List ServerLabel) : Prop :=
  ∀ pre l mid key s s₁ s₂ i, pre ++ l :: mid <+: ls →
    (server cfg).run (System.initial World.start) pre = some s → FailsFronted cfg key s l s₁ →
    (server cfg).run s₁ mid = some s₂ → FrontsNext key s₂ i →
    s₁.world.clock + cfg.timeouts.frontingFailCooldown ≤ s₂.world.clock

/-- Client connections. -/
def Tag.isClient : Tag → Bool
  | .client _ => true
  | _ => false

/-- Clients are handled one after another: one arrives only when the others have returned. -/
def oneByOne (s : ServerState) : ServerLabel → Bool
  | .start (.client _) => s.tasks.all fun t => !t.tag.isClient || t.prog.finished
  | _ => true

/-- `Runtime::fronting_active`. -/
def World.frontingOpen (w : World) : Bool := w.frontingUntil.any fun deadline => w.clock < deadline

/-- A client that is about to read the fronting window does not find it open while a failed
fronted attempt for its own DC is still cooling. -/
def heedsFailures (cfg : Config) (s : ServerState) : ServerLabel → Bool
  | .start _ => true
  | .step i env =>
    match s.tasks[i]? with
    | some ⟨.client route, .act .frontingActive _⟩ =>
      cfg.frontingDomain.isNone || !(s.world.later env.elapsed).frontingOpen ||
        !(s.world.later env.elapsed).cooling (.frontingFail route.dc route.isMedia)
    | _ => true

/-! ## One client at a time -/

/-- Of the clients at most one has not returned. -/
def OneClient (s : ServerState) : Prop :=
  ∀ (i j : ℕ) (route route' : Route) (prog prog' : Action (Option Upstream)),
    s.tasks[i]? = some ⟨.client route, prog⟩ → s.tasks[j]? = some ⟨.client route', prog'⟩ →
    prog.finished = false → prog'.finished = false → i = j

/-- No task spawns a client. -/
theorem not_client_of_spawn {op : Op} {env : Env} {w : World} {tag : Tag}
    (h : tag ∈ (exec cfg op env w).2.2) : tag.isClient = false := by
  rcases exec_spawn cfg op env w h with ⟨_, _, _, -, rfl⟩ | ⟨_, -, rfl⟩ <;> rfl

/-- The clients after an operation: the one that performed it, or another one as before. -/
theorem client_perform_cases {s : ServerState} {i : ℕ} {env : Env} {tag : Tag} {op : Op}
    {next : op.Resp → Action (Option Upstream)} (hi : i < s.tasks.length) {j : ℕ} {route : Route}
    {prog : Action (Option Upstream)}
    (ht : ((server cfg).perform s i env tag op next).tasks[j]? = some ⟨.client route, prog⟩) :
    (j = i ∧ tag = .client route) ∨ (j ≠ i ∧ s.tasks[j]? = some ⟨.client route, prog⟩) := by
  rcases System.tasks_perform_cases hi ht with ⟨hj, hself⟩ | hother | ⟨-, tag', htag', hnew⟩
  · cases hself
    exact .inl ⟨hj, rfl⟩
  · exact .inr hother
  · cases hnew
    cases not_client_of_spawn htag'

theorem step_oneClient {s s' : ServerState} {l : ServerLabel} (hs : OneClient s)
    (hl : oneByOne s l = true) (hstep : (server cfg).step s l = some s') : OneClient s' := by
  rcases System.step_cases hstep with ⟨tag, rfl, rfl⟩ | ⟨k, env, tag, op, next, rfl, htask, rfl⟩
  · intro i j route route' prog prog' hi hj hprog hprog'
    -- a client that arrives finds the others done
    have hdone : ∀ (k : ℕ) (route : Route) (prog : Action (Option Upstream)),
        s.tasks[k]? = some ⟨.client route, prog⟩ → tag.isClient = true →
        prog.finished = true := by
      intro k route prog hk htag
      cases tag with
      | client r =>
        have := List.all_eq_true.mp hl _ (List.mem_of_getElem? hk)
        simpa [Tag.isClient] using this
      | _ => cases htag
    rcases System.tasks_start_cases hi with hi' | ⟨hi', hnew⟩ <;>
      rcases System.tasks_start_cases hj with hj' | ⟨hj', hnew'⟩
    · exact hs i j route route' prog prog' hi' hj' hprog hprog'
    · cases hnew'
      rw [hdone i route prog hi' rfl] at hprog
      cases hprog
    · cases hnew
      rw [hdone j route' prog' hj' rfl] at hprog'
      cases hprog'
    · rw [hi', hj']
  · have hk := (List.getElem?_eq_some_iff.mp htask).1
    intro i j route route' prog prog' hi hj hprog hprog'
    rcases client_perform_cases hk hi with ⟨rfl, rfl⟩ | ⟨-, hi'⟩ <;>
      rcases client_perform_cases hk hj with ⟨rfl, htag⟩ | ⟨-, hj'⟩
    · rfl
    · exact hs i j route route' _ prog' htask hj' rfl hprog'
    · subst htag
      exact hs i j route route' prog _ hi' htask hprog rfl
    · exact hs i j route route' prog prog' hi' hj' hprog hprog'

/-! ## Between a failed attempt and the end of its cooldown -/

/-- The client has to note a failed fronted attempt: its next operation closes the window or notes
the failure. -/
def NotesNext (history : History) (prog : Action (Option Upstream)) : Prop :=
  due history = .note ∨
    due history = .closeOrNote ∧ ∀ request next, prog ≠ .act (.dial request) next

/-- **The invariant.** The deadline has passed; or the failure is about to be noted by the only
client that is running; or it is noted until after the deadline, and no client of the DC has a
permission to front. -/
inductive Awaits (cfg : Config) (key : PoolKey) (deadline : ℕ) (s : ServerState) : Prop
  | passed : deadline ≤ s.world.clock → Awaits cfg key deadline s
  | noting (i : ℕ) (route : Route) (prog : Action (Option Upstream)) :
      s.tasks[i]? = some ⟨.client route, prog⟩ → route.key = key →
      NotesNext (System.eventsOf s.trace i) prog →
      (∀ (j : ℕ) (route' : Route) (prog' : Action (Option Upstream)), j ≠ i →
        s.tasks[j]? = some ⟨.client route', prog'⟩ → prog'.finished = true) →
      Awaits cfg key deadline s
  | noted (expiry : ℕ) :
      s.world.cooldowns (.frontingFail key.1 key.2) = some expiry → deadline ≤ expiry →
      (∀ (j : ℕ) (route : Route) (prog : Action (Option Upstream)),
        s.tasks[j]? = some ⟨.client route, prog⟩ → route.key = key → prog.finished = false →
        ¬ Permitted cfg route (System.eventsOf s.trace j)) →
      Awaits cfg key deadline s

/-- What is due to be closed or noted is due to a failed fronted dial. -/
theorem due_closeOrNote {history : History} (h : due history = .closeOrNote) :
    ∃ before e, history = before ++ [e] ∧ failedFronted e = true := by
  rcases List.eq_nil_or_concat history with rfl | ⟨before, e, rfl⟩
  · cases h
  · rw [List.concat_eq_append] at h ⊢
    refine ⟨before, e, rfl, ?_⟩
    cases hfailed : failedFronted e with
    | true => rfl
    | false =>
      by_cases hclose : e.op = .deactivateFronting
      · rw [due, List.reverse_append, List.reverse_singleton, List.singleton_append] at h
        obtain ⟨op, r⟩ := e
        subst hclose
        cases hbefore : before.reverse with
        | nil =>
          rw [hbefore] at h
          cases h
        | cons e' before' =>
          rw [hbefore] at h
          change (if failedFronted e' then Due.note else Due.nothing) = _ at h
          split_ifs at h
      · rw [due_snoc hfailed hclose] at h
        cases h

/-- A client that has to note a failure has not returned. -/
theorem NotesNext.unfinished {s : ServerState} (hs : System.PathState (server cfg) s) {i : ℕ}
    {route : Route} {prog : Action (Option Upstream)}
    (htask : s.tasks[i]? = some ⟨.client route, prog⟩)
    (h : NotesNext (System.eventsOf s.trace i) prog) : prog.finished = false := by
  cases prog with
  | act op next => rfl
  | ret answer =>
    have hdue : due (System.eventsOf s.trace i) = .nothing := (run_returned hs htask).1
    rcases h with h | ⟨h, -⟩ <;> rw [hdue] at h <;> cases h

/-- A permission that is new comes from the last operation. -/
theorem permitted_snoc {route : Route} {history : History} {e : Event Op Op.Resp}
    (h : Permitted cfg route (history ++ [e])) :
    Permitted cfg route history ∨ cfg.frontingDomain.isSome = true ∧ permits route e = true := by
  obtain ⟨hdomain, hpermits, hmarks⟩ := h
  rw [sinceDirect_snoc] at hpermits hmarks
  split_ifs at hpermits hmarks with hstart
  · exact .inr ⟨hdomain, by simpa using hpermits⟩
  · rw [List.any_append, Bool.or_eq_true] at hpermits
    rw [List.any_append, Bool.or_eq_false_iff] at hmarks
    rcases hpermits with hpermits | hpermits
    · exact .inl ⟨hdomain, hpermits, hmarks.1⟩
    · exact .inr ⟨hdomain, by simpa using hpermits⟩

/-- Behind a note of a failure nothing is permitted. -/
theorem not_permitted_noteFailure {route : Route} (history : History) (r : Unit) :
    ¬ Permitted cfg route (history ++ [⟨noteFailure cfg route, r⟩]) := by
  rintro ⟨-, -, hmarks⟩
  rw [sinceDirect_snoc, if_neg (by simp [startsDirect, noteFailure])] at hmarks
  simp [noteFailure, marksFailure] at hmarks

/-- Other tasks than clients leave the fronting cooldowns alone. -/
theorem frontingFail_of_background {op : Op} (h : op.Background) (env : Env) (w : World) (dc : ℕ)
    (isMedia : Bool) : (exec cfg op env w).2.1.cooldowns (.frontingFail dc isMedia) =
      w.cooldowns (.frontingFail dc isMedia) := by
  rcases exec_cooldowns cfg op env w (.frontingFail dc isMedia) with
    hsame | ⟨cooldown, rfl, -⟩ | ⟨rfl, -⟩
  · exact hsame
  · exact absurd h id
  · exact absurd h id

section Step

variable {key : PoolKey} {deadline : ℕ} {s : ServerState} {i : ℕ} {env : Env} {tag : Tag} {op : Op}
  {next : op.Resp → Action (Option Upstream)}

/-- A step while the failure is to be noted: the client closes the window or notes the failure. -/
theorem noting_step (hs : System.PathState (server cfg) s) {route : Route}
    (htask : s.tasks[i]? = some ⟨.client route, .act op next⟩) (hkey : route.key = key)
    (hnotes : NotesNext (System.eventsOf s.trace i) (.act op next))
    (hothers : ∀ (j : ℕ) (route' : Route) (prog' : Action (Option Upstream)), j ≠ i →
      s.tasks[j]? = some ⟨.client route', prog'⟩ → prog'.finished = true)
    (hdeadline : deadline ≤ s.world.clock + cfg.timeouts.frontingFailCooldown) :
    Awaits cfg key deadline ((server cfg).perform s i env (.client route) op next) := by
  have hi := (List.getElem?_eq_some_iff.mp htask).1
  have hguar : DirectGuar cfg route (System.eventsOf s.trace i) op := run_next hs htask
  -- the others are done, and stay so
  have hothers' : ∀ (j : ℕ) (route' : Route) (prog' : Action (Option Upstream)), j ≠ i →
      ((server cfg).perform s i env (.client route) op next).tasks[j]? =
        some ⟨.client route', prog'⟩ → prog'.finished = true := by
    intro j route' prog' hji hj
    rcases client_perform_cases hi hj with ⟨hji', -⟩ | ⟨-, hj'⟩
    · exact absurd hji' hji
    · exact hothers j route' prog' hji hj'
  have hnoted : op = noteFailure cfg route →
      Awaits cfg key deadline ((server cfg).perform s i env (.client route) op next) := by
    rintro rfl
    subst hkey
    refine .noted (s.world.clock + env.elapsed + cfg.timeouts.frontingFailCooldown) ?_ (by omega) ?_
    · simp [System.perform, server, exec, execAt, noteFailure, Route.key]
    · intro j route' prog' hj hkey' hunfinished
      by_cases hji : j = i
      · subst hji
        rw [System.eventsOf_perform_self]
        rcases client_perform_cases hi hj with ⟨-, htag⟩ | ⟨hne, -⟩
        · cases htag
          exact not_permitted_noteFailure _ _
        · exact absurd rfl hne
      · rw [hothers' j route' prog' hji hj] at hunfinished
        cases hunfinished
  rcases hnotes with hnote | ⟨hclose, hnodial⟩
  · exact hnoted (hguar.owed hnote)
  · rcases hguar.closeOrNote hclose with ⟨request, rfl⟩ | rfl | hop
    · exact absurd rfl (hnodial request next)
    · refine .noting i route _ (System.getElem?_tasks_perform_self hi) hkey (.inl ?_) hothers'
      obtain ⟨before, e, hbefore, hfailed⟩ := due_closeOrNote hclose
      rw [System.eventsOf_perform_self, hbefore, List.append_assoc]
      exact due_snoc_close hfailed before
    · exact hnoted hop

/-- A step while the failure is noted and its cooldown lasts: nobody gets a permission. -/
theorem noted_step (hs : System.PathState (server cfg) s)
    (hheeds : heedsFailures cfg s (.step i env) = true)
    (htask : s.tasks[i]? = some ⟨tag, .act op next⟩) {expiry : ℕ}
    (hnoted : s.world.cooldowns (.frontingFail key.1 key.2) = some expiry)
    (hexpiry : deadline ≤ expiry)
    (hnone : ∀ (j : ℕ) (route : Route) (prog : Action (Option Upstream)),
      s.tasks[j]? = some ⟨.client route, prog⟩ → route.key = key → prog.finished = false →
      ¬ Permitted cfg route (System.eventsOf s.trace j))
    (hdeadline : deadline ≤ s.world.clock + cfg.timeouts.frontingFailCooldown)
    (hlasts : s.world.clock + env.elapsed < deadline) :
    Awaits cfg key deadline ((server cfg).perform s i env tag op next) := by
  have hi := (List.getElem?_eq_some_iff.mp htask).1
  have hguar := run_next hs htask
  have hcooling : (s.world.later env.elapsed).cooling (.frontingFail key.1 key.2) = true := by
    simp only [World.cooling, World.later, hnoted, Option.any_some]
    exact decide_eq_true (by omega)
  -- the note is kept, or renewed
  have hkept : ∃ expiry', ((server cfg).perform s i env tag op next).world.cooldowns
      (.frontingFail key.1 key.2) = some expiry' ∧ deadline ≤ expiry' := by
    change ∃ expiry', (exec cfg op env s.world).2.1.cooldowns _ = some expiry' ∧ _
    by_cases htag : ∃ route, tag = .client route
    · obtain ⟨route, rfl⟩ := htag
      have hguar : DirectGuar cfg route (System.eventsOf s.trace i) op := hguar
      rcases exec_cooldowns cfg op env s.world (.frontingFail key.1 key.2) with
        hsame | ⟨cooldown, hop, hset⟩ | ⟨hop, -⟩
      · exact ⟨expiry, hsame.trans hnoted, hexpiry⟩
      · have hnote := hguar.note _ _ _ hop
        rw [hop, noteFailure, Op.cooldownSet.injEq] at hnote
        refine ⟨_, hset, ?_⟩
        rw [hnote.2]
        omega
      · obtain ⟨hdc, hmedia, hperm⟩ := hguar.clear _ _ hop
        exact absurd hperm (hnone i route _ htask (Prod.ext hdc.symm hmedia.symm) rfl)
    · rw [not_exists] at htag
      exact ⟨expiry, (frontingFail_of_background (hguar.background htag) env _ _ _).trans hnoted,
        hexpiry⟩
  obtain ⟨expiry', hset, hexpiry'⟩ := hkept
  refine .noted expiry' hset hexpiry' ?_
  intro j route prog hj hkey hunfinished
  rcases client_perform_cases hi hj with ⟨rfl, rfl⟩ | ⟨hji, hj'⟩
  swap
  · rw [System.eventsOf_perform_ne (Ne.symm hji)]
    exact hnone j route prog hj' hkey hunfinished
  rw [System.eventsOf_perform_self]
  intro hperm
  rcases permitted_snoc hperm with hperm | ⟨hdomain, hpermits⟩
  · exact hnone j route _ htask hkey rfl hperm
  · subst hkey
    -- the reads that permit a fronted attempt find the note
    cases op with
    | frontingActive =>
      have hopen : (s.world.later env.elapsed).frontingOpen = true := hpermits
      simp only [heedsFailures, htask] at hheeds
      rw [hopen, show (s.world.later env.elapsed).cooling (.frontingFail route.dc route.isMedia) =
        true from hcooling, Option.isNone_eq_false_iff.mpr hdomain] at hheeds
      cases hheeds
    | cooldownActive key' =>
      simp only [permits, Bool.and_eq_true, beq_iff_eq, Bool.not_eq_true'] at hpermits
      obtain ⟨rfl, hread⟩ := hpermits
      exact absurd (hread.symm.trans hcooling) Bool.false_ne_true
    | _ => cases hpermits

end Step

/-- **One step.** Every step that heeds the failures keeps the invariant. -/
theorem step_awaits {key : PoolKey} {deadline : ℕ} {s s' : ServerState} {l : ServerLabel}
    (hs : System.PathState (server cfg) s) (hone : oneByOne s l = true)
    (hheeds : heedsFailures cfg s l = true)
    (hdeadline : deadline ≤ s.world.clock + cfg.timeouts.frontingFailCooldown)
    (h : Awaits cfg key deadline s) (hstep : (server cfg).step s l = some s') :
    Awaits cfg key deadline s' := by
  rcases System.step_cases hstep with ⟨tag, rfl, rfl⟩ | ⟨k, env, tag, op, next, rfl, htask, rfl⟩
  · -- an arrival
    cases h with
    | passed hpassed => exact .passed hpassed
    | noting i route prog htask hkey hnotes hothers =>
      have hi := (List.getElem?_eq_some_iff.mp htask).1
      refine .noting i route prog ?_ hkey hnotes fun j route' prog' hji hj => ?_
      · exact (List.getElem?_append_left hi).trans htask
      · rcases System.tasks_start_cases hj with hj' | ⟨-, hnew⟩
        · exact hothers j route' prog' hji hj'
        · -- a client would have had to wait
          cases hnew
          have hdone := List.all_eq_true.mp hone _ (List.mem_of_getElem? htask)
          simp [Tag.isClient, hnotes.unfinished hs htask] at hdone
    | noted expiry hnoted hexpiry hnone =>
      refine .noted expiry hnoted hexpiry fun j route prog hj hkey hunfinished => ?_
      rcases System.tasks_start_cases hj with hj' | ⟨rfl, -⟩
      · exact hnone j route prog hj' hkey hunfinished
      · rw [hs.eventsOf_fresh le_rfl]
        rintro ⟨-, hpermits, -⟩
        cases hpermits
  · -- an operation
    have hk := (List.getElem?_eq_some_iff.mp htask).1
    have hclock : ((server cfg).perform s k env tag op next).world.clock =
        s.world.clock + env.elapsed := exec_clock cfg op env s.world
    cases h with
    | passed hpassed => exact .passed (by omega)
    | noting i route prog hi hkey hnotes hothers =>
      by_cases hki : k = i
      · subst hki
        rw [htask] at hi
        cases hi
        exact noting_step hs htask hkey hnotes hothers hdeadline
      · -- the task that moves is not a client
        refine .noting i route prog (System.getElem?_tasks_perform_ne hki hi) hkey ?_ ?_
        · rwa [System.eventsOf_perform_ne hki]
        · intro j route' prog' hji hj
          rcases client_perform_cases hk hj with ⟨rfl, rfl⟩ | ⟨-, hj'⟩
          · cases hothers j route' _ hji htask
          · exact hothers j route' prog' hji hj'
    | noted expiry hnoted hexpiry hnone =>
      rcases Nat.lt_or_ge (s.world.clock + env.elapsed) deadline with hlasts | hpassed
      · exact noted_step hs hheeds htask hnoted hexpiry hnone hdeadline hlasts
      · exact .passed (by omega)

/-- At a failure the invariant begins to hold. -/
theorem awaits_of_fails {key : PoolKey} {deadline : ℕ} {s s' : ServerState} {l : ServerLabel}
    (hone : OneClient s)
    (h : FailsFronted cfg key s l s') : Awaits cfg key deadline s' := by
  obtain ⟨i, env, rfl, ⟨route, request, next, htask, hkey, hsni⟩, hfailed, hstep, hnodial⟩ := h
  have hi := (List.getElem?_eq_some_iff.mp htask).1
  have hs' : s' = (server cfg).perform s i env (.client route) (.dial request) next := by
    rw [System.step, htask] at hstep
    exact (Option.some.inj hstep).symm
  subst hs'
  refine .noting i route _ (System.getElem?_tasks_perform_self hi) hkey (.inr ⟨?_, ?_⟩) ?_
  · rw [System.eventsOf_perform_self]
    refine due_snoc_failed ?_ _
    simp only [failedFronted, hsni, server, exec, execAt, Bool.true_and]
    cases houtcome : env.outcome with
    | connected => exact absurd houtcome hfailed
    | _ => rfl
  · intro request' next' hprog
    refine hnodial request' (System.nextOp_eq_some.mpr ⟨.client route, next', ?_⟩)
    rw [System.getElem?_tasks_perform_self hi, hprog]
  · intro j route' prog' hji hj
    rcases client_perform_cases hi hj with ⟨hji', -⟩ | ⟨-, hj'⟩
    · exact absurd hji' hji
    · cases hfinished : prog'.finished with
      | true => rfl
      | false => exact absurd (hone j i _ _ _ _ hj' htask hfinished rfl) hji

/-- While the invariant holds, a fronted attempt is made only behind the deadline. -/
theorem Awaits.frontsNext {key : PoolKey} {deadline : ℕ} {s : ServerState} {i : ℕ}
    (hs : System.PathState (server cfg) s) (h : Awaits cfg key deadline s)
    (hfronts : FrontsNext key s i) : deadline ≤ s.world.clock := by
  obtain ⟨route, request, next, htask, hkey, hsni⟩ := hfronts
  have hguar : DirectGuar cfg route (System.eventsOf s.trace i) (.dial request) :=
    run_next hs htask
  cases h with
  | passed hpassed => exact hpassed
  | noting j route' prog hj hkey' hnotes hothers =>
    by_cases hij : i = j
    · subst hij
      rw [htask] at hj
      cases hj
      rcases hnotes with hnote | ⟨-, hnodial⟩
      · cases hguar.owed hnote
      · exact absurd rfl (hnodial request next)
    · cases hothers i route _ hij htask
  | noted expiry hnoted hexpiry hnone =>
    exact absurd (hguar.dial request rfl hsni) (hnone i route _ htask hkey rfl)

/-- **A failed fronted attempt is not retried within its cooldown**, in every run of the server
whose clients are handled one after another, if no client finds the fronting window open while a
failed attempt for its own DC is still cooling.

**Proof sketch.** The client whose attempt failed notes it before anything else, with a deadline
behind the cooldown. Until then a client of the same DC gets its permission to front from a read of
the cooldown, which finds the note, or from a read of the window, which the condition excludes. -/
theorem fronting_not_retried (cfg : Config) (ls : List ServerLabel)
    (hone : (server cfg).Along (fun s l => oneByOne s l = true) (System.initial World.start) ls)
    (hheeds : (server cfg).Along (fun s l => heedsFailures cfg s l = true)
      (System.initial World.start) ls) : NotRetried cfg ls := by
  rintro pre l mid key s s₁ s₂ i ⟨post, rfl⟩ hpre hfails hmid hfronts
  obtain ⟨-, hafter⟩ := (hone.and hheeds).append.1.append
  obtain ⟨⟨hone₁, -⟩, hrest⟩ := hafter s hpre
  -- before the failure
  have hs : System.PathState (server cfg) s ∧ OneClient s := by
    refine ⟨pathState_of_run hpre, ?_⟩
    refine System.run_invariant (fun _ _ _ hs hl hstep => step_oneClient hs hl hstep) ?_
      hone.append.1.append.1 hpre
    intro i j route route' prog prog' hi
    simp [System.initial] at hi
  obtain ⟨j, env, rfl, -, -, hstep, -⟩ := id hfails
  -- from the failure on
  have hinv := System.run_invariant
    (I := fun s => System.PathState (server cfg) s ∧ s₁.world.clock ≤ s.world.clock ∧
      Awaits cfg key (s₁.world.clock + cfg.timeouts.frontingFailCooldown) s)
    (fun s l s' hs hl hstep => ?_) ⟨System.step_path hs.1 hstep, le_rfl,
      awaits_of_fails hs.2 hfails⟩ (hrest s₁ hstep) hmid
  · exact hinv.2.2.frontsNext hinv.1 hfronts
  · refine ⟨System.step_path hs.1 hstep, ?_,
      step_awaits hs.1 hl.1 hl.2 (by omega) hs.2.2 hstep⟩
    rcases System.step_cases hstep with ⟨_, -, rfl⟩ | ⟨_, env, _, op, _, -, -, rfl⟩
    · exact hs.2.1
    · exact hs.2.1.trans ((Nat.le_add_right _ env.elapsed).trans_eq
        (exec_clock cfg op env s.world).symm)

/-! ## Runs of three clients -/

/-- DC 2 for media. -/
def dcTwoMedia : Route := ⟨2, true, 2, .intermediate⟩

/-- A client of DC 2 whose handshakes stall makes a fronted attempt up to its last hostname. -/
def stalledRun : List ServerLabel :=
  .start (.client dcTwo) :: (smoothSteps 0 7 ++ outcomeSteps 0 [.timedOut, .timedOut] ++
    smoothSteps 0 2 ++ outcomeSteps 0 [.failed []])

/-- The last dial of the attempt fails. -/
def failedStep : ServerLabel := .step 0 { smoothEnv with outcome := .failed [] }

/-- Ten minutes later, when the cooldown has passed, the next client makes a fronted attempt. -/
def patientRun : List ServerLabel :=
  smoothSteps 0 2 ++ .start (.client dcTwo) :: .step 2 { smoothEnv with elapsed := 600 } ::
    (smoothSteps 2 6 ++ outcomeSteps 2 [.timedOut, .timedOut] ++ smoothSteps 2 2)

theorem fronting_not_retried_patientRun :
    NotRetried frontingConfig (stalledRun ++ failedStep :: patientRun) :=
  fronting_not_retried frontingConfig _ (by decide +kernel) (by decide +kernel)

/-- Meanwhile a media client has the same trouble, but its fronted attempt succeeds and opens the
window for everyone; the next client of DC 2 comes right after it. -/
def stickyRun : List ServerLabel :=
  smoothSteps 0 2 ++ .start (.client dcTwoMedia) ::
    (smoothSteps 2 7 ++ outcomeSteps 2 [.timedOut, .timedOut] ++ smoothSteps 2 5 ++
  .start (.client dcTwo) :: smoothSteps 4 7)

theorem frontsNext_of {key : PoolKey} {s : ServerState} {i : ℕ} {route : Route}
    {request : DialRequest} (htag : s.tasks[i]?.map (·.tag) = some (.client route))
    (hop : System.nextOp s i = some (.dial request)) (hkey : route.key = key)
    (hsni : request.sniOverride.isSome = true) : FrontsNext key s i := by
  obtain ⟨tag, next, htask⟩ := System.nextOp_eq_some.mp hop
  rw [htask] at htag
  cases htag
  exact ⟨route, request, next, htask, hkey, hsni⟩

/-- The window that another key opened makes it retry at once. -/
theorem sticky_retries_at_once :
    (server frontingConfig).Along (fun s l => oneByOne s l = true) (System.initial World.start)
        (stalledRun ++ failedStep :: stickyRun) ∧
      ¬ NotRetried frontingConfig (stalledRun ++ failedStep :: stickyRun) := by
  refine ⟨by decide +kernel, fun hlaw => ?_⟩
  have hfirst : ((server frontingConfig).run (System.initial World.start) stalledRun).map
      (fun s => (s.tasks[0]?.map (·.tag), System.nextOp s 0)) =
      some (some (.client dcTwo), some (.dial (apiwsRequest dcTwoIp
        "kws2-1.web.telegram.org".toList false 10 frontingConfig.frontingDomain))) := by
    decide +kernel
  obtain ⟨s, hs, hfacts⟩ := Option.map_eq_some_iff.mp hfirst
  rw [Prod.mk.injEq] at hfacts
  have hfail : ((server frontingConfig).run (System.initial World.start)
      (stalledRun ++ [failedStep])).map (fun s => (s.world.clock, System.nextOp s 0)) =
      some (0, some (noteFailure frontingConfig dcTwo)) := by decide +kernel
  obtain ⟨s₁, hs₁, hfacts₁⟩ := Option.map_eq_some_iff.mp hfail
  rw [Prod.mk.injEq] at hfacts₁
  have hsecond : ((server frontingConfig).run (System.initial World.start)
      (stalledRun ++ [failedStep] ++ stickyRun)).map
      (fun s => (s.world.clock, s.tasks[4]?.map (·.tag), System.nextOp s 4)) =
      some (0, some (.client dcTwo), some (.dial (apiwsRequest dcTwoIp
        "kws2.web.telegram.org".toList false 2 frontingConfig.frontingDomain))) := by
    decide +kernel
  obtain ⟨s₂, hs₂, hfacts₂⟩ := Option.map_eq_some_iff.mp hsecond
  rw [Prod.mk.injEq, Prod.mk.injEq] at hfacts₂
  rw [System.run_append, hs₁, Option.bind_some] at hs₂
  rw [System.run_append, hs, Option.bind_some, System.run] at hs₁
  obtain ⟨s₁', hstep, hs₁⟩ := Option.bind_eq_some_iff.mp hs₁
  cases hs₁
  have hfails : FailsFronted frontingConfig (2, false) s failedStep s₁ := by
    refine ⟨0, _, rfl, frontsNext_of hfacts.1 hfacts.2 rfl rfl, by decide, hstep, ?_⟩
    intro request hdial
    rw [hfacts₁.2] at hdial
    cases hdial
  have hlate := hlaw stalledRun failedStep stickyRun (2, false) s s₁ s₂ 4 List.prefix_rfl hs hfails
    hs₂ (frontsNext_of hfacts₂.2.1 hfacts₂.2.2 rfl rfl)
  rw [hfacts₁.1, hfacts₂.1] at hlate
  cases hlate

end TgWsProxy
