import TgWsProxy.Pool.Capacity

set_option relaxedAutoImplicit false
set_option autoImplicit false

/-!
# Refills keep up with demand

Every `get` starts a refill, and a refill that finds its key registered returns at once: the
refill in progress is trusted to bring the bucket back to `pool_size`. It fixed its batch when it
measured, so a connection taken after that is replaced by nobody.

## Main definitions

* `TgWsProxy.RefillPhase`, `phaseProg` — where a refill is in its program.
* `TgWsProxy.outstanding` — the connections that a refill is still going to add.
* `TgWsProxy.Covers` — a refill whose outstanding batch fills up the bucket.
* `TgWsProxy.RefusalCovered` — a step that, if it turns a refill away, leaves one that covers.

## Main results

* `TgWsProxy.refill_step` — what one step of a refill does to its bucket and its batch.
* `TgWsProxy.step_demand` — demand stays covered if no refill is turned away uncovered.
* `TgWsProxy.refills_keep_bucket_full` — then the bucket is full whenever no refill is left.
-/

namespace TgWsProxy

open Process

variable {cfg : Config}

/-! ## The phases of a refill -/

/-- Where a refill is: about to register, to measure, to read the fronting window for a batch of
`needed`, connecting with `remaining` connects to go, about to release its key, or done. With
nothing remaining, it pushes. -/
inductive RefillPhase
  | spawned
  | registered
  | fronting (needed : ℕ)
  | connecting (active : Bool) (remaining : ℕ) (conns : List Stream)
  | releasing
  | finished

/-- The connect of a pool batch. -/
def batchConnect (cfg : Config) (args : RefillArgs) (active : Bool) : Action WsAttempt :=
  connectWsForDc args.targetIp args.dc args.isMedia args.skipTls WsPool.batchTimeout
    (if active then cfg.frontingDomain else none)

/-- What is left of a refill in each phase. -/
def phaseBody (cfg : Config) (args : RefillArgs) : RefillPhase → Action Unit
  | .spawned => WsPool.refill cfg args
  | .registered => WsPool.refillRegistered cfg args
  | .fronting needed => do
    WsPool.refillFinish args.key (← WsPool.connectBatch cfg args needed)
  | .connecting active remaining conns => do
    WsPool.refillFinish args.key
      (← WsPool.batchLoop (batchConnect cfg args active) remaining conns)
  | .releasing => Prog.perform (Op.refillRelease args.key)
  | .finished => return ()

/-- What is left of the task of a refill. -/
def phaseProg (cfg : Config) (args : RefillArgs) (p : RefillPhase) : Action (Option Upstream) := do
  phaseBody cfg args p
  return none

/-- The connections that a refill is still going to add; before it measures, whatever is
missing. -/
def outstanding (cfg : Config) : RefillPhase → ℕ
  | .spawned => cfg.poolSize
  | .registered => cfg.poolSize
  | .fronting needed => needed
  | .connecting _ remaining conns => remaining + conns.length
  | .releasing => 0
  | .finished => 0

/-- Operations that take from a bucket. -/
def Op.takes (key : PoolKey) : Op → Bool
  | .poolTake k _ _ => k == key
  | _ => false

/-- While every connect succeeds, a connect of the batch is one dial. -/
theorem batchConnect_eq (cfg : Config) (args : RefillArgs) (active : Bool) :
    ∃ request next, batchConnect cfg args active = .act (.dial request) next ∧
      ∀ ws, next (.connected ws) = .ret (.connected ws) := by
  obtain ⟨domain, domains, hdomains⟩ :
      ∃ domain domains, wsDomains args.dc args.isMedia = domain :: domains := by
    rw [wsDomains, orderedRecords]
    cases args.isMedia with
    | false => exact ⟨_, _, rfl⟩
    | true => exact ⟨_, _, rfl⟩
  rw [batchConnect, connectWsForDc, hdomains]
  exact ⟨_, _, rfl, fun _ => rfl⟩

/-- A push of a batch takes nothing out of any bucket. -/
theorem idle_le_refillPush {pushed : PoolKey} {conns : List Stream} {env : Env} {w : World}
    (key : PoolKey) :
    (w.idle key).length ≤ ((exec cfg (.refillPush pushed conns) env w).2.1.idle key).length := by
  rcases exec_idle cfg (.refillPush pushed conns) env w key with
    hsame | ⟨_, _, hop, -⟩ | ⟨_, -, hpush⟩ | ⟨_, hop, -⟩
  · rw [hsame]
  · cases hop
  · rw [hpush]
    simp
  · cases hop

/-- **One step of a refill.** It moves to another phase, spawns nothing and takes nothing. Unless
it is turned away, the bucket and the outstanding batch fill up the pool after the step if they
did before. -/
theorem refill_step {args : RefillArgs} {p : RefillPhase} {op : Op}
    {next : op.Resp → Action (Option Upstream)} {env : Env} {w : World}
    (hprog : phaseProg cfg args p = .act op next) (henv : env.outcome = .connected) :
    (exec cfg op env w).2.2 = [] ∧ (∀ key, op.takes key = false) ∧
      (∀ key, (w.idle key).length ≤ ((exec cfg op env w).2.1.idle key).length) ∧
      ∃ p', next (exec cfg op env w).1 = phaseProg cfg args p' ∧
        (op = .refillRegister args.key ∧ w.refilling args.key = true ∨
          (cfg.poolSize ≤ (w.idle args.key).length + outstanding cfg p →
            cfg.poolSize ≤ ((exec cfg op env w).2.1.idle args.key).length +
              outstanding cfg p')) := by
  cases p with
  | spawned =>
    cases hprog
    refine ⟨rfl, fun _ => rfl, fun _ => le_rfl, ?_⟩
    cases hheld : w.refilling args.key with
    | true =>
      refine ⟨.finished, ?_, .inl ⟨rfl, rfl⟩⟩
      simp only [exec, execAt, hheld]
      rfl
    | false =>
      refine ⟨.registered, ?_, .inr fun _ => Nat.le_add_left _ _⟩
      simp only [exec, execAt, hheld]
      rfl
  | registered =>
    cases hprog
    refine ⟨rfl, fun _ => rfl, fun _ => le_rfl, ?_⟩
    by_cases hfull : (w.idle args.key).length ≥ cfg.poolSize
    · refine ⟨.releasing, ?_, .inr fun _ => hfull⟩
      change ((if (w.idle args.key).length ≥ cfg.poolSize then _ else _ : Action Unit) >>= _) = _
      rw [if_pos hfull]
      rfl
    · refine ⟨.fronting (cfg.poolSize - (w.idle args.key).length), ?_, .inr fun _ => ?_⟩
      · change ((if (w.idle args.key).length ≥ cfg.poolSize then _ else _ : Action Unit) >>= _) = _
        rw [if_neg hfull]
        rfl
      · change cfg.poolSize ≤
          (w.idle args.key).length + (cfg.poolSize - (w.idle args.key).length)
        omega
  | fronting needed =>
    cases hprog
    refine ⟨rfl, fun _ => rfl, fun _ => le_rfl, .connecting _ needed [], rfl, .inr fun hcover => ?_⟩
    simpa [outstanding, exec, execAt] using hcover
  | connecting active remaining conns =>
    cases remaining with
    | succ remaining =>
      obtain ⟨request, rest, hconnect, hrest⟩ := batchConnect_eq cfg args active
      rw [phaseProg, phaseBody, WsPool.batchLoop, hconnect] at hprog
      cases hprog
      refine ⟨by simp [exec, execAt, henv], fun _ => rfl, fun _ => by simp [exec, execAt, henv],
        .connecting active remaining (conns ++ [⟨w.nextStream, request⟩]), ?_,
        .inr fun hcover => ?_⟩
      · rw [phaseProg, phaseBody, hconnect]
        simp only [exec, execAt, henv, hrest]
        rfl
      · simp only [outstanding, exec, execAt, henv, List.length_append, List.length_singleton]
          at hcover ⊢
        omega
    | zero =>
      cases conns with
      | nil =>
        cases hprog
        exact ⟨rfl, fun _ => rfl, fun _ => le_rfl, .finished, rfl, .inr fun hcover => hcover⟩
      | cons ws conns =>
        cases hprog
        refine ⟨rfl, fun _ => rfl, idle_le_refillPush, .releasing, rfl, .inr fun hcover => ?_⟩
        simp only [outstanding, Nat.zero_add, List.length_cons] at hcover
        simp only [outstanding, exec, execAt, World.push, Function.update_self,
          List.length_append, length_entries, List.length_take, List.length_cons]
        omega
  | releasing =>
    cases hprog
    exact ⟨rfl, fun _ => rfl, fun _ => le_rfl, .finished, rfl, .inr fun hcover => hcover⟩
  | finished => cases hprog

/-- A refill that has returned has nothing outstanding. -/
theorem outstanding_of_finished {args : RefillArgs} {p : RefillPhase}
    (h : (phaseProg cfg args p).finished = true) : outstanding cfg p = 0 := by
  cases p with
  | connecting active remaining conns =>
    cases remaining with
    | succ remaining =>
      obtain ⟨request, rest, hconnect, -⟩ := batchConnect_eq cfg args active
      rw [phaseProg, phaseBody, WsPool.batchLoop, hconnect] at h
      cases h
    | zero =>
      cases conns with
      | nil => rfl
      | cons ws conns => cases h
  | releasing => rfl
  | finished => rfl
  | _ => cases h

/-! ## Demand and the refills that cover it -/

/-- Tasks that refill a bucket. -/
def Tag.refills (key : PoolKey) : Tag → Bool
  | .refill args => args.key == key
  | _ => false

/-- A `get` on the bucket has been made. -/
def Taken (key : PoolKey) (s : ServerState) : Prop := ∃ r ∈ s.trace, r.op.takes key = true

/-- No refill of the bucket is pending or running. -/
def RefillsDone (key : PoolKey) (s : ServerState) : Prop :=
  ∀ t ∈ s.tasks, t.tag.refills key = true → t.prog.finished = true

instance (key : PoolKey) (s : ServerState) : Decidable (Taken key s) :=
  inferInstanceAs (Decidable (∃ r ∈ s.trace, r.op.takes key = true))

instance (key : PoolKey) (s : ServerState) : Decidable (RefillsDone key s) :=
  inferInstanceAs (Decidable (∀ t ∈ s.tasks, t.tag.refills key = true → t.prog.finished = true))

/-- Task `j` is a refill whose outstanding batch fills up the bucket. -/
def Covers (cfg : Config) (key : PoolKey) (s : ServerState) (j : ℕ) : Prop :=
  ∃ args p, s.tasks[j]? = some ⟨.refill args, phaseProg cfg args p⟩ ∧ args.key = key ∧
    cfg.poolSize ≤ (s.world.idle key).length + outstanding cfg p

/-- The bucket that a step's refill asks for while another refill holds it. -/
def refusedKey (s : ServerState) : ServerLabel → Option PoolKey
  | .start _ => none
  | .step i _ =>
    match s.tasks[i]? with
    | some ⟨_, .act (.refillRegister key) _⟩ => if s.world.refilling key then some key else none
    | _ => none

/-- If the next step turns a refill away, the bucket is full or another refill covers it. -/
def RefusalCovered (cfg : Config) (s : ServerState) (l : ServerLabel) : Prop :=
  ∀ i env key, l = .step i env → refusedKey s l = some key →
    cfg.poolSize ≤ (s.world.idle key).length ∨ ∃ j, j ≠ i ∧ Covers cfg key s j

/-- The steps under which refills could keep up: only `get`s that allow a refill arrive, every
connect succeeds, and no connection that a `get` looks at is stale or dead. -/
def steady (cfg : Config) (s : ServerState) : ServerLabel → Bool
  | .start (.get _ allowRefill) => allowRefill
  | .start _ => false
  | .step i env =>
    env.outcome == .connected &&
      match s.tasks[i]? with
      | some ⟨_, .act (.poolTake key now _) _⟩ =>
        (s.world.idle key).all fun e =>
          decide (now - e.created ≤ cfg.poolMaxAge) && !env.readable e.ws.id
      | _ => true

/-- The tasks of such a run: a `get` before the clock, before the take or after it, or a refill in
one of its phases. -/
def AtPhase (cfg : Config) (t : Task Op Op.Resp Tag (Option Upstream)) : Prop :=
  (∃ args, t.tag = .get args true ∧ (t.prog = body cfg t.tag ∨
      (∃ now, t.prog = .act (.poolTake args.key now (some args)) fun _ => .ret none) ∨
      t.prog = .ret none)) ∨
    ∃ args p, t.tag = .refill args ∧ t.prog = phaseProg cfg args p

/-- **The invariant**: every bucket from which a `get` has taken is full or covered. -/
structure DemandMet (cfg : Config) (s : ServerState) : Prop where
  tasks : ∀ t ∈ s.tasks, AtPhase cfg t
  covered : ∀ key, Taken key s →
    cfg.poolSize ≤ (s.world.idle key).length ∨ ∃ j, Covers cfg key s j

section Step

variable {s : ServerState} {i : ℕ} {env : Env} {tag : Tag} {op : Op}
  {next : op.Resp → Action (Option Upstream)}

/-- A `get` is taken note of by its own operation only. -/
theorem Taken.of_perform {key : PoolKey}
    (h : Taken key ((server cfg).perform s i env tag op next)) :
    Taken key s ∨ op.takes key = true := by
  obtain ⟨r, hr, htakes⟩ := h
  rcases List.mem_append.mp hr with hr | hr
  · exact .inl ⟨r, hr, htakes⟩
  · rw [List.mem_singleton.mp hr] at htakes
    exact .inr htakes

/-- A refill that covers its bucket still does after a step of another task that does not take
from it. -/
theorem Covers.perform_ne {key : PoolKey} {j : ℕ} (h : Covers cfg key s j) (hij : i ≠ j)
    (hlen : (s.world.idle key).length ≤ ((exec cfg op env s.world).2.1.idle key).length) :
    Covers cfg key ((server cfg).perform s i env tag op next) j := by
  obtain ⟨args, p, htask, hkey, hcover⟩ := h
  exact ⟨args, p, System.getElem?_tasks_perform_ne hij htask, hkey,
    hcover.trans (Nat.add_le_add_right hlen _)⟩

/-- A step of a `get` keeps demand met: it takes nothing, or it spawns a refill. -/
theorem get_demand {args : RefillArgs} (hs : DemandMet cfg s)
    (htask : s.tasks[i]? = some ⟨.get args true, .act op next⟩) :
    DemandMet cfg ((server cfg).perform s i env (.get args true) op next) := by
  have hother : ∀ key j, Covers cfg key s j → i ≠ j := by
    rintro key j ⟨args', p, hj, -, -⟩ rfl
    rw [htask] at hj
    cases hj
  have hphase := hs.tasks _ (List.mem_of_getElem? htask)
  rcases hphase with ⟨args', htag, hprog⟩ | ⟨args', p, htag, -⟩
  swap
  · cases htag
  cases htag
  rcases hprog with hprog | ⟨now, hprog⟩ | hprog
  · -- the clock
    cases hprog
    refine ⟨fun t ht => ?_, fun key htaken => ?_⟩
    · rcases System.mem_tasks_perform ht with rfl | ht | ⟨tag', htag', -⟩
      · exact .inl ⟨args, rfl, .inr (.inl ⟨_, rfl⟩)⟩
      · exact hs.tasks t ht
      · cases htag'
    · rcases htaken.of_perform with htaken | htakes
      · rcases hs.covered key htaken with hfull | ⟨j, hj⟩
        · exact .inl hfull
        · exact .inr ⟨j, hj.perform_ne (hother key j hj) le_rfl⟩
      · cases htakes
  · -- the take, which spawns a refill
    cases hprog
    refine ⟨fun t ht => ?_, fun key htaken => ?_⟩
    · rcases System.mem_tasks_perform ht with rfl | ht | ⟨tag', htag', rfl⟩
      · exact .inl ⟨args, rfl, .inr (.inr rfl)⟩
      · exact hs.tasks t ht
      · rw [List.mem_singleton.mp htag']
        exact .inr ⟨args, .spawned, rfl, rfl⟩
    · by_cases hkey : key = args.key
      · subst hkey
        refine .inr ⟨s.tasks.length, args, .spawned, ?_, rfl, Nat.le_add_left _ _⟩
        simp only [System.perform]
        rw [List.getElem?_append_right (by simp)]
        simp [server, exec, execAt, System.spawn]
        rfl
      · have hsame : ((exec cfg (.poolTake args.key now (some args)) env s.world).2.1.idle key) =
            s.world.idle key := by
          simp [exec, execAt, hkey]
        rcases htaken.of_perform with htaken | htakes
        · rcases hs.covered key htaken with hfull | ⟨j, hj⟩
          · exact .inl (hfull.trans_eq (congrArg List.length hsame.symm))
          · exact .inr ⟨j, hj.perform_ne (hother key j hj) (congrArg List.length hsame.symm).le⟩
        · exact absurd (beq_iff_eq.mp htakes).symm hkey
  · cases hprog

/-- A step of a refill keeps demand met, unless it is turned away uncovered. -/
theorem refill_demand {args : RefillArgs} (hs : DemandMet cfg s)
    (htask : s.tasks[i]? = some ⟨.refill args, .act op next⟩) (henv : env.outcome = .connected)
    (hcond : RefusalCovered cfg s (.step i env)) :
    DemandMet cfg ((server cfg).perform s i env (.refill args) op next) := by
  have hphase := hs.tasks _ (List.mem_of_getElem? htask)
  rcases hphase with ⟨args', htag, -⟩ | ⟨args', p, htag, hprog⟩
  · cases htag
  cases htag
  obtain ⟨hspawn, htakes, hlen, p', hnext, -⟩ := refill_step (w := s.world) hprog.symm henv
  refine ⟨fun t ht => ?_, fun key htaken => ?_⟩
  · rcases System.mem_tasks_perform ht with rfl | ht | ⟨tag', htag', -⟩
    · exact .inr ⟨args, p', rfl, hnext⟩
    · exact hs.tasks t ht
    · rw [show ((server cfg).exec op env s.world).2.2 = [] from hspawn] at htag'
      cases htag'
  · -- what another task covers stays covered, so only the refill's own cover is in question
    have hfull : cfg.poolSize ≤ (s.world.idle key).length →
        cfg.poolSize ≤ ((exec cfg op env s.world).2.1.idle key).length := (·.trans (hlen key))
    have htaken : Taken key s := by
      rcases htaken.of_perform with htaken | hop
      · exact htaken
      · exact absurd hop (by simp [htakes])
    rcases hs.covered key htaken with hk | ⟨j, hj⟩
    · exact .inl (hfull hk)
    by_cases hij : i = j
    · subst hij
      obtain ⟨args', q, hq, hkey, hcover⟩ := hj
      rw [htask] at hq
      obtain ⟨rfl, hq⟩ : args = args' ∧ Prog.act op next = phaseProg cfg args' q := by
        simpa using hq
      subst hkey
      obtain ⟨-, -, -, q', hnext', ⟨rfl, hheld⟩ | hkeeps⟩ := refill_step (w := s.world) hq.symm henv
      · -- the refill is turned away
        rcases hcond i env args.key rfl (by simp [refusedKey, htask, hheld]) with
          hk | ⟨j, hji, hj⟩
        · exact .inl (hfull hk)
        · exact .inr ⟨j, hj.perform_ne hji.symm (hlen _)⟩
      · refine .inr ⟨i, args, q', ?_, rfl, hkeeps hcover⟩
        rw [System.getElem?_tasks_perform_self (List.getElem?_eq_some_iff.mp htask).1]
        rw [show next ((server cfg).exec op env s.world).1 = phaseProg cfg args q' from hnext']
    · exact .inr ⟨j, hj.perform_ne hij (hlen key)⟩

end Step

/-- **The step lemma.** A steady step that turns no refill away uncovered keeps demand met. -/
theorem step_demand {s s' : ServerState} {l : ServerLabel} (hs : DemandMet cfg s)
    (hl : steady cfg s l = true) (hcond : RefusalCovered cfg s l)
    (hstep : (server cfg).step s l = some s') : DemandMet cfg s' := by
  rcases System.step_cases hstep with ⟨tag, rfl, rfl⟩ | ⟨i, env, tag, op, next, rfl, htask, rfl⟩
  · refine ⟨fun t ht => ?_, fun key htaken => ?_⟩
    · rcases List.mem_append.mp ht with ht | ht
      · exact hs.tasks t ht
      · rw [List.mem_singleton.mp ht]
        cases tag with
        | get args allowRefill =>
          have hallow : allowRefill = true := hl
          subst hallow
          exact .inl ⟨args, rfl, .inl rfl⟩
        | _ => cases hl
    · rcases hs.covered key htaken with hfull | ⟨j, args, p, hj, hkey, hcover⟩
      · exact .inl hfull
      · refine .inr ⟨j, args, p, ?_, hkey, hcover⟩
        rw [List.getElem?_append_left (List.getElem?_eq_some_iff.mp hj).1]
        exact hj
  · have henv : env.outcome = .connected := by
      simp only [steady, Bool.and_eq_true, beq_iff_eq] at hl
      exact hl.1
    rcases hs.tasks _ (List.mem_of_getElem? htask) with ⟨args, htag, -⟩ | ⟨args, p, htag, -⟩
    · cases htag
      exact get_demand hs htask
    · cases htag
      exact refill_demand hs htask henv hcond

/-- **Refills keep up with demand**, if none is turned away uncovered: in every run of `get`s and
the refills they start, with every connect successful and no connection stale or dead, as soon as
a `get` on a bucket has been made and no refill of it is pending or running, the bucket holds at
least `pool_size` connections.

**Proof sketch.** The bucket and the outstanding batch of some refill together fill up the pool:
a take starts a refill, which counts in full until it measures; from then on its batch only turns
from outstanding into pooled. The one step that loses a cover is a refused registration. When no
refill is left, nothing is outstanding. -/
theorem refills_keep_bucket_full (cfg : Config) (ls : List ServerLabel) (s : ServerState)
    (hrun : (server cfg).run (System.initial World.start) ls = some s)
    (hsteady : (server cfg).Along (fun s l => steady cfg s l = true)
      (System.initial World.start) ls)
    (hcond : (server cfg).Along (RefusalCovered cfg) (System.initial World.start) ls)
    (key : PoolKey) (htaken : Taken key s) (hdone : RefillsDone key s) :
    cfg.poolSize ≤ (s.world.idle key).length := by
  have hinit : DemandMet cfg (System.initial World.start) :=
    ⟨by simp [System.initial], by simp [System.initial, Taken]⟩
  have hmet : DemandMet cfg s := System.run_invariant
    (fun _ _ _ hs hl hstep => step_demand hs hl.1 hl.2 hstep) hinit (hsteady.and hcond) hrun
  rcases hmet.covered key htaken with hfull | ⟨j, args, p, hj, rfl, hcover⟩
  · exact hfull
  · have hfinished := hdone _ (List.mem_of_getElem? hj) (by simp [Tag.refills])
    rwa [outstanding_of_finished hfinished, Nat.add_zero] at hcover

/-! ## A refill that keeps up, and one that does not -/

/-- A configuration with pools of two connections. -/
def pairConfig : Config := { smallConfig with poolSize := 2 }

/-- A client of DC 2 misses, and its refill opens both connections. -/
def fillRun : List ServerLabel :=
  .start (.get ⟨2, false, "149.154.167.51".toList, false⟩ true) ::
    (smoothSteps 0 2 ++ smoothSteps 1 7)

/-- After it, the bucket holds both. -/
theorem refills_keep_bucket_full_fillRun :
    ∃ s, (server pairConfig).run (System.initial World.start) fillRun = some s ∧
      2 ≤ (s.world.idle (2, false)).length := by
  have hstate : ((server pairConfig).run (System.initial World.start) fillRun).map
      (fun s => decide (Taken (2, false) s ∧ RefillsDone (2, false) s)) = some true := by
    decide +kernel
  obtain ⟨s, hrun, hs⟩ := Option.map_eq_some_iff.mp hstate
  obtain ⟨htaken, hdone⟩ := of_decide_eq_true hs
  have hnone : (server pairConfig).Along (fun s l => refusedKey s l = none)
      (System.initial World.start) fillRun := by
    decide +kernel
  refine ⟨s, hrun, refills_keep_bucket_full pairConfig fillRun s hrun (by decide +kernel)
    (hnone.mono fun s l hl i env key _ hkey => ?_) (2, false) htaken hdone⟩
  rw [hl] at hkey
  cases hkey

/-- Two more clients of DC 2: one takes a connection, and when its refill has measured, the other
takes the second one. The refill of the latter is turned away, and the one in progress opens what
was missing when it measured. -/
def lostRun : List ServerLabel :=
  let client : ServerLabel := .start (.get ⟨2, false, "149.154.167.51".toList, false⟩ true)
  fillRun ++
    -- a hit, whose refill registers and measures
    client :: (smoothSteps 2 2 ++ smoothSteps 3 3 ++
    -- a second hit, whose refill is turned away
    client :: (smoothSteps 4 2 ++ smoothSteps 5 1 ++
    -- the first refill connects, pushes and releases
    smoothSteps 3 3))

/-- With `pool_size` two, every connect successful and no connection stale or dead, the refills of
three `get`s leave the bucket with one connection. -/
theorem refill_lost :
    (server pairConfig).Along (fun s l => steady pairConfig s l = true)
        (System.initial World.start) lostRun ∧
      ∃ s, (server pairConfig).run (System.initial World.start) lostRun = some s ∧
        Taken (2, false) s ∧ RefillsDone (2, false) s ∧
        (s.world.idle (2, false)).length = 1 ∧
        ¬ pairConfig.poolSize ≤ (s.world.idle (2, false)).length := by
  refine ⟨by decide +kernel, ?_⟩
  have hstate : ((server pairConfig).run (System.initial World.start) lostRun).map
      (fun s => decide (Taken (2, false) s ∧ RefillsDone (2, false) s ∧
        (s.world.idle (2, false)).length = 1)) = some true := by
    decide +kernel
  obtain ⟨s, hrun, hs⟩ := Option.map_eq_some_iff.mp hstate
  obtain ⟨htaken, hdone, hlen⟩ := of_decide_eq_true hs
  refine ⟨s, hrun, htaken, hdone, hlen, ?_⟩
  rw [hlen]
  decide

end TgWsProxy
