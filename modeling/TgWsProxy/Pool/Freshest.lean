import TgWsProxy.Pool.Capacity
import TgWsProxy.Proxy.Guarantees

set_option relaxedAutoImplicit false
set_option autoImplicit false

/-!
# A get takes the freshest usable connection

Warm-ups and refills push to the back of a bucket, under the lock, and stamp each entry as they push
it; so a bucket is ordered by age, however long ago its connections were opened. A `get` takes from
the back, and throws away what is too old or has something to read until it finds an entry that is
neither.

## Main definitions

* `TgWsProxy.Ordered` — a bucket in the order of its time stamps.
* `TgWsProxy.TakesFreshest` — what a `get` may do to the pool.

## Main results

* `TgWsProxy.run_ordered` — every bucket is ordered in every state of a run.
* `TgWsProxy.get_takes_freshest` — every `get` of a run takes the freshest usable connection.
-/

namespace TgWsProxy

open Process

variable {cfg : Config}

/-! ## The order of a bucket -/

/-- The entries of a bucket are in the order of their time stamps, and none is of the future. -/
structure Ordered (clock : ℕ) (bucket : List PoolEntry) : Prop where
  sorted : bucket.Pairwise fun a b => a.created ≤ b.created
  past : ∀ e ∈ bucket, e.created ≤ clock

theorem Ordered.front {clock : ℕ} {bucket bucket' : List PoolEntry} (h : Ordered clock bucket)
    (hpre : bucket' <+: bucket) : Ordered clock bucket' :=
  ⟨h.sorted.sublist hpre.sublist, fun e he => h.past e (hpre.subset he)⟩

theorem Ordered.later {clock clock' : ℕ} {bucket : List PoolEntry} (h : Ordered clock bucket)
    (hclock : clock ≤ clock') : Ordered clock' bucket :=
  ⟨h.sorted, fun e he => (h.past e he).trans hclock⟩

/-- A loop of pushes stamps its entries in order, between its first instant and its last. -/
theorem ordered_entries (env : Env) {latest instant : ℕ} (h : instant ≤ latest)
    (conns : List Stream) :
    Ordered latest (env.entries latest instant conns) ∧
      ∀ e ∈ env.entries latest instant conns, instant ≤ e.created := by
  induction conns generalizing instant with
  | nil => exact ⟨⟨.nil, nofun⟩, nofun⟩
  | cons ws conns ih =>
    set next := min latest (instant + env.tick ws.id) with hnext
    have hle : instant ≤ next := by omega
    obtain ⟨hordered, hfirst⟩ := ih (show next ≤ latest by omega)
    rw [Env.entries]
    refine ⟨⟨List.pairwise_cons.mpr ⟨hfirst, hordered.sorted⟩, ?_⟩, ?_⟩
    · rintro e (_ | ⟨_, he⟩)
      · exact Nat.min_le_left _ _
      · exact hordered.past e he
    · rintro e (_ | ⟨_, he⟩)
      · exact hle
      · exact hle.trans (hfirst e he)

/-- Pushes keep the order of a bucket. -/
theorem Ordered.append_entries {clock latest : ℕ} {bucket : List PoolEntry}
    (h : Ordered clock bucket) (hclock : clock ≤ latest) (env : Env) (conns : List Stream) :
    Ordered latest (bucket ++ env.entries latest clock conns) := by
  obtain ⟨hordered, hfirst⟩ := ordered_entries env hclock conns
  refine ⟨List.pairwise_append.mpr ⟨h.sorted, hordered.sorted, fun a ha b hb => ?_⟩, fun e he => ?_⟩
  · exact (h.past a ha).trans (hfirst b hb)
  · rcases List.mem_append.mp he with he | he
    · exact (h.past e he).trans hclock
    · exact hordered.past e he

/-- Every bucket of the direct pool is ordered. -/
def PoolOrdered (s : ServerState) : Prop := ∀ key, Ordered s.world.clock (s.world.idle key)

/-- **One step** keeps the buckets ordered. -/
theorem step_ordered {s s' : ServerState} {l : ServerLabel} (h : PoolOrdered s)
    (hstep : (server cfg).step s l = some s') : PoolOrdered s' := by
  rcases System.step_cases hstep with ⟨tag, rfl, rfl⟩ | ⟨i, env, tag, op, next, rfl, htask, rfl⟩
  · exact h
  intro key
  change Ordered (exec cfg op env s.world).2.1.clock ((exec cfg op env s.world).2.1.idle key)
  have hle := Nat.le_add_right s.world.clock env.elapsed
  rw [exec_clock]
  rcases exec_idle cfg op env s.world key with
    hsame | ⟨_, _, -, hpre⟩ | ⟨conns, -, hpush⟩ | ⟨conns, -, hpush⟩
  · rw [hsame]
    exact (h key).later hle
  · exact ((h key).front hpre).later hle
  · rw [hpush]
    exact (h key).append_entries hle env _
  · rw [hpush]
    exact (h key).append_entries hle env _

/-- **Every run** keeps the buckets ordered. -/
theorem run_ordered {ls : List ServerLabel} {s : ServerState}
    (hrun : (server cfg).run (System.initial World.start) ls = some s) : PoolOrdered s := by
  have hstart : PoolOrdered (System.initial World.start) := fun _ => ⟨.nil, List.forall_mem_nil _⟩
  exact System.run_invariant_of_path (fun _ _ _ _ hs hstep => step_ordered hs hstep) hstart hrun

/-! ## Taking from a bucket -/

/-- What the `pop` loop does: it drops what is unusable up to the first usable entry, or
everything. -/
theorem popUsable_cases {E : Type} (usable : E → Bool) (es : List E) :
    (∃ dropped e left, es = dropped ++ e :: left ∧ popUsable usable es = (some e, left) ∧
        usable e = true ∧ ∀ d ∈ dropped, usable d = false) ∨
      (popUsable usable es = (none, []) ∧ ∀ d ∈ es, usable d = false) := by
  induction es with
  | nil => exact .inr ⟨rfl, nofun⟩
  | cons e es ih =>
    rw [popUsable]
    by_cases he : usable e = true
    · rw [if_pos he]
      exact .inl ⟨[], e, es, rfl, rfl, he, nofun⟩
    rw [if_neg he]
    have hfalse := Bool.eq_false_iff.mpr he
    rcases ih with ⟨dropped, e', left, rfl, hpop, he', hdropped⟩ | ⟨hpop, hall⟩
    · exact .inl ⟨e :: dropped, e', left, rfl, hpop, he',
        List.forall_mem_cons.mpr ⟨hfalse, hdropped⟩⟩
    · exact .inr ⟨hpop, List.forall_mem_cons.mpr ⟨hfalse, hall⟩⟩

/-- The same from the back of a bucket. -/
theorem takeUsable_cases {E : Type} (usable : E → Bool) (bucket : List E) :
    (∃ left e dropped, bucket = left ++ e :: dropped ∧
        takeUsable usable bucket = (some e, left) ∧ usable e = true ∧
        ∀ d ∈ dropped, usable d = false) ∨
      (takeUsable usable bucket = (none, []) ∧ ∀ d ∈ bucket, usable d = false) := by
  rw [takeUsable]
  rcases popUsable_cases usable bucket.reverse with
    ⟨dropped, e, left, hbucket, hpop, he, hdropped⟩ | ⟨hpop, hall⟩
  · refine .inl ⟨left.reverse, e, dropped.reverse, ?_, by rw [hpop], he,
      fun d hd => hdropped d (List.mem_reverse.mp hd)⟩
    rw [← List.reverse_reverse bucket, hbucket]
    simp
  · exact .inr ⟨by rw [hpop]; rfl, fun d hd => hall d (List.mem_reverse.mpr hd)⟩

/-- What is taken from an ordered bucket is its freshest usable entry: the older ones are left, and
the newer ones are dropped. -/
theorem takeUsable_freshest {usable : PoolEntry → Bool} {bucket left : List PoolEntry}
    {e : PoolEntry} (hsorted : bucket.Pairwise fun a b => a.created ≤ b.created)
    (htake : takeUsable usable bucket = (some e, left)) :
    usable e = true ∧ (∀ d ∈ bucket, usable d = true → d.created ≤ e.created) ∧
      (∀ d ∈ left, d.created ≤ e.created) ∧
      ∃ dropped, bucket = left ++ e :: dropped ∧
        ∀ d ∈ dropped, e.created ≤ d.created ∧ usable d = false := by
  rcases takeUsable_cases usable bucket with
    ⟨left', e', dropped, hbucket, htake', he, hdropped⟩ | ⟨htake', -⟩
  · rw [htake] at htake'
    cases htake'
    rw [hbucket, List.pairwise_append, List.pairwise_cons] at hsorted
    obtain ⟨-, ⟨hnewer, -⟩, holder⟩ := hsorted
    have hleft : ∀ d ∈ left, d.created ≤ e.created := fun d hd => holder d hd e List.mem_cons_self
    refine ⟨he, fun d hd hd' => ?_, hleft, dropped, hbucket,
      fun d hd => ⟨hnewer d hd, hdropped d hd⟩⟩
    rw [hbucket] at hd
    rcases List.mem_append.mp hd with hd | hd
    · exact hleft d hd
    rcases List.mem_cons.mp hd with rfl | hd
    · exact le_rfl
    · rw [hdropped d hd] at hd'
      cases hd'
  · rw [htake] at htake'
    cases htake'

/-- If nothing is taken, nothing was usable and nothing is left. -/
theorem takeUsable_of_none {E : Type} {usable : E → Bool} {bucket : List E}
    (hnone : (takeUsable usable bucket).1 = none) :
    (takeUsable usable bucket).2 = [] ∧ ∀ d ∈ bucket, usable d = false := by
  rcases takeUsable_cases usable bucket with ⟨left, e, dropped, -, htake, -⟩ | ⟨htake, hall⟩
  · rw [htake] at hnone
    cases hnone
  · exact ⟨by rw [htake], hall⟩

/-- An entry that a `get` may hand out: it was not too old when the call began, and there is
nothing to read on it. -/
def PoolEntry.Usable (cfg : Config) (now : ℕ) (readable : ℕ → Bool) (e : PoolEntry) : Prop :=
  now - e.created ≤ cfg.poolMaxAge ∧ readable e.ws.id = false

/-- A `get` that began at `now` and has found the buckets `before`: it hands out the freshest usable
entry of its bucket and leaves what is older, or there is none. -/
structure TakesFreshest (usable : PoolEntry → Prop) (key : PoolKey)
    (before after : PoolKey → List PoolEntry) (taken : Option Stream) : Prop where
  others : ∀ k, k ≠ key → after k = before k
  hit : ∀ ws, taken = some ws → ∃ e dropped, e.ws = ws ∧ before key = after key ++ e :: dropped ∧
    usable e ∧ (∀ d ∈ before key, usable d → d.created ≤ e.created) ∧
    (∀ d ∈ after key, d.created ≤ e.created) ∧
    ∀ d ∈ dropped, e.created ≤ d.created ∧ ¬ usable d
  miss : taken = none → after key = [] ∧ ∀ d ∈ before key, ¬ usable d

/-- What the locked part of a `get` does to ordered buckets. -/
theorem poolTake_takesFreshest (key : PoolKey) (now : ℕ) (refill : Option RefillArgs) (env : Env)
    (w : World) (hw : Ordered w.clock (w.idle key)) :
    TakesFreshest (PoolEntry.Usable cfg now env.readable) key w.idle
      (exec cfg (.poolTake key now refill) env w).2.1.idle
      (exec cfg (.poolTake key now refill) env w).1 := by
  set usable := fun e : PoolEntry =>
    decide (now - e.created ≤ cfg.poolMaxAge) && !env.readable e.ws.id with husable
  have hiff : ∀ e, e.Usable cfg now env.readable ↔ usable e = true := by
    intro e
    simp [husable, PoolEntry.Usable]
  have hafter : (exec cfg (.poolTake key now refill) env w).2.1.idle key =
      (takeUsable usable (w.idle key)).2 := by simp [exec, execAt, husable]
  have htaken : (exec cfg (.poolTake key now refill) env w).1 =
      (takeUsable usable (w.idle key)).1.map PoolEntry.ws := rfl
  have hunusable : ∀ {e}, usable e = false → ¬ e.Usable cfg now env.readable := by
    intro e he
    rw [hiff, he]
    exact Bool.false_ne_true
  refine ⟨fun k hk => by simp [exec, execAt, hk], ?_, ?_⟩
  · intro ws hws
    rw [htaken] at hws
    obtain ⟨e, he, rfl⟩ := Option.map_eq_some_iff.mp hws
    obtain ⟨husable, hfreshest, hleft, dropped, hbucket, hdropped⟩ :=
      takeUsable_freshest hw.sorted (Prod.ext he rfl)
    rw [hafter]
    exact ⟨e, dropped, rfl, hbucket, (hiff e).mpr husable,
      fun d hd hd' => hfreshest d hd ((hiff d).mp hd'), hleft,
      fun d hd => ⟨(hdropped d hd).1, hunusable (hdropped d hd).2⟩⟩
  · intro hnone
    rw [htaken] at hnone
    obtain ⟨hleft, hall⟩ := takeUsable_of_none (Option.map_eq_none_iff.mp hnone)
    exact ⟨by rw [hafter, hleft], fun d hd => hunusable (hall d hd)⟩

/-! ## Gets of a run -/

/-- A `get` begins with the time and ends with what it takes. -/
theorem get_eq (args : RefillArgs) (allowRefill : Bool) : WsPool.get args allowRefill =
    .act .now fun (now : ℕ) =>
      .act (.poolTake args.key now (if allowRefill then some args else none)) .ret := rfl

/-- **A get takes the freshest usable connection.** In every state of a run of the server, however
its tasks interleave, every bucket is ordered by the time stamps of its entries. And for every `get`
of a run, whatever happens between its two steps: of the entries that were not too old when it
began and have nothing to read, it hands out the one that was created last; what is left was there
before that one, and what is thrown away was unusable; it hands out nothing only if nothing was
usable; and it leaves the other buckets alone.

**Proof sketch.** Pushes stamp their entries under the lock, so they append to an ordered bucket
entries that are no older. Since the bucket is ordered, the last usable entry is the freshest. -/
theorem get_takes_freshest (cfg : Config) :
    (∀ ls s, (server cfg).run (System.initial World.start) ls = some s → PoolOrdered s) ∧
      ∀ (pre mid : List ServerLabel) (i : ℕ) (args : RefillArgs) (allowRefill : Bool)
        (start env : Env) (s₀ s₁ s₂ s₃ : ServerState),
        (server cfg).run (System.initial World.start) pre = some s₀ →
        System.InCall (server cfg) s₀ i (WsPool.get args allowRefill) []
          (WsPool.get args allowRefill) →
        (server cfg).step s₀ (.step i start) = some s₁ →
        (∀ env, .step i env ∉ mid) → (server cfg).run s₁ mid = some s₂ →
        (server cfg).step s₂ (.step i env) = some s₃ →
        ∃ events taken, System.InCall (server cfg) s₃ i (WsPool.get args allowRefill) events
            (.ret taken) ∧
          TakesFreshest (PoolEntry.Usable cfg s₁.world.clock env.readable) args.key s₂.world.idle
            s₃.world.idle taken := by
  refine ⟨fun ls s hrun => run_ordered hrun, ?_⟩
  intro pre mid i args allowRefill start env s₀ s₁ s₂ s₃ hrun hcall hstart hothers hmid htake
  -- the three parts as one run
  have hrun₁ : (server cfg).run (System.initial World.start) (pre ++ [.step i start]) =
      some s₁ := by
    rw [System.run_append, hrun, Option.bind_some, System.run, hstart]
    rfl
  have hrun₂ : (server cfg).run (System.initial World.start) (pre ++ [.step i start] ++ mid) =
      some s₂ := by
    rw [System.run_append, hrun₁, Option.bind_some, hmid]
  rw [get_eq] at hcall
  obtain ⟨hworld₁, hcall⟩ := hcall.step (pathState_of_run hrun) hstart
  obtain ⟨hworld₃, hcall⟩ :=
    (hcall.run_others hothers hmid).step (pathState_of_run hrun₂) htake
  have hnow : ((server cfg).exec .now start s₀.world).1 = s₁.world.clock := by
    rw [hworld₁]
    rfl
  rw [hnow] at hcall hworld₃
  refine ⟨_, _, hcall, ?_⟩
  rw [hworld₃]
  exact poolTake_takesFreshest args.key s₁.world.clock _ env s₂.world (run_ordered hrun₂ args.key)

/-- DC 2 is warmed up, and a client arrives. -/
def warmArrival : List ServerLabel :=
  .start (.warmup [(2, "149.154.167.51".toList)]) :: (smoothSteps 0 3 ++
    [.start (.get ⟨2, false, "149.154.167.51".toList, false⟩ true)])

/-- It takes the connection of the warm-up, which goes on meanwhile. -/
theorem get_takes_freshest_warmArrival :
    ∃ s₀ s₁ s₂ s₃ taken,
      (server smallConfig).run (System.initial World.start) warmArrival = some s₀ ∧
      (server smallConfig).step s₀ (.step 1 smoothEnv) = some s₁ ∧
      (server smallConfig).run s₁ (smoothSteps 0 2) = some s₂ ∧
      (server smallConfig).step s₂ (.step 1 smoothEnv) = some s₃ ∧
      (s₂.world.idle (2, false)).length = 1 ∧
      TakesFreshest (PoolEntry.Usable smallConfig s₁.world.clock fun _ => false) (2, false)
        s₂.world.idle s₃.world.idle taken := by
  have harrival : ((server smallConfig).run (System.initial World.start) warmArrival).map
      (fun s => (s.tasks[1]?.map (·.tag), System.eventsOf s.trace 1)) =
        some (some (.get ⟨2, false, "149.154.167.51".toList, false⟩ true), []) := by
    decide +kernel
  have hwait : ((server smallConfig).run (System.initial World.start)
      (warmArrival ++ .step 1 smoothEnv :: smoothSteps 0 2)).map
        (fun s => ((s.world.idle (2, false)).length,
          ((server smallConfig).step s (.step 1 smoothEnv)).isSome)) = some (1, true) := by
    decide +kernel
  obtain ⟨s₀, hs₀, hfacts⟩ := Option.map_eq_some_iff.mp harrival
  obtain ⟨htag, hevents⟩ := Prod.mk.inj hfacts
  obtain ⟨⟨tag, prog⟩, ht, rfl⟩ := Option.map_eq_some_iff.mp htag
  obtain ⟨s₂, hs₂, hfacts⟩ := Option.map_eq_some_iff.mp hwait
  obtain ⟨hlen, hsome⟩ := Prod.mk.inj hfacts
  obtain ⟨s₃, htake⟩ := Option.isSome_iff_exists.mp hsome
  rw [System.run_append, hs₀, Option.bind_some] at hs₂
  obtain ⟨s₁, hstart, hmid⟩ := Option.bind_eq_some_iff.mp hs₂
  have hcall : System.InCall (server smallConfig) s₀ 1
      (WsPool.get ⟨2, false, "149.154.167.51".toList, false⟩ true) []
      (WsPool.get ⟨2, false, "149.154.167.51".toList, false⟩ true) :=
    ⟨_, [], fun _ => .ret none, ht, hevents, Path.here _, Path.here _⟩
  obtain ⟨-, taken, -, htaken⟩ := (get_takes_freshest smallConfig).2 warmArrival (smoothSteps 0 2) 1
    _ true smoothEnv smoothEnv s₀ s₁ s₂ s₃ hs₀ hcall hstart (by simp [smoothSteps]) hmid htake
  exact ⟨s₀, s₁, s₂, s₃, taken, hs₀, hstart, hmid, htake, hlen, htaken⟩

end TgWsProxy
