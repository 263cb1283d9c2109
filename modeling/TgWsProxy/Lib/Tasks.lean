import TgWsProxy.Lib.Prog

set_option relaxedAutoImplicit false
set_option autoImplicit false

/-!
# Concurrent tasks over a shared world

Any number of tasks run programs over one shared world. A step lets one task perform its next
operation, whose effect and response depend on the world and on an input from the environment;
an operation may spawn tasks. Every interleaving is a list of labels.

## Main definitions

* `Process.System` — the semantics of the operations and the program of each kind of task.
* `Process.State`, `Label`, `System.step`, `System.run` — the machine and its runs.
* `Process.System.Along` — a condition on every step of a run.
* `Process.System.Solo`, `Leads`, `Returns` — a program that runs with nobody else in between,
  and where it comes to.

## Main results

* `Process.System.run_invariant` — what every step preserves holds after every run.
* `Process.System.run_safe` — the rely-guarantee rule: if every kind of task is safe and the
  operations deliver what is relied on, every operation of a run meets its guarantee.
* `Process.System.run_path` — what one task has performed in a run is a path of its program.
* `Process.System.run_solo` — a task that runs alone is a run.
-/

namespace Process

open Prog

variable {Op : Type} {Resp : Op → Type} {World Env Tag Out : Type}

/-- What operations do, and the program that each kind of task runs. -/
structure System (Op : Type) (Resp : Op → Type) (World Env Tag Out : Type) where
  /-- The response to an operation, the world after it and the tasks it spawns. -/
  exec : (op : Op) → Env → World → Resp op × World × List Tag
  body : Tag → Prog Op Resp Out

/-- A task: what it was started as, and what is left of its program. -/
structure Task (Op : Type) (Resp : Op → Type) (Tag Out : Type) where
  tag : Tag
  prog : Prog Op Resp Out

/-- An operation of a run: the task that performed it, and the response. -/
structure Record (Op : Type) (Resp : Op → Type) (Tag : Type) where
  task : ℕ
  tag : Tag
  op : Op
  resp : Resp op

/-- The state of a machine: the world, the tasks in the order they were started, and everything
performed so far. -/
structure State (Op : Type) (Resp : Op → Type) (World Tag Out : Type) where
  world : World
  tasks : List (Task Op Resp Tag Out)
  trace : List (Record Op Resp Tag)

/-- A step: a task arrives from outside, or task `i` performs its next operation. -/
inductive Label (Env Tag : Type)
  | start (tag : Tag)
  | step (i : ℕ) (env : Env)

namespace System

variable (S : System Op Resp World Env Tag Out)

/-- A fresh task. -/
def spawn (tag : Tag) : Task Op Resp Tag Out := ⟨tag, S.body tag⟩

/-- The state after task `i`, which is at `act op next`, performs `op`. -/
def perform (s : State Op Resp World Tag Out) (i : ℕ) (env : Env) (tag : Tag) (op : Op)
    (next : Resp op → Prog Op Resp Out) : State Op Resp World Tag Out :=
  let out := S.exec op env s.world
  { world := out.2.1
    tasks := s.tasks.set i ⟨tag, next out.1⟩ ++ out.2.2.map S.spawn
    trace := s.trace ++ [⟨i, tag, op, out.1⟩] }

/-- One step; `none` if there is no such task or it has returned. -/
def step (s : State Op Resp World Tag Out) : Label Env Tag → Option (State Op Resp World Tag Out)
  | .start tag => some { s with tasks := s.tasks ++ [S.spawn tag] }
  | .step i env =>
    match s.tasks[i]? with
    | some ⟨tag, .act op next⟩ => some (S.perform s i env tag op next)
    | _ => none

/-- A run. -/
def run : State Op Resp World Tag Out → List (Label Env Tag) →
    Option (State Op Resp World Tag Out)
  | s, [] => some s
  | s, l :: ls => (S.step s l).bind fun s => run s ls

/-- No tasks yet. -/
def initial (w : World) : State Op Resp World Tag Out := ⟨w, [], []⟩

/-- `Along C s ls`: every step of the run `ls` from `s` meets `C`, given the state before it. -/
def Along (C : State Op Resp World Tag Out → Label Env Tag → Prop) :
    State Op Resp World Tag Out → List (Label Env Tag) → Prop
  | _, [] => True
  | s, l :: ls => C s l ∧ ∀ s', S.step s l = some s' → Along C s' ls

variable {S} {s s' : State Op Resp World Tag Out} {ls : List (Label Env Tag)}

/-- What a step can be: an arrival, or the next operation of a task. -/
theorem step_cases {l : Label Env Tag} (h : S.step s l = some s') :
    (∃ tag, l = .start tag ∧ s' = { s with tasks := s.tasks ++ [S.spawn tag] }) ∨
      ∃ i env tag op next, l = .step i env ∧ s.tasks[i]? = some ⟨tag, .act op next⟩ ∧
        s' = S.perform s i env tag op next := by
  cases l with
  | start tag => exact .inl ⟨tag, rfl, by simpa [step] using h.symm⟩
  | step i env =>
    simp only [step] at h
    split at h
    · rename_i tag op next htask
      exact .inr ⟨i, env, tag, op, next, rfl, htask, by simpa using h.symm⟩
    · cases h

theorem run_append (s : State Op Resp World Tag Out) (ls ms : List (Label Env Tag)) :
    S.run s (ls ++ ms) = (S.run s ls).bind fun s => S.run s ms := by
  induction ls generalizing s with
  | nil => rfl
  | cons l ls ih => simp only [List.cons_append, run, Option.bind_assoc, ih]

/-- **Invariants.** What holds at the start and is preserved by every step that meets `C` holds
after every run whose steps all meet `C`. -/
theorem run_invariant {I : State Op Resp World Tag Out → Prop}
    {C : State Op Resp World Tag Out → Label Env Tag → Prop}
    (hstep : ∀ s l s', I s → C s l → S.step s l = some s' → I s') :
    ∀ {ls : List (Label Env Tag)} {s s' : State Op Resp World Tag Out}, I s → S.Along C s ls →
      S.run s ls = some s' → I s' := by
  intro ls
  induction ls with
  | nil =>
    intro s s' hs _ hrun
    cases hrun
    exact hs
  | cons l ls ih =>
    intro s s' hs hC hrun
    obtain ⟨s₁, hs₁, hrun⟩ := Option.bind_eq_some_iff.mp hrun
    exact ih (hstep s l s₁ hs hC.1 hs₁) (hC.2 s₁ hs₁) hrun

/-- A condition that every step meets is met along every run. -/
theorem along_of_forall {C : State Op Resp World Tag Out → Label Env Tag → Prop} :
    ∀ (ls : List (Label Env Tag)) (s : State Op Resp World Tag Out),
      (∀ l ∈ ls, ∀ s, C s l) → S.Along C s ls
  | [], _, _ => trivial
  | l :: ls, s, h =>
    ⟨h l (by simp) s, fun s' _ => along_of_forall ls s' fun m hm => h m (by simp [hm])⟩

theorem Along.mono {C D : State Op Resp World Tag Out → Label Env Tag → Prop}
    (hCD : ∀ s l, C s l → D s l) :
    ∀ {ls : List (Label Env Tag)} {s : State Op Resp World Tag Out}, S.Along C s ls →
      S.Along D s ls
  | [], _, _ => trivial
  | _ :: _, s, h => ⟨hCD s _ h.1, fun s' hs' => Along.mono hCD (h.2 s' hs')⟩

theorem Along.and {C D : State Op Resp World Tag Out → Label Env Tag → Prop} :
    ∀ {ls : List (Label Env Tag)} {s : State Op Resp World Tag Out}, S.Along C s ls →
      S.Along D s ls → S.Along (fun s l => C s l ∧ D s l) s ls
  | [], _, _, _ => trivial
  | _ :: _, _, hC, hD => ⟨⟨hC.1, hD.1⟩, fun s' hs' => (hC.2 s' hs').and (hD.2 s' hs')⟩

/-- A decidable condition can be checked along a run. -/
instance decidableAlong (S : System Op Resp World Env Tag Out)
    (C : State Op Resp World Tag Out → Label Env Tag → Prop) [∀ s l, Decidable (C s l)] :
    ∀ (s : State Op Resp World Tag Out) (ls : List (Label Env Tag)), Decidable (S.Along C s ls)
  | _, [] => .isTrue trivial
  | s, l :: ls =>
    match hstep : S.step s l with
    | none =>
      decidable_of_iff (C s l)
        ⟨fun h => ⟨h, fun s' hs' => absurd (hstep.symm.trans hs') (by simp)⟩, And.left⟩
    | some s₁ =>
      have := decidableAlong S C s₁ ls
      decidable_of_iff (C s l ∧ S.Along C s₁ ls)
        ⟨fun h => ⟨h.1, fun s' hs' => Option.some.inj (hstep.symm.trans hs') ▸ h.2⟩,
          fun h => ⟨h.1, h.2 s₁ hstep⟩⟩

/-! ## Tasks of a state after a step -/

/-- An operation of one task leaves the others where they are. -/
theorem getElem?_tasks_perform_ne {i j : ℕ} {env : Env} {tag : Tag} {op : Op}
    {next : Resp op → Prog Op Resp Out} {t : Task Op Resp Tag Out} (hij : i ≠ j)
    (ht : s.tasks[j]? = some t) : (S.perform s i env tag op next).tasks[j]? = some t := by
  have hj := (List.getElem?_eq_some_iff.mp ht).1
  rw [perform, List.getElem?_append_left (by simpa using hj), List.getElem?_set_ne hij, ht]

/-- The task that performed an operation goes on with the response. -/
theorem getElem?_tasks_perform_self {i : ℕ} {env : Env} {tag : Tag} {op : Op}
    {next : Resp op → Prog Op Resp Out} (hi : i < s.tasks.length) :
    (S.perform s i env tag op next).tasks[i]? =
      some ⟨tag, next (S.exec op env s.world).1⟩ := by
  rw [perform, List.getElem?_append_left (by simpa using hi), List.getElem?_set_self hi]

/-- The tasks after an operation: the one that performed it, the others as before, and the
spawned ones at the start of their programs. -/
theorem mem_tasks_perform {i : ℕ} {env : Env} {tag : Tag} {op : Op}
    {next : Resp op → Prog Op Resp Out} {t : Task Op Resp Tag Out}
    (ht : t ∈ (S.perform s i env tag op next).tasks) :
    t = ⟨tag, next (S.exec op env s.world).1⟩ ∨ t ∈ s.tasks ∨
      ∃ tag' ∈ (S.exec op env s.world).2.2, t = S.spawn tag' := by
  simp only [perform, List.mem_append, List.mem_map] at ht
  rcases ht with ht | ⟨tag', htag', rfl⟩
  · rcases List.mem_or_eq_of_mem_set ht with ht | ht
    · exact .inr (.inl ht)
    · exact .inl ht
  · exact .inr (.inr ⟨tag', htag', rfl⟩)

/-! ## Rely and guarantee -/

section RelyGuarantee

variable {inv : World → Prop} {okTag : Tag → Prop} {guar : Tag → Op → Prop}
  {rely : (op : Op) → Resp op → Prop}

/-- What the rely-guarantee rule maintains. -/
structure SafeState (S : System Op Resp World Env Tag Out) (inv : World → Prop)
    (okTag : Tag → Prop) (guar : Tag → Op → Prop) (rely : (op : Op) → Resp op → Prop)
    (s : State Op Resp World Tag Out) : Prop where
  world : inv s.world
  tags : ∀ t ∈ s.tasks, okTag t.tag
  tasks : ∀ t ∈ s.tasks, Safe (guar t.tag) rely (fun _ => True) t.prog
  trace : ∀ r ∈ s.trace, okTag r.tag ∧ guar r.tag r.op ∧ rely r.op r.resp

/-- The operations deliver what is relied on and keep the invariant, and the programs of the
admitted tasks meet the guarantee. -/
structure RelyGuarantee (S : System Op Resp World Env Tag Out) (okEnv : Env → Prop)
    (inv : World → Prop) (okTag : Tag → Prop) (guar : Tag → Op → Prop)
    (rely : (op : Op) → Resp op → Prop) : Prop where
  exec : ∀ tag op env w, okTag tag → okEnv env → inv w → guar tag op →
    rely op (S.exec op env w).1 ∧ inv (S.exec op env w).2.1 ∧
      ∀ tag' ∈ (S.exec op env w).2.2, okTag tag'
  body : ∀ tag, okTag tag → Safe (guar tag) rely (fun _ => True) (S.body tag)

/-- A label that starts only admitted tasks and steps only with admitted inputs. -/
def Admits (okEnv : Env → Prop) (okTag : Tag → Prop) : Label Env Tag → Prop
  | .start tag => okTag tag
  | .step _ env => okEnv env

theorem safeState_initial {w : World} (hw : inv w) :
    SafeState S inv okTag guar rely (initial w) :=
  ⟨hw, by simp [initial], by simp [initial], by simp [initial]⟩

variable {okEnv : Env → Prop}

/-- The step lemma of the rely-guarantee rule. -/
theorem step_safe (h : RelyGuarantee S okEnv inv okTag guar rely) {l : Label Env Tag}
    (hl : Admits okEnv okTag l) (hs : SafeState S inv okTag guar rely s)
    (hstep : S.step s l = some s') : SafeState S inv okTag guar rely s' := by
  rcases step_cases hstep with ⟨tag, rfl, rfl⟩ | ⟨i, env, tag, op, next, rfl, htask, rfl⟩
  · refine ⟨hs.world, ?_, ?_, hs.trace⟩
    · intro t ht
      rcases List.mem_append.mp ht with ht | ht
      · exact hs.tags t ht
      · rw [List.mem_singleton.mp ht]; exact hl
    · intro t ht
      rcases List.mem_append.mp ht with ht | ht
      · exact hs.tasks t ht
      · rw [List.mem_singleton.mp ht]; exact h.body tag hl
  · have hmem := List.mem_of_getElem? htask
    have htag := hs.tags _ hmem
    obtain ⟨hguar, hnext⟩ := hs.tasks _ hmem
    obtain ⟨hrely, hinv, hspawn⟩ := h.exec tag op env s.world htag hl hs.world hguar
    refine ⟨hinv, ?_, ?_, ?_⟩
    · intro t ht
      rcases mem_tasks_perform ht with rfl | ht | ⟨tag', htag', rfl⟩
      · exact htag
      · exact hs.tags t ht
      · exact hspawn tag' htag'
    · intro t ht
      rcases mem_tasks_perform ht with rfl | ht | ⟨tag', htag', rfl⟩
      · exact hnext _ hrely
      · exact hs.tasks t ht
      · exact h.body tag' (hspawn tag' htag')
    · intro r hr
      rcases List.mem_append.mp hr with hr | hr
      · exact hs.trace r hr
      · rw [List.mem_singleton.mp hr]
        exact ⟨htag, hguar, hrely⟩

/-- **The rely-guarantee rule.** Every operation of a run meets the guarantee of its task, and
every response what is relied on. -/
theorem run_safe (h : RelyGuarantee S okEnv inv okTag guar rely)
    (hls : ∀ l ∈ ls, Admits okEnv okTag l) (hs : SafeState S inv okTag guar rely s)
    (hrun : S.run s ls = some s') : SafeState S inv okTag guar rely s' :=
  run_invariant (fun _ _ _ hs hl hstep => step_safe h hl hs hstep) hs
    (along_of_forall (C := fun _ l => Admits okEnv okTag l) ls s fun l hl _ => hls l hl) hrun

end RelyGuarantee

/-! ## The paths of single tasks -/

/-- The operations of one task. -/
def eventsOf (trace : List (Record Op Resp Tag)) (i : ℕ) : List (Event Op Resp) :=
  trace.filterMap fun r => if r.task = i then some ⟨r.op, r.resp⟩ else none

theorem eventsOf_append (t₁ t₂ : List (Record Op Resp Tag)) (i : ℕ) :
    eventsOf (t₁ ++ t₂) i = eventsOf t₁ i ++ eventsOf t₂ i := List.filterMap_append

/-- The first event of a task with some property, found in the trace. -/
theorem findSome?_eventsOf {β : Type} (trace : List (Record Op Resp Tag)) (i : ℕ)
    (g : Event Op Resp → Option β) :
    (eventsOf trace i).findSome? g =
      trace.findSome? fun r => if r.task = i then g ⟨r.op, r.resp⟩ else none := by
  rw [eventsOf, ← List.head?_filterMap, List.filterMap_filterMap, List.head?_filterMap]
  congr 1
  funext r
  split_ifs <;> rfl

/-- Every task has followed a path of its program, and the records carry its tag. -/
structure PathState (S : System Op Resp World Env Tag Out)
    (s : State Op Resp World Tag Out) : Prop where
  path : ∀ i t, s.tasks[i]? = some t → Path (S.body t.tag) (eventsOf s.trace i) t.prog
  known : ∀ r ∈ s.trace, ∃ t, s.tasks[r.task]? = some t ∧ t.tag = r.tag

theorem pathState_initial (w : World) : PathState S (initial w) :=
  ⟨by simp [initial], by simp [initial]⟩

/-- Tasks that are appended behind the others have performed nothing. -/
theorem PathState.append (hs : PathState S s) (tags : List Tag) :
    PathState S { s with tasks := s.tasks ++ tags.map S.spawn } := by
  have hfresh : ∀ i, s.tasks.length ≤ i → eventsOf s.trace i = [] := by
    intro i hi
    rw [eventsOf, List.filterMap_eq_nil_iff]
    intro r hr
    obtain ⟨t, ht, -⟩ := hs.known r hr
    have hlt := (List.getElem?_eq_some_iff.mp ht).1
    rw [if_neg (by omega)]
  constructor
  · intro i t ht
    rcases Nat.lt_or_ge i s.tasks.length with hi | hi
    · rw [List.getElem?_append_left hi] at ht
      exact hs.path i t ht
    · rw [List.getElem?_append_right hi, List.getElem?_map] at ht
      obtain ⟨tag, -, rfl⟩ := Option.map_eq_some_iff.mp ht
      rw [hfresh i hi]
      exact .here _
  · intro r hr
    obtain ⟨t, ht, htag⟩ := hs.known r hr
    exact ⟨t, List.getElem?_append_left (List.getElem?_eq_some_iff.mp ht).1 ▸ ht, htag⟩

theorem step_path {l : Label Env Tag} (hs : PathState S s) (hstep : S.step s l = some s') :
    PathState S s' := by
  rcases step_cases hstep with ⟨tag, rfl, rfl⟩ | ⟨i, env, tag, op, next, rfl, htask, rfl⟩
  · exact hs.append [tag]
  · set out := S.exec op env s.world
    have hi := (List.getElem?_eq_some_iff.mp htask).1
    have h : PathState S ⟨out.2.1, s.tasks.set i ⟨tag, next out.1⟩,
        s.trace ++ [⟨i, tag, op, out.1⟩]⟩ := by
      constructor
      · intro j t ht
        rw [eventsOf_append]
        by_cases hj : i = j
        · subst hj
          rw [List.getElem?_set_self hi] at ht
          cases ht
          simpa [eventsOf] using (hs.path i _ htask).snoc out.1
        · rw [List.getElem?_set_ne hj] at ht
          simpa [eventsOf, hj] using hs.path j t ht
      · intro r hr
        have hother : ∀ t, s.tasks[r.task]? = some t → t.tag = r.tag →
            ∃ t, (s.tasks.set i ⟨tag, next out.1⟩)[r.task]? = some t ∧ t.tag = r.tag := by
          intro t ht htag
          by_cases hj : i = r.task
          · rw [← hj] at ht ⊢
            rw [htask] at ht
            cases ht
            exact ⟨_, List.getElem?_set_self hi, htag⟩
          · exact ⟨t, by rw [List.getElem?_set_ne hj]; exact ht, htag⟩
        rcases List.mem_append.mp hr with hr | hr
        · obtain ⟨t, ht, htag⟩ := hs.known r hr
          exact hother t ht htag
        · rw [List.mem_singleton] at hr
          subst hr
          exact hother _ htask rfl
    exact h.append out.2.2

/-- **Paths of a run.** What task `i` has performed is a path of its program. -/
theorem run_path (hs : PathState S s) (hrun : S.run s ls = some s') : PathState S s' :=
  run_invariant (fun _ _ _ hs _ hstep => step_path hs hstep) hs
    (along_of_forall (C := fun _ _ => True) ls s fun _ _ _ => trivial) hrun

/-! ## Running alone -/

section Solo

variable {α β : Type} {env : Env} {w w₁ w₂ : World} {events events' : List (Event Op Resp)}

/-- `Solo S env w p events w' q`: in the world `w` the program `p` performs `events`, with nobody
else in between and spawning nothing, and is then at `q` in the world `w'`. -/
inductive Solo (S : System Op Resp World Env Tag Out) (env : Env) :
    World → Prog Op Resp α → List (Event Op Resp) → World → Prog Op Resp α → Prop
  | here (w : World) (p : Prog Op Resp α) : Solo S env w p [] w p
  | step {w w' : World} {op : Op} {next : Resp op → Prog Op Resp α}
      {events : List (Event Op Resp)} {q : Prog Op Resp α} :
      (S.exec op env w).2.2 = [] →
      Solo S env (S.exec op env w).2.1 (next (S.exec op env w).1) events w' q →
      Solo S env w (act op next) (⟨op, (S.exec op env w).1⟩ :: events) w' q

theorem Solo.trans {p q r : Prog Op Resp α} (hp : Solo S env w p events w₁ q)
    (hq : Solo S env w₁ q events' w₂ r) : Solo S env w p (events ++ events') w₂ r := by
  induction hp with
  | here w p => exact hq
  | step hspawn _ ih => exact .step hspawn (ih hq)

theorem Solo.bind {p q : Prog Op Resp α} (f : α → Prog Op Resp β)
    (hp : Solo S env w p events w₁ q) : Solo S env w (p >>= f) events w₁ (q >>= f) := by
  induction hp with
  | here w p => exact .here _ _
  | step hspawn _ ih => exact .step hspawn ih

/-- Alone in the world `w`, the program comes to where `goal` holds. -/
def Leads (S : System Op Resp World Env Tag Out) (env : Env)
    (goal : World → Prog Op Resp α → Prop) (w : World) (p : Prog Op Resp α) : Prop :=
  ∃ events w' q, Solo S env w p events w' q ∧ goal w' q

/-- Alone in the world `w`, the program returns a value that meets `post`. -/
def Returns (S : System Op Resp World Env Tag Out) (env : Env) (post : World → α → Prop)
    (w : World) (p : Prog Op Resp α) : Prop :=
  Leads S env (fun w' q => ∃ a, q = ret a ∧ post w' a) w p

variable {goal : World → Prog Op Resp α → Prop} {post : World → α → Prop}

theorem leads_here {p : Prog Op Resp α} (h : goal w p) : Leads S env goal w p :=
  ⟨[], w, p, .here _ _, h⟩

theorem returns_ret {a : α} (h : post w a) : Returns S env post w (ret a) :=
  leads_here ⟨a, rfl, h⟩

/-- One operation and what follows it. -/
theorem leads_op {op : Op} {next : Resp op → Prog Op Resp α}
    (hspawn : (S.exec op env w).2.2 = [])
    (h : Leads S env goal (S.exec op env w).2.1 (next (S.exec op env w).1)) :
    Leads S env goal w (act op next) := by
  obtain ⟨events, w', q, hsolo, hgoal⟩ := h
  exact ⟨_, w', q, .step hspawn hsolo, hgoal⟩

/-- The rule of composition. -/
theorem leads_bind {p : Prog Op Resp α} {f : α → Prog Op Resp β}
    {goal : World → Prog Op Resp β → Prop} (hp : Returns S env post w p)
    (hf : ∀ w' a, post w' a → Leads S env goal w' (f a)) : Leads S env goal w (p >>= f) := by
  obtain ⟨events, w', q, hsolo, a, rfl, hpost⟩ := hp
  obtain ⟨events', w'', r, hrest, hgoal⟩ := hf w' a hpost
  exact ⟨_, w'', r, (hsolo.bind f).trans hrest, hgoal⟩

/-- Coming to a point inside the first of two programs. -/
theorem Leads.inside {p : Prog Op Resp α} {f : α → Prog Op Resp β}
    {goal' : World → Prog Op Resp β → Prop} (hp : Leads S env goal w p)
    (hgoal : ∀ w' q, goal w' q → goal' w' (q >>= f)) : Leads S env goal' w (p >>= f) := by
  obtain ⟨events, w', q, hsolo, hq⟩ := hp
  exact ⟨events, w', _, hsolo.bind f, hgoal w' q hq⟩

/-- **Running alone.** If the program of task `i` runs alone, so can the task, and the others stay
where they are. -/
theorem run_solo {i : ℕ} {tag : Tag} {p q : Prog Op Resp Out} (h : Solo S env w p events w₁ q) :
    ∀ s : State Op Resp World Tag Out, s.world = w → s.tasks[i]? = some ⟨tag, p⟩ →
      S.run s (List.replicate events.length (.step i env)) =
        some ⟨w₁, s.tasks.set i ⟨tag, q⟩,
          s.trace ++ events.map fun e => ⟨i, tag, e.op, e.resp⟩⟩ := by
  induction h with
  | here w p =>
    intro s hw htask
    obtain ⟨hi, htask⟩ := List.getElem?_eq_some_iff.mp htask
    simp only [List.length_nil, List.replicate_zero, run, List.map_nil, List.append_nil,
      ← hw, ← htask, List.set_getElem_self]
  | @step w w' op next events q hspawn _ ih =>
    intro s hw htask
    subst hw
    have hi := (List.getElem?_eq_some_iff.mp htask).1
    have hone : S.step s (.step i env) = some (S.perform s i env tag op next) := by
      simp only [step, htask]
    simp only [List.length_cons, List.replicate_succ, run, hone, Option.bind_some]
    rw [ih (S.perform s i env tag op next) rfl (getElem?_tasks_perform_self hi)]
    simp [perform, hspawn]

end Solo

end System

end Process
