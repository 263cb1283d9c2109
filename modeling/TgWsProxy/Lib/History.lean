import TgWsProxy.Lib.Tasks

set_option relaxedAutoImplicit false
set_option autoImplicit false

/-!
# Guarantees that depend on the history of a task

What a program may do next often depends on what it has done so far: a lock is released only after
it was taken, a value is stored only after it was received. Such a guarantee is a relation between
the history of a task and its next operation.

## Main definitions

* `Process.Obeys` — on every path of a program, every operation meets a guarantee that may look at
  the operations before it, and so does the returned value.
* `Process.System.nextOp` — what a task performs next.
* `Process.System.InCall` — a task is inside a call of some program.

## Main results

* `Process.obeys_bind`, `Obeys.path` — composition, and what holds along a path.
* `Process.Obeys.weaken` — a program whose operations do not depend on its history.
* `Process.System.PathState.obeys` — in every state of a run, a task obeys its guarantee from its
  own history on.
* `Process.System.run_invariant_of_path` — invariants of the histories.
* `Process.System.tasks_perform_cases`, `mem_eventsOf_perform` — the tasks and their histories after
  a step.
* `Process.System.InCall.step`, `InCall.run_others` — a call goes on with the steps of its task.
-/

namespace Process

open Prog

variable {Op : Type} {Resp : Op → Type} {α β : Type}

/-! ## Paths compose -/

theorem Path.append {p q r : Prog Op Resp α} {events events' : List (Event Op Resp)}
    (h : Path p events q) (h' : Path q events' r) : Path p (events ++ events') r := by
  induction h with
  | here p => exact h'
  | step _ ih => exact .step (ih h')

theorem Path.bind {p q : Prog Op Resp α} {events : List (Event Op Resp)}
    (f : α → Prog Op Resp β) (h : Path p events q) : Path (p >>= f) events (q >>= f) := by
  induction h with
  | here p => exact .here _
  | step _ ih => exact .step ih

/-- The events determine where a path ends. -/
theorem Path.unique {p q q' : Prog Op Resp α} {events : List (Event Op Resp)}
    (h : Path p events q) (h' : Path p events q') : q = q' := by
  induction h with
  | here p => cases h'; rfl
  | step _ ih =>
    cases h' with
    | step h' => exact ih h'

/-- The last event of a path was the next operation before it. -/
theorem Path.unsnoc {p q : Prog Op Resp α} {events : List (Event Op Resp)}
    {e : Event Op Resp} (h : Path p (events ++ [e]) q) :
    ∃ next, Path p events (act e.op next) ∧ next e.resp = q := by
  generalize hevents : events ++ [e] = all at h
  induction h generalizing events with
  | here p => simp at hevents
  | @step op next r rest q hrest ih =>
    cases events with
    | nil =>
      obtain ⟨rfl, rfl⟩ : e = ⟨op, r⟩ ∧ rest = [] := by simpa [eq_comm] using hevents
      exact ⟨next, .here _, hrest.eq_of_nil⟩
    | cons e' events =>
      rw [List.cons_append, List.cons.injEq] at hevents
      obtain ⟨rfl, hevents⟩ := hevents
      obtain ⟨next', hpath, hnext⟩ := ih hevents
      exact ⟨next', .step hpath, hnext⟩

/-! ## Guarantees over histories -/

/-- With `history` behind it, every operation of the program meets `guar`, and the value returned
meets `post`, whatever the responses. -/
def Obeys (guar : List (Event Op Resp) → Op → Prop) (post : List (Event Op Resp) → α → Prop) :
    List (Event Op Resp) → Prog Op Resp α → Prop
  | history, ret a => post history a
  | history, act op next =>
    guar history op ∧ ∀ r, Obeys guar post (history ++ [⟨op, r⟩]) (next r)

section Rules

variable {guar : List (Event Op Resp) → Op → Prop} {history : List (Event Op Resp)}

theorem Obeys.mono {post post' : List (Event Op Resp) → α → Prop} {p : Prog Op Resp α}
    (h : Obeys guar post history p) (hpost : ∀ history a, post history a → post' history a) :
    Obeys guar post' history p := by
  induction p generalizing history with
  | ret a => exact hpost history a h
  | act op next ih => exact ⟨h.1, fun r => ih r (h.2 r)⟩

/-- The rule of composition. -/
theorem obeys_bind {mid : List (Event Op Resp) → α → Prop}
    {post : List (Event Op Resp) → β → Prop} {p : Prog Op Resp α} {f : α → Prog Op Resp β}
    (hp : Obeys guar mid history p)
    (hf : ∀ history a, mid history a → Obeys guar post history (f a)) :
    Obeys guar post history (p >>= f) := by
  induction p generalizing history with
  | ret a => exact hf history a hp
  | act op next ih => exact ⟨hp.1, fun r => ih r (hp.2 r)⟩

/-- One operation and what follows it. -/
theorem obeys_op {post : List (Event Op Resp) → α → Prop} {op : Op}
    {f : Resp op → Prog Op Resp α} (hop : guar history op)
    (hf : ∀ r, Obeys guar post (history ++ [⟨op, r⟩]) (f r)) :
    Obeys guar post history (perform op >>= f) := ⟨hop, hf⟩

/-- One operation. -/
theorem obeys_perform {op : Op} {post : List (Event Op Resp) → Resp op → Prop}
    (hop : guar history op) (hpost : ∀ r, post (history ++ [⟨op, r⟩]) r) :
    Obeys guar post history (perform op) := ⟨hop, hpost⟩

/-- A program whose operations are in `A` whatever its history obeys every guarantee that allows `A`
whenever `J` holds of the history, and keeps `J`. -/
theorem Obeys.weaken {A : Op → Prop} {J : List (Event Op Resp) → Prop}
    {post : List (Event Op Resp) → α → Prop} {p : Prog Op Resp α}
    (h : Obeys (fun _ op => A op) post history p)
    (hguar : ∀ history op, J history → A op → guar history op)
    (hkeep : ∀ history op r, J history → A op → J (history ++ [⟨op, r⟩])) (hJ : J history) :
    Obeys guar (fun history a => J history ∧ post history a) history p := by
  induction p generalizing history with
  | ret a => exact ⟨hJ, h⟩
  | act op next ih =>
    exact ⟨hguar history op hJ h.1, fun r => ih r (h.2 r) (hkeep history op r hJ h.1)⟩

/-- Along a path, every operation meets the guarantee, and the program obeys it where the path
ends. -/
theorem Obeys.path {post : List (Event Op Resp) → α → Prop} {p q : Prog Op Resp α}
    {events : List (Event Op Resp)} (h : Obeys guar post history p) (hpath : Path p events q) :
    Obeys guar post (history ++ events) q := by
  induction hpath generalizing history with
  | here p => simpa using h
  | @step op next r events q _ ih => simpa using ih (h.2 r)

/-- Every operation on a path met the guarantee when it was performed. -/
theorem Obeys.path_guar {post : List (Event Op Resp) → α → Prop} {p q : Prog Op Resp α}
    {before after : List (Event Op Resp)} {e : Event Op Resp} (h : Obeys guar post history p)
    (hpath : Path p (before ++ e :: after) q) : guar (history ++ before) e.op := by
  induction before generalizing p history with
  | nil =>
    cases hpath
    simpa using h.1
  | cons e' before ih =>
    cases hpath with
    | step hrest => simpa using ih (h.2 _) hrest

end Rules

/-! ## The histories of a run -/

namespace System

variable {World Env Tag Out : Type} {S : System Op Resp World Env Tag Out}
  {s s' : State Op Resp World Tag Out}

/-- **Histories of a run.** In every state of a run, a task obeys its guarantee from its own
history on. -/
theorem PathState.obeys (hs : PathState S s) {guar : Tag → List (Event Op Resp) → Op → Prop}
    {post : Tag → List (Event Op Resp) → Out → Prop}
    (hbody : ∀ tag, Obeys (guar tag) (post tag) [] (S.body tag)) {i : ℕ}
    {t : Task Op Resp Tag Out} (ht : s.tasks[i]? = some t) :
    Obeys (guar t.tag) (post t.tag) (eventsOf s.trace i) t.prog :=
  (hbody t.tag).path (hs.path i t ht)

/-- **Invariants of the histories.** What every step keeps, given where the tasks are on their
paths, holds after every run. -/
theorem run_invariant_of_path {I : State Op Resp World Tag Out → Prop}
    (hstep : ∀ s l s', PathState S s → I s → S.step s l = some s' → I s') {w : World}
    {ls : List (Label Env Tag)} (hinitial : I (initial w)) (hrun : S.run (initial w) ls = some s) :
    I s :=
  (run_invariant (I := fun s => PathState S s ∧ I s)
    (fun s l s' hs _ hnext => ⟨step_path hs.1 hnext, hstep s l s' hs.1 hs.2 hnext⟩)
    ⟨pathState_initial w, hinitial⟩
    (along_of_forall (C := fun _ _ => True) ls _ fun _ _ _ => trivial) hrun).2

/-- A task that does not exist yet has performed nothing. -/
theorem PathState.eventsOf_fresh (hs : PathState S s) {i : ℕ} (hi : s.tasks.length ≤ i) :
    eventsOf s.trace i = [] := by
  rw [eventsOf, List.filterMap_eq_nil_iff]
  intro r hr
  obtain ⟨t, ht, -⟩ := hs.known r hr
  have hlt := (List.getElem?_eq_some_iff.mp ht).1
  rw [if_neg (by omega)]

section Perform

variable {i : ℕ} {env : Env} {tag : Tag} {op : Op} {next : Resp op → Prog Op Resp Out}

theorem eventsOf_perform_self : eventsOf (S.perform s i env tag op next).trace i =
    eventsOf s.trace i ++ [⟨op, (S.exec op env s.world).1⟩] := by
  simp [perform, eventsOf]

theorem eventsOf_perform_ne {j : ℕ} (hij : i ≠ j) :
    eventsOf (S.perform s i env tag op next).trace j = eventsOf s.trace j := by
  simp [perform, eventsOf, hij]

/-- The events of a task after an operation: those before it, and the operation if it is the one
that performed it. -/
theorem mem_eventsOf_perform {j : ℕ} {e : Event Op Resp}
    (he : e ∈ eventsOf (S.perform s i env tag op next).trace j) :
    e ∈ eventsOf s.trace j ∨ (j = i ∧ e = ⟨op, (S.exec op env s.world).1⟩) := by
  by_cases hij : i = j
  · subst hij
    rw [eventsOf_perform_self] at he
    rcases List.mem_append.mp he with he | he
    · exact .inl he
    · exact .inr ⟨rfl, List.mem_singleton.mp he⟩
  · rw [eventsOf_perform_ne hij] at he
    exact .inl he

/-- The tasks after an operation, by number: the one that performed it, another one, or a spawned
one. -/
theorem tasks_perform_cases (hi : i < s.tasks.length) {j : ℕ} {t : Task Op Resp Tag Out}
    (ht : (S.perform s i env tag op next).tasks[j]? = some t) :
    (j = i ∧ t = ⟨tag, next (S.exec op env s.world).1⟩) ∨ (j ≠ i ∧ s.tasks[j]? = some t) ∨
      (s.tasks.length ≤ j ∧ ∃ tag' ∈ (S.exec op env s.world).2.2, t = S.spawn tag') := by
  rcases Nat.lt_or_ge j s.tasks.length with hj | hj
  · rw [perform, List.getElem?_append_left (by simpa using hj)] at ht
    by_cases hij : j = i
    · subst hij
      rw [List.getElem?_set_self hi] at ht
      exact .inl ⟨rfl, (Option.some.inj ht).symm⟩
    · rw [List.getElem?_set_ne (Ne.symm hij)] at ht
      exact .inr (.inl ⟨hij, ht⟩)
  · rw [perform, List.getElem?_append_right (by simpa using hj), List.getElem?_map] at ht
    obtain ⟨tag', htag', rfl⟩ := Option.map_eq_some_iff.mp ht
    exact .inr (.inr ⟨hj, tag', List.mem_of_getElem? htag', rfl⟩)

end Perform

/-- The tasks after an arrival, by number. -/
theorem tasks_start_cases {tag : Tag} {j : ℕ} {t : Task Op Resp Tag Out}
    (ht : (s.tasks ++ [S.spawn tag])[j]? = some t) :
    s.tasks[j]? = some t ∨ (j = s.tasks.length ∧ t = S.spawn tag) := by
  rcases Nat.lt_or_ge j s.tasks.length with hj | hj
  · rw [List.getElem?_append_left hj] at ht
    exact .inl ht
  · rw [List.getElem?_append_right hj] at ht
    obtain ⟨hlt, rfl⟩ := List.getElem?_eq_some_iff.mp ht
    simp only [List.length_singleton] at hlt
    exact .inr ⟨by omega, by simp⟩

/-! ## Next operations -/

/-- The operation that task `i` performs next, unless it has returned. -/
def nextOp (s : State Op Resp World Tag Out) (i : ℕ) : Option Op :=
  match s.tasks[i]? with
  | some ⟨_, .act op _⟩ => some op
  | _ => none

theorem nextOp_eq_some {i : ℕ} {op : Op} :
    nextOp s i = some op ↔ ∃ tag next, s.tasks[i]? = some ⟨tag, .act op next⟩ := by
  constructor
  · intro h
    rw [nextOp] at h
    split at h
    · rename_i tag op' next htask
      cases h
      exact ⟨tag, next, htask⟩
    · cases h
  · rintro ⟨tag, next, htask⟩
    rw [nextOp, htask]

/-! ## Conditions on the steps of a run -/

/-- Under an invariant, two conditions on steps that agree are met along the same runs. -/
theorem along_congr {I : State Op Resp World Tag Out → Prop}
    {C D : State Op Resp World Tag Out → Label Env Tag → Prop}
    (hstep : ∀ s l s', I s → S.step s l = some s' → I s')
    (h : ∀ s l, I s → (C s l ↔ D s l)) :
    ∀ {ls : List (Label Env Tag)} {s : State Op Resp World Tag Out}, I s →
      (S.Along C s ls ↔ S.Along D s ls) := by
  intro ls
  induction ls with
  | nil => exact fun _ => Iff.rfl
  | cons l ls ih =>
    intro s hs
    refine and_congr (h s l hs) (forall_congr' fun s' => forall_congr' fun hs' => ?_)
    exact ih (hstep s l s' hs hs')

/-- What is met along a run is met along its parts. -/
theorem Along.append {C : State Op Resp World Tag Out → Label Env Tag → Prop}
    {pre post : List (Label Env Tag)} :
    ∀ {s : State Op Resp World Tag Out}, S.Along C s (pre ++ post) →
      S.Along C s pre ∧ ∀ s', S.run s pre = some s' → S.Along C s' post := by
  induction pre with
  | nil =>
    intro s hC
    refine ⟨trivial, fun s' hrun => ?_⟩
    cases hrun
    exact hC
  | cons l pre ih =>
    intro s hC
    refine ⟨⟨hC.1, fun s₁ hs₁ => (ih (hC.2 s₁ hs₁)).1⟩, fun s' hrun => ?_⟩
    obtain ⟨s₁, hs₁, hrun⟩ := Option.bind_eq_some_iff.mp hrun
    exact (ih (hC.2 s₁ hs₁)).2 s' hrun

/-- A condition that is met along a run is met by each of its steps. -/
theorem Along.of_run {C : State Op Resp World Tag Out → Label Env Tag → Prop}
    {pre post : List (Label Env Tag)} {l : Label Env Tag} {s s' : State Op Resp World Tag Out}
    (hC : S.Along C s (pre ++ l :: post)) (hrun : S.run s pre = some s') : C s' l :=
  (hC.append.2 s' hrun).1

/-! ## Calls -/

/-- Task `i` is in a call of `callee`: it has performed `events` of it, and `rest` is left. -/
def InCall (S : System Op Resp World Env Tag Out) (s : State Op Resp World Tag Out) (i : ℕ)
    (callee : Prog Op Resp α) (events : List (Event Op Resp)) (rest : Prog Op Resp α) : Prop :=
  ∃ t before after, s.tasks[i]? = some t ∧ eventsOf s.trace i = before ++ events ∧
    Path (S.body t.tag) before (callee >>= after) ∧ Path callee events rest

/-- A task in a call runs what is left of it, and then what follows. -/
theorem InCall.task (hs : PathState S s) {i : ℕ} {callee rest : Prog Op Resp α}
    {events : List (Event Op Resp)} (h : InCall S s i callee events rest) :
    ∃ tag after, s.tasks[i]? = some ⟨tag, rest >>= after⟩ := by
  obtain ⟨t, before, after, ht, hevents, hbefore, hcall⟩ := h
  have hpath := hs.path i t ht
  rw [hevents] at hpath
  refine ⟨t.tag, after, ?_⟩
  rw [ht, ← hpath.unique (hbefore.append (hcall.bind after))]

/-- A call waits while others step. -/
theorem InCall.step_other {l : Label Env Tag} {i : ℕ} {callee rest : Prog Op Resp α}
    {events : List (Event Op Resp)} (h : InCall S s i callee events rest)
    (hl : ∀ env, l ≠ .step i env) (hstep : S.step s l = some s') :
    InCall S s' i callee events rest := by
  obtain ⟨t, before, after, ht, hevents, hbefore, hcall⟩ := h
  rcases step_cases hstep with ⟨tag, rfl, rfl⟩ | ⟨j, env, tag, op, next, rfl, htask, rfl⟩
  · refine ⟨t, before, after, ?_, hevents, hbefore, hcall⟩
    rw [List.getElem?_append_left (List.getElem?_eq_some_iff.mp ht).1, ht]
  · have hij : j ≠ i := by
      rintro rfl
      exact hl env rfl
    refine ⟨t, before, after, getElem?_tasks_perform_ne hij ht, ?_, hbefore, hcall⟩
    rw [eventsOf_perform_ne hij, hevents]

theorem InCall.run_others {ls : List (Label Env Tag)} {i : ℕ} {callee rest : Prog Op Resp α}
    {events : List (Event Op Resp)} (h : InCall S s i callee events rest)
    (hls : ∀ env, .step i env ∉ ls) (hrun : S.run s ls = some s') :
    InCall S s' i callee events rest := by
  induction ls generalizing s with
  | nil =>
    cases hrun
    exact h
  | cons l ls ih =>
    obtain ⟨s₁, hs₁, hrun⟩ := Option.bind_eq_some_iff.mp hrun
    refine ih (h.step_other ?_ hs₁) (fun env hmem => hls env (List.mem_cons_of_mem l hmem)) hrun
    rintro env rfl
    exact hls env List.mem_cons_self

/-- What a call has performed last was its next operation in the state before. -/
theorem InCall.before_perform {i : ℕ} {env : Env} {tag : Tag} {op : Op}
    {next : Resp op → Prog Op Resp Out} {callee rest : Prog Op Resp α}
    {events : List (Event Op Resp)} {e : Event Op Resp}
    (htask : s.tasks[i]? = some ⟨tag, .act op next⟩)
    (h : InCall S (S.perform s i env tag op next) i callee (events ++ [e]) rest) :
    e = ⟨op, (S.exec op env s.world).1⟩ ∧ ∃ next', InCall S s i callee events (.act e.op next') ∧
      next' e.resp = rest := by
  obtain ⟨t, before, after, ht, hevents, hbefore, hcall⟩ := h
  rw [eventsOf_perform_self, ← List.append_assoc] at hevents
  obtain ⟨hold, hlast⟩ := List.append_inj' hevents rfl
  rw [List.cons.injEq] at hlast
  have htag : t.tag = tag := by
    rw [getElem?_tasks_perform_self (List.getElem?_eq_some_iff.mp htask).1] at ht
    cases ht
    rfl
  obtain ⟨next', hpath, hrest⟩ := hcall.unsnoc
  rw [htag] at hbefore
  exact ⟨hlast.1.symm, next', ⟨⟨tag, .act op next⟩, before, after, htask, hold, hbefore, hpath⟩,
    hrest⟩

/-- A call whose next operation is performed goes on with the response. -/
theorem InCall.perform (hs : PathState S s) {i : ℕ} (env : Env) {tag : Tag} {op op' : Op}
    {next : Resp op → Prog Op Resp Out} {callee : Prog Op Resp α}
    {next' : Resp op' → Prog Op Resp α} {events : List (Event Op Resp)}
    (htask : s.tasks[i]? = some ⟨tag, .act op next⟩)
    (h : InCall S s i callee events (.act op' next')) :
    ∃ r, (⟨op', r⟩ : Event Op Resp) = ⟨op, (S.exec op env s.world).1⟩ ∧
      InCall S (S.perform s i env tag op next) i callee (events ++ [⟨op', r⟩]) (next' r) := by
  obtain ⟨t, before, after, ht, hevents, hbefore, hcall⟩ := h
  rw [htask] at ht
  cases ht
  have hpath := hs.path i _ htask
  rw [hevents] at hpath
  have hprog := hpath.unique (hbefore.append (hcall.bind after))
  cases hprog
  refine ⟨_, rfl, ⟨tag, _⟩, before, after,
    getElem?_tasks_perform_self (List.getElem?_eq_some_iff.mp htask).1, ?_, hbefore,
    hcall.snoc _⟩
  rw [eventsOf_perform_self, hevents, List.append_assoc]

/-- The next step of a task in a call is the next operation of the call. -/
theorem InCall.step (hs : PathState S s) {i : ℕ} {env : Env} {op : Op}
    {callee : Prog Op Resp α} {next : Resp op → Prog Op Resp α} {events : List (Event Op Resp)}
    (h : InCall S s i callee events (.act op next)) (hstep : S.step s (.step i env) = some s') :
    s'.world = (S.exec op env s.world).2.1 ∧ InCall S s' i callee
      (events ++ [⟨op, (S.exec op env s.world).1⟩]) (next (S.exec op env s.world).1) := by
  rcases step_cases hstep with ⟨tag, hl, -⟩ | ⟨j, env', tag, op', next', hl, htask, rfl⟩
  · cases hl
  cases hl
  obtain ⟨r, hr, hcall⟩ := h.perform hs env htask
  cases hr
  exact ⟨rfl, hcall⟩

end System

end Process
