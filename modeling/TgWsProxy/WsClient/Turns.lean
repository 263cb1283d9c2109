import TgWsProxy.WsClient.Connect

set_option relaxedAutoImplicit false
set_option autoImplicit false

/-!
# The turns of the Cloudflare connect loop

The loop of `connect_cf_ws_for_dc_with_outbound`, driven by any sequence of outcomes, one for each
attempt. What matters of the attempt queue is the list of attempts it will hand out: an attempt
takes the first of them, and a record missing from DNS puts its base record in front.

## Main definitions

* `TgWsProxy.CfTurn`, `CfAttempts.loop` — the turns of the loop and what it returns.
* `TgWsProxy.CfAttempts.forces` — the base record that a failure queues.
* `TgWsProxy.FollowsMissing` — a forced turn right behind the failure it is derived from.

## Main results

* `TgWsProxy.CfAttempts.nextAttempt_upcoming` — the queue hands out the first upcoming attempt.
* `TgWsProxy.afterFailure_upcoming` — what a failure adds in front.
* `TgWsProxy.loop_of_path`, `path_of_loop` — the loop is the connector of `Connect`.
* `TgWsProxy.loop_ends` — it ends, whatever the outcomes.
* `TgWsProxy.cfLoop_covers` — every hostname has its own turn once, in order, and every forced
  attempt follows the failure it is derived from.
-/

namespace TgWsProxy

open Process

namespace CfAttempts

/-! ## What the queue hands out -/

/-- `next_domain` hands out the record of the entry. -/
theorem nextDomain_eq (s : CfAttempts) :
    s.nextDomain = s.nextAttempt.map fun x => (x.1.domain, x.2) := by
  have key : ∀ (queue : List CfAttempt) (tried : List Host),
      nextIn s.timedOut queue tried =
        (nextAttemptIn s.timedOut queue tried).map fun x => (x.1.domain, x.2) := by
    intro queue
    induction queue with
    | nil => intro tried; rfl
    | cons a queue ih =>
      intro tried
      simp only [nextIn, nextAttemptIn]
      split_ifs
      · rfl
      · exact ih tried
      · rfl
  exact key s.queue s.tried

/-- The queue hands out the first upcoming attempt. -/
theorem nextAttempt_upcoming (s : CfAttempts) :
    (s.nextAttempt = none ∧ s.upcoming = []) ∨
      ∃ a next, s.nextAttempt = some (a, next) ∧ s.upcoming = a :: next.upcoming ∧
        next.timedOut = s.timedOut := by
  have key : ∀ (queue : List CfAttempt) (tried : List Host),
      (nextAttemptIn s.timedOut queue tried = none ∧ upcomingIn queue tried = []) ∨
        ∃ a next, nextAttemptIn s.timedOut queue tried = some (a, next) ∧
          upcomingIn queue tried = a :: next.upcoming ∧ next.timedOut = s.timedOut := by
    intro queue
    induction queue with
    | nil => intro tried; exact .inl ⟨rfl, rfl⟩
    | cons a queue ih =>
      intro tried
      simp only [nextAttemptIn, upcomingIn]
      split_ifs
      · exact .inr ⟨a, _, rfl, rfl, rfl⟩
      · exact ih tried
      · exact .inr ⟨a, _, rfl, rfl, rfl⟩
  exact key s.queue s.tried

/-- A queue that hands out nothing has nothing upcoming. -/
theorem upcoming_of_none {s : CfAttempts} (h : s.nextAttempt = none) : s.upcoming = [] := by
  rcases s.nextAttempt_upcoming with ⟨-, hup⟩ | ⟨a, next, hsome, -, -⟩
  · exact hup
  · rw [h] at hsome
    cases hsome

/-- The attempt handed out was the first upcoming one, and the others are left. -/
theorem upcoming_of_some {s next : CfAttempts} {a : CfAttempt}
    (h : s.nextAttempt = some (a, next)) :
    s.upcoming = a :: next.upcoming ∧ next.timedOut = s.timedOut := by
  rcases s.nextAttempt_upcoming with ⟨hnone, -⟩ | ⟨a', next', hsome, hup, htimed⟩
  · rw [h] at hnone
    cases hnone
  · rw [h] at hsome
    cases hsome
    exact ⟨hup, htimed⟩

/-- An own turn is upcoming if its entry is queued and its record has not been tried. -/
theorem own_mem_upcoming (s : CfAttempts) (d : Host) :
    ⟨d, false⟩ ∈ s.upcoming ↔ ⟨d, false⟩ ∈ s.queue ∧ d ∉ s.tried := by
  have key : ∀ (queue : List CfAttempt) (tried : List Host),
      ⟨d, false⟩ ∈ upcomingIn queue tried ↔ ⟨d, false⟩ ∈ queue ∧ d ∉ tried := by
    intro queue
    induction queue with
    | nil => intro tried; simp [upcomingIn]
    | cons a queue ih =>
      intro tried
      have hne : a.forced = true → (⟨d, false⟩ : CfAttempt) ≠ a := by
        rintro h rfl
        cases h
      simp only [upcomingIn]
      split_ifs with hforced htried
      · simp only [List.mem_cons, hne hforced, ih, false_or]
      · rw [ih]
        refine and_congr_left fun hd => ?_
        have hother : (⟨d, false⟩ : CfAttempt) ≠ a := by
          rintro rfl
          exact hd htried
        simp only [List.mem_cons, hother, false_or]
      · simp only [List.mem_cons, ih, not_or]
        by_cases had : (⟨d, false⟩ : CfAttempt) = a
        · subst had
          simpa using htried
        · have hdomain : d ≠ a.domain := by
            rintro rfl
            exact had (by cases a; simp_all)
          simp only [had, hdomain, false_or, not_false_eq_true, true_and]
  exact key s.queue s.tried

/-- At the start every hostname has one own turn coming, in the order of first occurrence. -/
theorem upcoming_new (domains : List Host) :
    (new domains).upcoming = domains.eraseDups.map fun d => ⟨d, false⟩ := by
  have key : ∀ (domains : List Host) (tried : List Host),
      upcomingIn (domains.map fun d => ⟨d, false⟩) tried =
        (domains.filter fun d => !tried.contains d).eraseDups.map fun d => ⟨d, false⟩ := by
    intro domains
    induction domains with
    | nil => intro tried; rfl
    | cons d domains ih =>
      intro tried
      simp only [List.map_cons, upcomingIn, Bool.false_eq_true, if_false]
      split_ifs with htried
      · rw [ih tried, List.filter_cons_of_neg (by simpa using htried)]
      · rw [ih (d :: tried), List.filter_cons_of_pos (by simpa using htried),
          List.eraseDups_cons, List.map_cons, List.filter_filter]
        congr 4
        funext x
        simp [Bool.not_or, Bool.beq_eq_decide_eq]
  have h := key domains []
  simpa [upcoming, new] using h

theorem own_of_mem_upcoming_new {domains : List Host} :
    ∀ a ∈ (new domains).upcoming, a.forced = false := by
  rw [upcoming_new]
  intro a ha
  obtain ⟨d, -, rfl⟩ := List.mem_map.mp ha
  rfl

end CfAttempts

/-! ## Outcomes -/

/-- A resolver failure. -/
def WsConnectResult.dnsMissing : WsConnectResult → Bool
  | .failed reason => isDnsNotFound reason
  | _ => false

/-- An attempt that ran out the clock, in the TCP connect or behind it. -/
def WsConnectResult.ranOut : WsConnectResult → Bool
  | .timedOut => true
  | .connectTimedOut _ => true
  | _ => false

/-- The base record that a failed attempt on `d` queues. -/
def CfAttempts.forces (s : CfAttempts) (d : Host) (outcome : WsConnectResult) : Option Host :=
  if outcome.dnsMissing then (baseCfRecord d).filter fun base => !s.timedOut.contains base
  else none

theorem CfAttempts.retryBaseOf_eq (s : CfAttempts) (d : Host) :
    s.retryBaseOf d = ((baseCfRecord d).filter fun base => !s.timedOut.contains base).map
      fun base => { s with queue := ⟨base, true⟩ :: s.queue } := by
  rw [retryBaseOf]
  cases baseCfRecord d with
  | none => rfl
  | some base =>
    by_cases hmem : base ∈ s.timedOut
    · simp [hmem]
    · simp [hmem]

/-- **What a failure does to the queue.** The base record of a missing record comes next, and a
record that ran out the clock is remembered. -/
theorem afterFailure_upcoming (s : CfAttempts) (allRedirects : Bool) (d : Host)
    (outcome : WsConnectResult) :
    (afterFailure s allRedirects d outcome).1.upcoming =
        (s.forces d outcome).toList.map (fun base => ⟨base, true⟩) ++ s.upcoming ∧
      (afterFailure s allRedirects d outcome).1.timedOut =
        if outcome.ranOut then d :: s.timedOut else s.timedOut := by
  cases outcome with
  | failed reason =>
    have hforces : s.forces d (.failed reason) = if isDnsNotFound reason then
        (baseCfRecord d).filter fun base => !s.timedOut.contains base else none := rfl
    rw [hforces]
    simp only [afterFailure, WsConnectResult.ranOut, CfAttempts.retryBaseOf_eq]
    by_cases hdns : isDnsNotFound reason = true
    · rw [if_pos hdns, if_pos hdns]
      cases (baseCfRecord d).filter fun base => !s.timedOut.contains base with
      | none => exact ⟨rfl, rfl⟩
      | some base => exact ⟨rfl, rfl⟩
    · rw [if_neg hdns, if_neg hdns]
      exact ⟨rfl, rfl⟩
  | connected ws => exact ⟨rfl, rfl⟩
  | redirect code => exact ⟨rfl, rfl⟩
  | connectTimedOut reason => exact ⟨rfl, rfl⟩
  | timedOut => exact ⟨rfl, rfl⟩

/-! ## The loop -/

/-- A turn of the loop: the queue before it, the attempt it makes and how the attempt ends. -/
structure CfTurn where
  before : CfAttempts
  attempt : CfAttempt
  outcome : WsConnectResult
  deriving DecidableEq

/-- What the connector returns: the stream, the record that answered, and whether every attempt
was a redirect. -/
abbrev CfResult := Option Stream × Option Host × Bool

/-- The loop of `connect_cf_ws_for_dc_with_outbound`, whose attempts end as given: its turns, and
what it returns, which is open as long as an attempt has no outcome. -/
def CfAttempts.loop (s : CfAttempts) (allRedirects : Bool) (outcomes : List WsConnectResult) :
    List CfTurn × Option CfResult :=
  match s.nextAttempt, outcomes with
  | none, _ => ([], some (none, none, allRedirects))
  | some _, [] => ([], none)
  | some (a, _), .connected ws :: _ =>
    ([⟨s, a, .connected ws⟩], some (some ws, some a.domain, false))
  | some (a, next), outcome :: outcomes =>
    let rest := (afterFailure next allRedirects a.domain outcome).1.loop
      (afterFailure next allRedirects a.domain outcome).2 outcomes
    (⟨s, a, outcome⟩ :: rest.1, rest.2)

section LoopEquations

variable {s next : CfAttempts} {a : CfAttempt} {allRedirects : Bool}

theorem CfAttempts.loop_none (h : s.nextAttempt = none) (outcomes : List WsConnectResult) :
    s.loop allRedirects outcomes = ([], some (none, none, allRedirects)) := by
  rw [loop.eq_def, h]

theorem CfAttempts.loop_nil (h : s.nextAttempt = some (a, next)) :
    s.loop allRedirects [] = ([], none) := by
  rw [loop.eq_def, h]

theorem CfAttempts.loop_connected (h : s.nextAttempt = some (a, next)) (ws : Stream)
    (outcomes : List WsConnectResult) :
    s.loop allRedirects (.connected ws :: outcomes) =
      ([⟨s, a, .connected ws⟩], some (some ws, some a.domain, false)) := by
  rw [loop.eq_def, h]

theorem CfAttempts.loop_failed (h : s.nextAttempt = some (a, next)) {outcome : WsConnectResult}
    (hfailed : outcome.stream = none) (outcomes : List WsConnectResult) :
    s.loop allRedirects (outcome :: outcomes) =
      (⟨s, a, outcome⟩ :: ((afterFailure next allRedirects a.domain outcome).1.loop
          (afterFailure next allRedirects a.domain outcome).2 outcomes).1,
        ((afterFailure next allRedirects a.domain outcome).1.loop
          (afterFailure next allRedirects a.domain outcome).2 outcomes).2) := by
  rw [loop.eq_def, h]
  cases outcome with
  | connected ws => cases hfailed
  | _ => rfl

end LoopEquations

/-- The dial of a turn, in the words of `connect_ws_with_outbound`. -/
def CfTurn.dialled (skipTlsVerify : Bool) (timeout : ℕ) (t : CfTurn) : Event Op Op.Resp :=
  ⟨.dial (apiwsRequest t.attempt.domain t.attempt.domain skipTlsVerify timeout none), t.outcome⟩

section Connector

variable {s next : CfAttempts} {a : CfAttempt}

theorem nextDomain_of_nextAttempt (h : s.nextAttempt = some (a, next)) :
    s.nextDomain = some (a.domain, next) := by
  rw [CfAttempts.nextDomain_eq, h]
  rfl

theorem nextDomain_of_nextAttempt_none (h : s.nextAttempt = none) : s.nextDomain = none := by
  rw [CfAttempts.nextDomain_eq, h]
  rfl

variable (skipTlsVerify : Bool) (timeout : ℕ)

/-- Whatever the outcomes, the connector makes the turns of the loop and returns what it returns. -/
theorem path_of_loop (s : CfAttempts) (allRedirects : Bool) (outcomes : List WsConnectResult) :
    ∃ q, Path (connectCfLoop skipTlsVerify timeout s allRedirects)
        ((s.loop allRedirects outcomes).1.map (CfTurn.dialled skipTlsVerify timeout)) q ∧
      ∀ result, (s.loop allRedirects outcomes).2 = some result → q = .ret result := by
  fun_induction CfAttempts.loop s allRedirects outcomes with
  | case1 outcomes s allRedirects hnext =>
    rw [connectCfLoop_none (nextDomain_of_nextAttempt_none hnext)]
    exact ⟨_, .here _, fun result hresult => by cases hresult; rfl⟩
  | case2 s allRedirects a hnext => exact ⟨_, .here _, fun result hresult => by cases hresult⟩
  | case3 s allRedirects a next ws outcomes hnext =>
    rw [connectCfLoop_some (nextDomain_of_nextAttempt hnext)]
    exact ⟨_, .step (.here _), fun result hresult => by cases hresult; rfl⟩
  | case4 s allRedirects a next outcome outcomes hfailed hnext rest ih =>
    obtain ⟨q, hpath, hq⟩ := ih
    rw [connectCfLoop_some (nextDomain_of_nextAttempt hnext)]
    refine ⟨q, .step ?_, hq⟩
    cases outcome with
    | connected ws => exact absurd rfl (hfailed ws)
    | redirect code => exact hpath
    | failed reason => exact hpath
    | connectTimedOut reason => exact hpath
    | timedOut => exact hpath

/-- What the connector performs on any of its paths are the turns of the loop. -/
theorem loop_of_path {events : List (Event Op Op.Resp)} :
    ∀ {s : CfAttempts} {allRedirects : Bool} {q : Action CfResult},
      Path (connectCfLoop skipTlsVerify timeout s allRedirects) events q →
      ∃ outcomes, (s.loop allRedirects outcomes).1.map (CfTurn.dialled skipTlsVerify timeout) =
          events ∧
        ∀ result, q = .ret result → (s.loop allRedirects outcomes).2 = some result := by
  induction events with
  | nil =>
    intro s allRedirects q hpath
    have hq := hpath.eq_of_nil
    cases hnext : s.nextAttempt with
    | none =>
      rw [connectCfLoop_none (nextDomain_of_nextAttempt_none hnext)] at hq
      refine ⟨[], by rw [CfAttempts.loop_none hnext]; rfl, fun result hresult => ?_⟩
      rw [← hq] at hresult
      cases hresult
      rw [CfAttempts.loop_none hnext]
    | some x =>
      rw [connectCfLoop_some (nextDomain_of_nextAttempt hnext)] at hq
      refine ⟨[], by rw [CfAttempts.loop_nil hnext]; rfl, fun result hresult => ?_⟩
      rw [← hq] at hresult
      cases hresult
  | cons e events ih =>
    intro s allRedirects q hpath
    cases hnext : s.nextAttempt with
    | none =>
      rw [connectCfLoop_none (nextDomain_of_nextAttempt_none hnext)] at hpath
      cases hpath
    | some x =>
      obtain ⟨a, next⟩ := x
      rw [connectCfLoop_some (nextDomain_of_nextAttempt hnext)] at hpath
      obtain h | ⟨(outcome : WsConnectResult), rest, he, hrest⟩ := hpath.act_cases
      · cases h
      cases he
      by_cases hfailed : outcome.stream = none
      · -- the rest of the path is the loop on what the failure left
        have hpath' : Path (connectCfLoop skipTlsVerify timeout
            (afterFailure next allRedirects a.domain outcome).1
            (afterFailure next allRedirects a.domain outcome).2) events q := by
          cases outcome with
          | connected ws => cases hfailed
          | redirect code => exact hrest
          | failed reason => exact hrest
          | connectTimedOut reason => exact hrest
          | timedOut => exact hrest
        obtain ⟨outcomes, hevents, hresult⟩ := ih hpath'
        refine ⟨outcome :: outcomes, ?_, ?_⟩
        · rw [CfAttempts.loop_failed hnext hfailed, List.map_cons, hevents]
          rfl
        · rw [CfAttempts.loop_failed hnext hfailed]
          exact hresult
      · cases outcome with
        | connected ws =>
          cases hrest
          refine ⟨[.connected ws], by rw [CfAttempts.loop_connected hnext]; rfl, ?_⟩
          intro result hresult
          cases hresult
          rw [CfAttempts.loop_connected hnext]
        | redirect code => exact absurd rfl hfailed
        | failed reason => exact absurd rfl hfailed
        | connectTimedOut reason => exact absurd rfl hfailed
        | timedOut => exact absurd rfl hfailed

end Connector

/-! ## Termination -/

/-- **The loop ends.** Every attempt uses up part of the queue, also when it queues a base record,
so the loop returns within as many outcomes as the queue has weight. -/
theorem loop_ends (s : CfAttempts) (allRedirects : Bool) (outcomes : List WsConnectResult)
    (h : s.weight ≤ outcomes.length) : (s.loop allRedirects outcomes).2.isSome = true := by
  fun_induction CfAttempts.loop s allRedirects outcomes with
  | case1 outcomes s allRedirects hnext => rfl
  | case2 s allRedirects x hnext =>
    have hweight := CfAttempts.weight_nextDomain (nextDomain_of_nextAttempt hnext)
    simp only [List.length_nil] at h
    omega
  | case3 s allRedirects a next ws outcomes hnext => rfl
  | case4 s allRedirects a next outcome outcomes hfailed hnext rest ih =>
    have hweight := weight_afterFailure (nextDomain_of_nextAttempt hnext) allRedirects outcome
    refine ih ?_
    simp only [List.length_cons] at h
    omega

/-! ## Own turns and forced attempts -/

/-- An attempt that is a record's own turn. -/
def CfAttempt.own (a : CfAttempt) : Bool := !a.forced

/-- Behind a failure the own turns to come are those that were to come behind the attempt. -/
theorem own_afterFailure (s : CfAttempts) (allRedirects : Bool) (d : Host)
    (outcome : WsConnectResult) :
    (afterFailure s allRedirects d outcome).1.upcoming.filter CfAttempt.own =
      s.upcoming.filter CfAttempt.own := by
  rw [(afterFailure_upcoming s allRedirects d outcome).1, List.filter_append,
    List.filter_eq_nil_iff.mpr, List.nil_append]
  intro a ha
  obtain ⟨base, -, rfl⟩ := List.mem_map.mp ha
  simp [CfAttempt.own]

/-- **Own turns.** A loop that ends without a connection has made all own turns that were to come,
in their order, and no others. -/
theorem loop_own_turns (s : CfAttempts) (allRedirects : Bool) (outcomes : List WsConnectResult)
    (hend : (s.loop allRedirects outcomes).2.isSome = true)
    (hfail : ∀ t ∈ (s.loop allRedirects outcomes).1, t.outcome.stream = none) :
    ((s.loop allRedirects outcomes).1.map CfTurn.attempt).filter CfAttempt.own =
      s.upcoming.filter CfAttempt.own := by
  fun_induction CfAttempts.loop s allRedirects outcomes with
  | case1 outcomes s allRedirects hnext =>
    rw [CfAttempts.upcoming_of_none hnext]
    rfl
  | case2 s allRedirects x hnext => cases hend
  | case3 s allRedirects a next ws outcomes hnext =>
    have hstream := hfail ⟨s, a, .connected ws⟩ (List.mem_singleton_self _)
    cases hstream
  | case4 s allRedirects a next outcome outcomes hfailed hnext rest ih =>
    have hrest := ih hend fun t ht => hfail t (List.mem_cons_of_mem _ ht)
    rw [own_afterFailure] at hrest
    rw [(CfAttempts.upcoming_of_some hnext).1, List.map_cons, List.filter_cons, List.filter_cons,
      hrest]

/-- A forced turn comes right behind the failure of a record missing from DNS, whose base record
it attempts. -/
def FollowsMissing (u t : CfTurn) : Prop :=
  t.attempt.forced = true →
    u.outcome.dnsMissing = true ∧ baseCfRecord u.attempt.domain = some t.attempt.domain

/-- Only the next attempt can be a forced one. -/
def CfAttempts.ForcedFirst (s : CfAttempts) : Prop :=
  ∀ a ∈ s.upcoming.tail, a.forced = false

/-- What a failure forces comes next, before the own turns. -/
theorem forcedFirst_afterFailure {s : CfAttempts} (h : ∀ a ∈ s.upcoming, a.forced = false)
    (allRedirects : Bool) (d : Host) (outcome : WsConnectResult) :
    (afterFailure s allRedirects d outcome).1.ForcedFirst := by
  intro a ha
  rw [(afterFailure_upcoming s allRedirects d outcome).1] at ha
  cases hforces : s.forces d outcome with
  | none =>
    rw [hforces] at ha
    exact h a (List.mem_of_mem_tail ha)
  | some base =>
    rw [hforces] at ha
    exact h a ha

/-- The first turn makes the first upcoming attempt. -/
theorem loop_head {s : CfAttempts} {allRedirects : Bool} {outcomes : List WsConnectResult}
    {t : CfTurn} (h : t ∈ (s.loop allRedirects outcomes).1.head?) :
    s.upcoming.head? = some t.attempt := by
  rcases s.nextAttempt_upcoming with ⟨hnone, -⟩ | ⟨a, next, hsome, hup, -⟩
  · rw [CfAttempts.loop_none hnone] at h
    cases h
  · rw [hup]
    rw [CfAttempts.loop.eq_def, hsome] at h
    cases outcomes with
    | nil => cases h
    | cons outcome outcomes =>
      cases outcome with
      | _ => cases h; rfl

/-- A failed attempt is followed by the base record of a missing record, or by an own turn. -/
theorem followsMissing_next {s : CfAttempts} (h : ∀ a ∈ s.upcoming, a.forced = false)
    {before : CfAttempts} {a : CfAttempt} {outcome : WsConnectResult} {allRedirects : Bool}
    {t : CfTurn}
    (ht : (afterFailure s allRedirects a.domain outcome).1.upcoming.head? = some t.attempt) :
    FollowsMissing ⟨before, a, outcome⟩ t := by
  intro hforced
  rw [(afterFailure_upcoming s allRedirects a.domain outcome).1] at ht
  cases hforces : s.forces a.domain outcome with
  | none =>
    rw [hforces] at ht
    have hown := h t.attempt (List.mem_of_mem_head? ht)
    rw [hforced] at hown
    cases hown
  | some base =>
    rw [hforces] at ht
    have hbase : (⟨base, true⟩ : CfAttempt) = t.attempt := Option.some.inj ht
    rw [CfAttempts.forces] at hforces
    split_ifs at hforces with hmissing
    refine ⟨hmissing, ?_⟩
    rw [← hbase]
    exact (Option.filter_eq_some_iff.mp hforces).1

/-- **Forced attempts.** Each one comes right behind the failure that it is derived from. -/
theorem loop_forced_follow (s : CfAttempts) (allRedirects : Bool)
    (outcomes : List WsConnectResult) (hs : s.ForcedFirst) :
    (s.loop allRedirects outcomes).1.IsChain FollowsMissing := by
  fun_induction CfAttempts.loop s allRedirects outcomes with
  | case1 outcomes s allRedirects hnext => exact .nil
  | case2 s allRedirects x hnext => exact .nil
  | case3 s allRedirects a next ws outcomes hnext => exact .singleton _
  | case4 s allRedirects a next outcome outcomes hfailed hnext rest ih =>
    have hown : ∀ a ∈ next.upcoming, a.forced = false := by
      intro b hb
      exact hs b (by rw [(CfAttempts.upcoming_of_some hnext).1]; exact hb)
    refine List.isChain_cons.mpr ⟨fun t ht => ?_, ih (forcedFirst_afterFailure hown _ _ _)⟩
    exact followsMissing_next hown (loop_head ht)

/-- **The Cloudflare attempt loop terminates and covers the list.** For every list of hostnames
there is a number of outcomes within which the loop returns, whatever they are. If no attempt
connects, every distinct hostname has had its own turn exactly once, in the order of first
occurrence. Forced attempts come right behind the failure they are derived from, and never
first.

**Proof sketch.** A base record is shorter than the record it is derived from, so every turn uses
up part of the letters in the queue (`loop_ends`). Forcing an attempt leaves the own turns to come
as they are (`own_afterFailure`), and it puts the attempt in front of them
(`forcedFirst_afterFailure`). -/
theorem cfLoop_covers (domains : List Host) :
    (∃ bound, ∀ outcomes : List WsConnectResult, bound ≤ outcomes.length →
      ((CfAttempts.new domains).loop true outcomes).2.isSome = true) ∧
    ∀ outcomes : List WsConnectResult,
      let out := (CfAttempts.new domains).loop true outcomes
      (out.2.isSome = true → (∀ t ∈ out.1, t.outcome.stream = none) →
        ((out.1.map CfTurn.attempt).filter CfAttempt.own).map CfAttempt.domain =
          domains.eraseDups) ∧
      (∀ t ∈ out.1.head?, t.attempt.forced = false) ∧ out.1.IsChain FollowsMissing := by
  have hnew := @CfAttempts.own_of_mem_upcoming_new domains
  refine ⟨⟨(CfAttempts.new domains).weight, fun outcomes h => loop_ends _ _ _ h⟩, ?_⟩
  intro outcomes out
  refine ⟨fun hend hfail => ?_, fun t ht => ?_, ?_⟩
  · rw [loop_own_turns _ _ _ hend hfail, List.filter_eq_self.mpr, CfAttempts.upcoming_new]
    · rw [List.map_map]
      exact List.map_id _
    · intro a ha
      simp [CfAttempt.own, hnew a ha]
  · exact hnew t.attempt (List.mem_of_mem_head? (loop_head ht))
  · exact loop_forced_follow _ _ _ fun a ha => hnew a (List.mem_of_mem_tail ha)

end TgWsProxy
