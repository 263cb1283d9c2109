import Mathlib.Data.List.Perm.Lattice
import TgWsProxy.WsClient.ConfiguredRecords
import TgWsProxy.WsClient.Turns

set_option relaxedAutoImplicit false
set_option autoImplicit false

/-!
# Which records the Cloudflare connect loop tries again

A record can be attempted more than once: its base record is forced whenever it is missing from
DNS. The two orderings of a zone's records, for media and other DCs, get the same attempts as long
as nothing times out. With timeouts they differ: a forced attempt that times out does not use up
the record's own turn.

## Main definitions

* `TgWsProxy.NeverAfterTimeout` — no record is attempted after it has timed out.
* `TgWsProxy.CfTurn.TimesOutEarly` — a forced attempt that times out before the record's own turn.
* `TgWsProxy.retryChain` — a record and the base records forced behind it.

## Main results

* `TgWsProxy.timedOut_not_retried` — a record that timed out is not attempted again, exactly if no
  forced attempt times out before the record's own turn.
* `TgWsProxy.loop_chains` — every own turn is followed by its chain of base records.
* `TgWsProxy.media_same_attempts` — both orderings make the same attempts.
-/

namespace TgWsProxy

open Process

/-! ## Timeouts -/

/-- No record is attempted again after an attempt on it has timed out. -/
def NeverAfterTimeout (turns : List CfTurn) : Prop :=
  turns.Pairwise fun t u => t.outcome.ranOut = true → u.attempt.domain ≠ t.attempt.domain

/-- The record of a turn still has its own turn in the queue. -/
def CfTurn.OwnTurnAhead (t : CfTurn) : Prop :=
  ⟨t.attempt.domain, false⟩ ∈ t.before.queue ∧ t.attempt.domain ∉ t.before.tried

/-- A forced attempt that times out while the record's own turn is still to come. -/
def CfTurn.TimesOutEarly (t : CfTurn) : Prop :=
  t.attempt.forced = true ∧ t.outcome.ranOut = true ∧ t.OwnTurnAhead

instance (t : CfTurn) : Decidable t.TimesOutEarly :=
  inferInstanceAs (Decidable (t.attempt.forced = true ∧ t.outcome.ranOut = true ∧
    ⟨t.attempt.domain, false⟩ ∈ t.before.queue ∧ t.attempt.domain ∉ t.before.tried))

instance (turns : List CfTurn) : Decidable (NeverAfterTimeout turns) :=
  inferInstanceAs (Decidable (turns.Pairwise _))

/-- No upcoming attempt is on a record that has timed out. -/
def CfAttempts.Settled (s : CfAttempts) : Prop := ∀ a ∈ s.upcoming, a.domain ∉ s.timedOut

/-- An own turn is remembered as tried. -/
theorem CfAttempts.tried_of_own {s next : CfAttempts} {a : CfAttempt}
    (h : s.nextAttempt = some (a, next)) (hown : a.forced = false) : a.domain ∈ next.tried := by
  have key : ∀ (queue : List CfAttempt) (tried : List Host),
      nextAttemptIn s.timedOut queue tried = some (a, next) → a.domain ∈ next.tried := by
    intro queue
    induction queue with
    | nil => intro tried h; cases h
    | cons b queue ih =>
      intro tried h
      simp only [nextAttemptIn] at h
      split_ifs at h with hforced htried
      · cases h
        rw [hown] at hforced
        cases hforced
      · exact ih tried h
      · cases h
        exact List.mem_cons_self
  exact key s.queue s.tried h

/-- The record of an attempt comes up again only if the attempt is forced and the record's own turn
is still to come. -/
theorem CfAttempts.again_upcoming {s next : CfAttempts} {a b : CfAttempt}
    (hs : s.ForcedFirst) (h : s.nextAttempt = some (a, next)) (hb : b ∈ next.upcoming)
    (hdomain : b.domain = a.domain) :
    a.forced = true ∧ ⟨a.domain, false⟩ ∈ s.queue ∧ a.domain ∉ s.tried := by
  have hup := (upcoming_of_some h).1
  have hbown : b.forced = false := hs b (by rw [hup]; exact hb)
  have hbeq : b = ⟨a.domain, false⟩ := by
    cases b
    cases hdomain
    cases hbown
    rfl
  rw [hbeq] at hb
  refine ⟨?_, (own_mem_upcoming s a.domain).mp (by rw [hup]; exact List.mem_cons_of_mem _ hb)⟩
  by_contra hforced
  have htried := tried_of_own h (by simpa using hforced)
  exact ((own_mem_upcoming next a.domain).mp hb).2 htried

/-- A failure that is not an early timeout leaves no attempt on a timed out record. -/
theorem settled_afterFailure {s next : CfAttempts} {a : CfAttempt} {outcome : WsConnectResult}
    (hs : s.ForcedFirst) (hsettled : s.Settled) (h : s.nextAttempt = some (a, next))
    (hearly : ¬ CfTurn.TimesOutEarly ⟨s, a, outcome⟩) (allRedirects : Bool) :
    (afterFailure next allRedirects a.domain outcome).1.Settled := by
  obtain ⟨hup, htimed⟩ := CfAttempts.upcoming_of_some h
  obtain ⟨hafter, hclock⟩ := afterFailure_upcoming next allRedirects a.domain outcome
  have hnext : ∀ b ∈ next.upcoming, b.domain ∉ next.timedOut := by
    intro b hb
    rw [htimed]
    exact hsettled b (by rw [hup]; exact List.mem_cons_of_mem _ hb)
  intro b hb
  rw [hafter] at hb
  rw [hclock]
  by_cases hran : outcome.ranOut = true
  · have hforces : next.forces a.domain outcome = none := by
      cases outcome with
      | failed reason => cases hran
      | _ => rfl
    rw [hforces] at hb
    rw [if_pos hran, List.mem_cons, not_or]
    refine ⟨fun hdomain => ?_, hnext b hb⟩
    obtain ⟨hforced, hahead⟩ := CfAttempts.again_upcoming hs h hb hdomain
    exact hearly ⟨hforced, hran, hahead⟩
  · rw [if_neg hran]
    rcases List.mem_append.mp hb with hb | hb
    · obtain ⟨base, hbase, rfl⟩ := List.mem_map.mp hb
      rw [Option.mem_toList, CfAttempts.forces] at hbase
      split_ifs at hbase with hmissing
      simpa using (Option.filter_eq_some_iff.mp hbase).2
    · exact hnext b hb

/-- **Without early timeouts.** The loop attempts no record that had timed out before it, and none
again that times out in it. -/
theorem loop_neverAfterTimeout (s : CfAttempts) (allRedirects : Bool)
    (outcomes : List WsConnectResult) (hs : s.ForcedFirst) (hsettled : s.Settled)
    (hearly : ∀ t ∈ (s.loop allRedirects outcomes).1, ¬ t.TimesOutEarly) :
    NeverAfterTimeout (s.loop allRedirects outcomes).1 ∧
      ∀ t ∈ (s.loop allRedirects outcomes).1, t.attempt.domain ∉ s.timedOut := by
  fun_induction CfAttempts.loop s allRedirects outcomes with
  | case1 outcomes s allRedirects hnext => exact ⟨.nil, by simp⟩
  | case2 s allRedirects x hnext => exact ⟨.nil, by simp⟩
  | case3 s allRedirects a next ws outcomes hnext =>
    refine ⟨List.pairwise_singleton _ _, fun t ht => ?_⟩
    rw [List.mem_singleton.mp ht]
    exact hsettled a (by rw [(CfAttempts.upcoming_of_some hnext).1]; exact List.mem_cons_self)
  | case4 s allRedirects a next outcome outcomes hfailed hnext rest ih =>
    obtain ⟨hup, htimed⟩ := CfAttempts.upcoming_of_some hnext
    have hown : ∀ a ∈ next.upcoming, a.forced = false := by
      intro b hb
      exact hs b (by rw [hup]; exact hb)
    obtain ⟨hpairs, hfresh⟩ := ih (forcedFirst_afterFailure hown allRedirects a.domain outcome)
      (settled_afterFailure hs hsettled hnext (hearly _ List.mem_cons_self) allRedirects)
      fun t ht => hearly t (List.mem_cons_of_mem _ ht)
    rw [(afterFailure_upcoming next allRedirects a.domain outcome).2] at hfresh
    refine ⟨List.pairwise_cons.mpr ⟨fun t ht hran => ?_, hpairs⟩, fun t ht => ?_⟩
    · have hnot := hfresh t ht
      rw [if_pos hran, List.mem_cons, not_or] at hnot
      exact hnot.1
    · rcases List.mem_cons.mp ht with rfl | ht
      · exact hsettled a (by rw [hup]; exact List.mem_cons_self)
      · have hnot := hfresh t ht
        rw [htimed] at hnot
        split_ifs at hnot
        · exact fun hmem => hnot (List.mem_cons_of_mem _ hmem)
        · exact hnot

/-- After an early timeout the record's own turn comes, if nothing connects before. -/
theorem loop_retried (s : CfAttempts) (allRedirects : Bool) (outcomes : List WsConnectResult)
    (hend : (s.loop allRedirects outcomes).2.isSome = true)
    (hfail : ∀ t ∈ (s.loop allRedirects outcomes).1, t.outcome.stream = none) {t : CfTurn}
    (ht : t ∈ (s.loop allRedirects outcomes).1) (hearly : t.TimesOutEarly) :
    ¬ NeverAfterTimeout (s.loop allRedirects outcomes).1 := by
  fun_induction CfAttempts.loop s allRedirects outcomes with
  | case1 outcomes s allRedirects hnext => cases ht
  | case2 s allRedirects x hnext => cases ht
  | case3 s allRedirects a next ws outcomes hnext =>
    cases hfail ⟨s, a, .connected ws⟩ (List.mem_singleton_self _)
  | case4 s allRedirects a next outcome outcomes hfailed hnext rest ih =>
    have hrestFail : ∀ t ∈ rest.1, t.outcome.stream = none :=
      fun t ht => hfail t (List.mem_cons_of_mem _ ht)
    intro hpairs
    obtain ⟨hlater, hrest⟩ := List.pairwise_cons.mp hpairs
    rcases List.mem_cons.mp ht with rfl | ht
    · obtain ⟨hforced, hran, hahead⟩ := hearly
      -- the own turn was to come before the attempt, so it is still to come behind it
      have hown : ⟨a.domain, false⟩ ∈ next.upcoming := by
        have hmem := (CfAttempts.own_mem_upcoming s a.domain).mpr hahead
        rw [(CfAttempts.upcoming_of_some hnext).1] at hmem
        rcases List.mem_cons.mp hmem with hself | hmem
        · rw [← hself] at hforced
          cases hforced
        · exact hmem
      have hturn : ⟨a.domain, false⟩ ∈
          (rest.1.map CfTurn.attempt).filter CfAttempt.own := by
        rw [loop_own_turns _ _ _ hend hrestFail, own_afterFailure]
        exact List.mem_filter.mpr ⟨hown, rfl⟩
      obtain ⟨u, hu, hattempt⟩ := List.mem_map.mp (List.mem_of_mem_filter hturn)
      exact hlater u hu hran (by rw [hattempt])
    · exact ih hend hrestFail ht hrest

/-- **When a record that timed out is attempted again.** For every DC, list of zones, media flag
and sequence of outcomes: if no forced attempt times out while the record's own turn is still to
come, no record is attempted again after it has timed out. In every call that ends without a
connection the condition is also necessary.

**Proof sketch.** Without such an attempt no upcoming attempt is ever on a timed out record
(`settled_afterFailure`): a base record is forced only if it has not timed out, and it comes next.
With one, the own turn stays in the queue and comes (`loop_retried`). -/
theorem timedOut_not_retried (dc : ℕ) (cfDomains : List Host) (isMedia : Bool)
    (outcomes : List WsConnectResult) :
    let out := (CfAttempts.new (cfWsDomains dc cfDomains isMedia)).loop true outcomes
    ((∀ t ∈ out.1, ¬ t.TimesOutEarly) → NeverAfterTimeout out.1) ∧
      (out.2.isSome = true → (∀ t ∈ out.1, t.outcome.stream = none) →
        (NeverAfterTimeout out.1 ↔ ∀ t ∈ out.1, ¬ t.TimesOutEarly)) := by
  intro out
  have hfirst : (CfAttempts.new (cfWsDomains dc cfDomains isMedia)).ForcedFirst :=
    fun a ha => CfAttempts.own_of_mem_upcoming_new a (List.mem_of_mem_tail ha)
  have hsettled : (CfAttempts.new (cfWsDomains dc cfDomains isMedia)).Settled :=
    fun a _ => List.not_mem_nil
  have henough : (∀ t ∈ out.1, ¬ t.TimesOutEarly) → NeverAfterTimeout out.1 :=
    fun hearly => (loop_neverAfterTimeout _ _ _ hfirst hsettled hearly).1
  refine ⟨henough, fun hend hfail => ⟨fun hnot t ht hearly => ?_, henough⟩⟩
  exact loop_retried _ _ _ hend hfail ht hearly hnot

/-- The base record of DC 2 times out in its own turn; the missing `-1` record does not force it. -/
theorem timedOut_not_retried_plainRun :
    NeverAfterTimeout ((CfAttempts.new (cfWsDomains 2 ["example.net".toList] false)).loop true
      [.timedOut, .failed lookupFailure]).1 :=
  (timedOut_not_retried 2 ["example.net".toList] false [.timedOut, .failed lookupFailure]).1
    (by decide)

/-- For media the `-1` record comes first. It is missing, the forced attempt on the base record
times out, and the base record is attempted once more in its own turn. -/
theorem mediaRun_retries :
    ¬ NeverAfterTimeout ((CfAttempts.new (cfWsDomains 2 ["example.net".toList] true)).loop true
      [.failed lookupFailure, .timedOut, .timedOut]).1 := by
  decide

/-! ## Fixed outcomes -/

/-- The loop has returned, and every attempt ended as the assignment says for its hostname. -/
def AnsweredBy (f : Host → WsConnectResult) (out : List CfTurn × Option CfResult) : Prop :=
  out.2.isSome = true ∧ ∀ t ∈ out.1, t.outcome = f t.attempt.domain

/-- A record and the base records that are forced behind it, one missing record after another. -/
def retryChain (f : Host → WsConnectResult) (d : Host) : List Host :=
  match _hbase : (if (f d).dnsMissing then baseCfRecord d else none) with
  | none => [d]
  | some base => d :: retryChain f base
termination_by d.length
decreasing_by
  split_ifs at _hbase
  have hlen := CfAttempts.length_baseCfRecord _hbase
  omega

theorem retryChain_eq (f : Host → WsConnectResult) (d : Host) :
    retryChain f d = d :: ((if (f d).dnsMissing then baseCfRecord d else none).toList.flatMap
      (retryChain f)) := by
  rw [retryChain]
  split
  · rename_i hbase
    rw [hbase]
    rfl
  · rename_i base hbase
    rw [hbase]
    simp

section Fixed

variable {f : Host → WsConnectResult} (hstream : ∀ d, (f d).stream = none)
include hstream

/-- For every assignment without a connection there are outcomes that follow it up to the end of
the loop. -/
theorem exists_answeredBy (n : ℕ) :
    ∀ (s : CfAttempts) (allRedirects : Bool), s.weight ≤ n →
      ∃ outcomes, AnsweredBy f (s.loop allRedirects outcomes) := by
  induction n with
  | zero =>
    intro s allRedirects hweight
    cases hnext : s.nextAttempt with
    | none => exact ⟨[], by rw [CfAttempts.loop_none hnext]; exact ⟨rfl, by simp⟩⟩
    | some x =>
      have := CfAttempts.weight_nextDomain (nextDomain_of_nextAttempt hnext)
      omega
  | succ n ih =>
    intro s allRedirects hweight
    cases hnext : s.nextAttempt with
    | none => exact ⟨[], by rw [CfAttempts.loop_none hnext]; exact ⟨rfl, by simp⟩⟩
    | some x =>
      obtain ⟨a, next⟩ := x
      have hlt := weight_afterFailure (nextDomain_of_nextAttempt hnext) allRedirects (f a.domain)
      obtain ⟨outcomes, hend, hturns⟩ := ih
        (afterFailure next allRedirects a.domain (f a.domain)).1
        (afterFailure next allRedirects a.domain (f a.domain)).2 (by omega)
      refine ⟨f a.domain :: outcomes, ?_⟩
      rw [CfAttempts.loop_failed hnext (hstream a.domain)]
      refine ⟨hend, fun t ht => ?_⟩
      rcases List.mem_cons.mp ht with rfl | ht
      · rfl
      · exact hturns t ht

variable (hclock : ∀ d, (f d).ranOut = false)
include hclock

/-- **The attempts under fixed outcomes.** Each upcoming attempt is made, followed by the chain of
base records that it forces. -/
theorem loop_chains (s : CfAttempts) (allRedirects : Bool) (outcomes : List WsConnectResult)
    (htimed : s.timedOut = []) (hanswered : AnsweredBy f (s.loop allRedirects outcomes)) :
    (s.loop allRedirects outcomes).1.map (fun t => t.attempt.domain) =
      s.upcoming.flatMap fun a => retryChain f a.domain := by
  fun_induction CfAttempts.loop s allRedirects outcomes with
  | case1 outcomes s allRedirects hnext =>
    rw [CfAttempts.upcoming_of_none hnext]
    rfl
  | case2 s allRedirects x hnext => cases hanswered.1
  | case3 s allRedirects a next ws outcomes hnext =>
    have houtcome := hanswered.2 ⟨s, a, .connected ws⟩ (List.mem_singleton_self _)
    have hnone := hstream a.domain
    rw [← houtcome] at hnone
    cases hnone
  | case4 s allRedirects a next outcome outcomes hfailed hnext rest ih =>
    obtain rfl : outcome = f a.domain := hanswered.2 _ List.mem_cons_self
    obtain ⟨hup, hnextTimed⟩ := CfAttempts.upcoming_of_some hnext
    obtain ⟨hafter, hafterTimed⟩ := afterFailure_upcoming next allRedirects a.domain (f a.domain)
    rw [hclock, hnextTimed, htimed] at hafterTimed
    have hforces : next.forces a.domain (f a.domain) =
        if (f a.domain).dnsMissing then baseCfRecord a.domain else none := by
      rw [CfAttempts.forces, hnextTimed, htimed]
      cases baseCfRecord a.domain with
      | none => rfl
      | some base => rfl
    have hrest := ih hafterTimed
      ⟨hanswered.1, fun t ht => hanswered.2 t (List.mem_cons_of_mem _ ht)⟩
    rw [hup, List.flatMap_cons, retryChain_eq, List.map_cons, hrest, hafter, hforces,
      List.flatMap_append, List.flatMap_map]
    rfl

end Fixed

theorem nodup_eraseDups {α : Type} [BEq α] [LawfulBEq α] (n : ℕ) :
    ∀ l : List α, l.length ≤ n → l.eraseDups.Nodup := by
  induction n with
  | zero =>
    intro l hl
    rw [List.length_eq_zero_iff.mp (Nat.le_zero.mp hl)]
    exact List.nodup_nil
  | succ n ih =>
    intro l hl
    cases l with
    | nil => exact List.nodup_nil
    | cons a l =>
      have hlen := List.length_filter_le (fun b => !b == a) l
      rw [List.length_cons] at hl
      rw [List.eraseDups_cons, List.nodup_cons]
      exact ⟨fun hmem => by simp [List.mem_eraseDups] at hmem, ih _ (by omega)⟩

/-- Both orderings have the same distinct records. -/
theorem eraseDups_cfWsDomains_perm (dc : ℕ) (cfDomains : List Host) :
    (cfWsDomains dc cfDomains true).eraseDups.Perm (cfWsDomains dc cfDomains false).eraseDups := by
  have hnodup : ∀ l : List Host, l.eraseDups.Nodup := fun l => nodup_eraseDups l.length l le_rfl
  refine (List.perm_ext_iff_of_nodup (hnodup _) (hnodup _)).mpr fun d => ?_
  rw [List.mem_eraseDups, List.mem_eraseDups, mem_cfWsDomains, mem_cfWsDomains]

/-- **Media and other DCs get the same attempts.** For every DC, list of zones and assignment of a
redirect or a failure to each hostname: the loop returns under either ordering, and the hostnames
attempted are the same up to their order.

**Proof sketch.** Each distinct record is attempted in its own turn, followed by the chain of base
records it forces (`loop_chains`), which depends on the assignment only. -/
theorem media_same_attempts (dc : ℕ) (cfDomains : List Host) (f : Host → WsConnectResult)
    (hf : ∀ d, (∃ code, f d = .redirect code) ∨ ∃ reason, f d = .failed reason) :
    (∀ isMedia, ∃ outcomes, AnsweredBy f
      ((CfAttempts.new (cfWsDomains dc cfDomains isMedia)).loop true outcomes)) ∧
    ∀ forMedia forOthers,
      AnsweredBy f ((CfAttempts.new (cfWsDomains dc cfDomains true)).loop true forMedia) →
      AnsweredBy f ((CfAttempts.new (cfWsDomains dc cfDomains false)).loop true forOthers) →
      (((CfAttempts.new (cfWsDomains dc cfDomains true)).loop true forMedia).1.map
        fun t => t.attempt.domain).Perm
        (((CfAttempts.new (cfWsDomains dc cfDomains false)).loop true forOthers).1.map
          fun t => t.attempt.domain) := by
  have hstream : ∀ d, (f d).stream = none := by
    intro d
    rcases hf d with ⟨code, h⟩ | ⟨reason, h⟩
    · rw [h]
      rfl
    · rw [h]
      rfl
  have hclock : ∀ d, (f d).ranOut = false := by
    intro d
    rcases hf d with ⟨code, h⟩ | ⟨reason, h⟩
    · rw [h]
      rfl
    · rw [h]
      rfl
  refine ⟨fun isMedia => exists_answeredBy hstream _ _ true le_rfl, ?_⟩
  intro forMedia forOthers hmedia hothers
  rw [loop_chains hstream hclock _ _ _ rfl hmedia, loop_chains hstream hclock _ _ _ rfl hothers,
    CfAttempts.upcoming_new, CfAttempts.upcoming_new, List.flatMap_map, List.flatMap_map]
  exact (eraseDups_cfWsDomains_perm dc cfDomains).flatMap_right _

/-- A zone without `-1` records, whose base records redirect. -/
def noDashOne (d : Host) : WsConnectResult :=
  if (baseCfRecord d).isSome then .failed lookupFailure else .redirect 302

/-- Both orderings attempt the base record twice. -/
theorem media_same_attempts_noDashOne :
    (((CfAttempts.new (cfWsDomains 2 ["example.net".toList] true)).loop true
        [.failed lookupFailure, .redirect 302, .redirect 302]).1.map
      fun t => t.attempt.domain).Perm
      (((CfAttempts.new (cfWsDomains 2 ["example.net".toList] false)).loop true
          [.redirect 302, .failed lookupFailure, .redirect 302]).1.map
        fun t => t.attempt.domain) := by
  have hf : ∀ d, (∃ code, noDashOne d = .redirect code) ∨
      ∃ reason, noDashOne d = .failed reason := by
    intro d
    rw [noDashOne]
    split_ifs
    · exact .inr ⟨_, rfl⟩
    · exact .inl ⟨_, rfl⟩
  refine (media_same_attempts 2 ["example.net".toList] noDashOne hf).2 _ _ ⟨rfl, ?_⟩ ⟨rfl, ?_⟩
  · decide
  · decide

end TgWsProxy
