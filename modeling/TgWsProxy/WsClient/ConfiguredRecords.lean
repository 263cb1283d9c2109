import TgWsProxy.WsClient.Connect

set_option relaxedAutoImplicit false
set_option autoImplicit false

/-!
# Which records the Cloudflare connect loop dials

The loop dials the records of the configured zones, and the base records that missing `-1` records
fall back to. The base record is found by replacing the first `-1.` of the name, so for a zone that
itself contains `-1.` the base record of the base record is outside the zone.

## Main definitions

* `TgWsProxy.BaseClosed` — every configured zone with a `-1.` has its replacement configured.
* `TgWsProxy.DialsOnly` — all dials on all paths of a program go to hosts of a list.

## Main results

* `TgWsProxy.connectCfLoop_safe` — the loop stays inside every set of hosts that is closed under
  the replacement.
* `TgWsProxy.exists_path_dial_base` — a missing record is followed by its replacement.
* `TgWsProxy.connectCfWsForDc_dialsOnly_iff` — the loop dials configured records only, exactly
  when the zones are closed under the replacement.
-/

namespace TgWsProxy

open Process

/-- Every configured zone that contains `-1.` has the zone with the first `-1.` replaced by `.`
configured too. -/
def BaseClosed (cfDomains : List Host) : Prop :=
  ∀ d ∈ cfDomains, ∀ base, baseCfRecord d = some base → base ∈ cfDomains

/-- Every dial on every path of the program goes to a host of the list. -/
def DialsOnly {α : Type} (p : Action α) (hosts : List Host) : Prop :=
  ∀ events q, Path p events q → ∀ e ∈ events, ∀ request, e.op = .dial request →
    request.host ∈ hosts

/-! ## The loop inside a closed set of hosts -/

/-- Everything queued is in `D`. -/
def CfAttempts.Within (D : Host → Prop) (attempts : CfAttempts) : Prop :=
  ∀ a ∈ attempts.queue, D a.domain

/-- The record handed out comes from the queue. -/
theorem CfAttempts.Within.nextDomain {D : Host → Prop} {attempts next : CfAttempts}
    {domain : Host} (hin : attempts.Within D) (h : attempts.nextDomain = some (domain, next)) :
    D domain ∧ next.Within D := by
  have key : ∀ (queue : List CfAttempt) (tried : List Host), (∀ a ∈ queue, D a.domain) →
      nextIn attempts.timedOut queue tried = some (domain, next) → D domain ∧ next.Within D := by
    intro queue
    induction queue with
    | nil => intro tried _ h; simp [nextIn] at h
    | cons a queue ih =>
      intro tried hin h
      have hrest : ∀ b ∈ queue, D b.domain := fun b hb => hin b (by simp [hb])
      simp only [nextIn] at h
      split_ifs at h
      · cases h
        exact ⟨hin a (by simp), hrest⟩
      · exact ih tried hrest h
      · cases h
        exact ⟨hin a (by simp), hrest⟩
  exact key attempts.queue attempts.tried hin h

/-- What a failed attempt queues stays in `D`. -/
theorem CfAttempts.Within.afterFailure {D : Host → Prop}
    (hclosed : ∀ h, D h → ∀ base, baseCfRecord h = some base → D base) {attempts : CfAttempts}
    (hin : attempts.Within D) {domain : Host} (hdomain : D domain) (allRedirects : Bool)
    (outcome : WsConnectResult) :
    (afterFailure attempts allRedirects domain outcome).1.Within D := by
  cases outcome with
  | failed reason =>
    simp only [TgWsProxy.afterFailure]
    split_ifs
    · split
      · rename_i retried hretry
        unfold CfAttempts.retryBaseOf at hretry
        split at hretry
        · cases hretry
        · rename_i base hbase
          split_ifs at hretry
          cases hretry
          intro a ha
          rcases List.mem_cons.mp ha with rfl | ha
          · exact hclosed domain hdomain base hbase
          · exact hin a ha
      · exact hin
    · exact hin
  | connected ws => exact hin
  | redirect code => exact hin
  | connectTimedOut reason => exact hin
  | timedOut => exact hin

/-- **The loop inside a closed set.** If the queue lies in a set of hosts that is closed under the
replacement of `-1.`, every dial goes to it, and so does the record that answered.

**Proof sketch.** Induction on the weight of the queue: the record handed out is in the set, and
what its failure queues is its replacement. -/
theorem connectCfLoop_safe {D : Host → Prop}
    (hclosed : ∀ h, D h → ∀ base, baseCfRecord h = some base → D base)
    {guar : Op → Prop} {rely : (op : Op) → op.Resp → Prop} {skipTlsVerify : Bool} {timeout : ℕ}
    (hdial : ∀ d, D d → guar (.dial (apiwsRequest d d skipTlsVerify timeout none))) :
    ∀ (n : ℕ) (attempts : CfAttempts) (allRedirects : Bool), attempts.weight ≤ n →
      attempts.Within D →
      Safe guar rely (fun out => ∀ d, out.2.1 = some d → D d)
        (connectCfLoop skipTlsVerify timeout attempts allRedirects) := by
  intro n
  induction n with
  | zero =>
    intro attempts allRedirects hw hin
    cases hnext : attempts.nextDomain with
    | none =>
      rw [connectCfLoop_none hnext]
      simp
    | some x =>
      have := CfAttempts.weight_nextDomain hnext
      omega
  | succ n ih =>
    intro attempts allRedirects hw hin
    cases hnext : attempts.nextDomain with
    | none =>
      rw [connectCfLoop_none hnext]
      simp
    | some x =>
      obtain ⟨domain, next⟩ := x
      obtain ⟨hdomain, hrest⟩ := hin.nextDomain hnext
      rw [connectCfLoop_some hnext]
      refine ⟨hdial domain hdomain, fun outcome _ => ?_⟩
      have hgo := ih (afterFailure next allRedirects domain outcome).1
        (afterFailure next allRedirects domain outcome).2
        (by have := weight_afterFailure hnext allRedirects outcome; omega)
        (hrest.afterFailure hclosed hdomain allRedirects outcome)
      cases outcome with
      | connected ws =>
        rw [safe_ret]
        intro d hd
        cases hd
        exact hdomain
      | redirect code => exact hgo
      | failed reason => exact hgo
      | connectTimedOut reason => exact hgo
      | timedOut => exact hgo

/-- The records of closed zones are closed. -/
theorem BaseClosed.records {cfDomains : List Host} (h : BaseClosed cfDomains) (dc : ℕ)
    (isMedia : Bool) :
    ∀ r, r ∈ cfWsDomains dc cfDomains isMedia → ∀ base, baseCfRecord r = some base →
      base ∈ cfWsDomains dc cfDomains isMedia := by
  intro r hr base hbase
  obtain ⟨d, hd, rfl | rfl⟩ := mem_cfWsDomains.mp hr
  · rw [baseCfRecord_base] at hbase
    obtain ⟨zone, hzone, rfl⟩ := Option.map_eq_some_iff.mp hbase
    exact baseRecord_mem_cfWsDomains.mpr (h d hd zone hzone)
  · rw [baseCfRecord_dashOne] at hbase
    cases hbase
    exact baseRecord_mem_cfWsDomains.mpr hd

/-- The whole connector, on zones that are closed under the replacement. -/
theorem connectCfWsForDc_safe {dc : ℕ} {cfDomains : List Host} {isMedia : Bool}
    (h : BaseClosed cfDomains) {guar : Op → Prop} {rely : (op : Op) → op.Resp → Prop}
    {skipTlsVerify : Bool} {timeout : ℕ}
    (hdial : ∀ d ∈ cfWsDomains dc cfDomains isMedia,
      guar (.dial (apiwsRequest d d skipTlsVerify timeout none))) :
    Safe guar rely (fun out => ∀ d, out.2.1 = some d → d ∈ cfWsDomains dc cfDomains isMedia)
      (connectCfWsForDc dc cfDomains isMedia skipTlsVerify timeout) := by
  refine connectCfLoop_safe (h.records dc isMedia) hdial _ _ _ le_rfl ?_
  intro a ha
  obtain ⟨d, hd, rfl⟩ := List.mem_map.mp ha
  exact hd

/-- The connector only dials. -/
theorem connectCfWsForDc_safe_dials (dc : ℕ) (cfDomains : List Host) (isMedia : Bool)
    {guar : Op → Prop} {rely : (op : Op) → op.Resp → Prop} (skipTlsVerify : Bool) (timeout : ℕ)
    (hdial : ∀ d, guar (.dial (apiwsRequest d d skipTlsVerify timeout none))) :
    Safe guar rely (fun _ => True)
      (connectCfWsForDc dc cfDomains isMedia skipTlsVerify timeout) := by
  have hall : Safe guar rely (fun out => ∀ d, out.2.1 = some d → True)
      (connectCfWsForDc dc cfDomains isMedia skipTlsVerify timeout) :=
    connectCfLoop_safe (fun _ _ _ _ => trivial) (fun d _ => hdial d) _ _ _ le_rfl
      fun _ _ => trivial
  exact hall.mono fun _ _ => trivial

/-! ## A path that leaves the zone -/

/-- What a resolver reports for a missing record. -/
def lookupFailure : Host := "TCP connect: failed to lookup address information".toList

theorem isDnsNotFound_lookupFailure : isDnsNotFound lookupFailure = true := by decide

/-- A queued record that has not been tried is handed out, or stays queued behind another. -/
theorem CfAttempts.nextDomain_of_mem {x : Host} {attempts : CfAttempts}
    (hx : ⟨x, false⟩ ∈ attempts.queue) (htried : x ∉ attempts.tried) :
    ∃ d next, attempts.nextDomain = some (d, next) ∧ next.timedOut = attempts.timedOut ∧
      (d = x ∨ (⟨x, false⟩ ∈ next.queue ∧ x ∉ next.tried)) := by
  have key : ∀ (queue : List CfAttempt) (tried : List Host), ⟨x, false⟩ ∈ queue → x ∉ tried →
      ∃ d next, nextIn attempts.timedOut queue tried = some (d, next) ∧
        next.timedOut = attempts.timedOut ∧
        (d = x ∨ (⟨x, false⟩ ∈ next.queue ∧ x ∉ next.tried)) := by
    intro queue
    induction queue with
    | nil => intro tried hx; simp at hx
    | cons a queue ih =>
      intro tried hx htried
      simp only [nextIn]
      split_ifs with hforced hmem
      · rcases List.mem_cons.mp hx with rfl | hx
        · exact ⟨_, _, rfl, rfl, .inl rfl⟩
        · exact ⟨_, _, rfl, rfl, .inr ⟨hx, htried⟩⟩
      · rcases List.mem_cons.mp hx with rfl | hx
        · exact absurd hmem htried
        · exact ih tried hx htried
      · rcases List.mem_cons.mp hx with rfl | hx
        · exact ⟨_, _, rfl, rfl, .inl rfl⟩
        · by_cases hax : a.domain = x
          · exact ⟨_, _, rfl, rfl, .inl hax⟩
          · refine ⟨_, _, rfl, rfl, .inr ⟨hx, ?_⟩⟩
            simp only [List.mem_cons, not_or]
            exact ⟨fun h => hax h.symm, htried⟩
  exact key attempts.queue attempts.tried hx htried

/-- **A missing record is followed by its replacement.** Some path of the loop dials the
replacement of a queued record: the records before it redirect, and it is missing from DNS.

**Proof sketch.** Induction on the weight of the queue. A redirect only takes the record off the
queue; a lookup failure puts the replacement in front, where it is dialled next. -/
theorem exists_path_dial_base {skipTlsVerify : Bool} {timeout : ℕ} {x base : Host}
    (hbase : baseCfRecord x = some base) :
    ∀ (n : ℕ) (attempts : CfAttempts) (allRedirects : Bool), attempts.weight ≤ n →
      ⟨x, false⟩ ∈ attempts.queue → x ∉ attempts.tried → attempts.timedOut = [] →
      ∃ events q, Path (connectCfLoop skipTlsVerify timeout attempts allRedirects) events q ∧
        ∃ e ∈ events, e.op = .dial (apiwsRequest base base skipTlsVerify timeout none) := by
  intro n
  induction n with
  | zero =>
    intro attempts allRedirects hw hx htried _
    obtain ⟨d, next, hnext, -, -⟩ := CfAttempts.nextDomain_of_mem hx htried
    have := CfAttempts.weight_nextDomain hnext
    omega
  | succ n ih =>
    intro attempts allRedirects hw hx htried htimed
    obtain ⟨d, next, hnext, hnextTimed, rfl | ⟨hq, ht⟩⟩ :=
      CfAttempts.nextDomain_of_mem hx htried
    · -- the record itself: a lookup failure, then whatever answers the replacement
      have hretry : next.retryBaseOf d =
          some { next with queue := ⟨base, true⟩ :: next.queue } := by
        simp [CfAttempts.retryBaseOf, hbase, hnextTimed, htimed]
      have hafter : afterFailure next allRedirects d (.failed lookupFailure) =
          ({ next with queue := ⟨base, true⟩ :: next.queue }, allRedirects) := by
        simp [afterFailure, isDnsNotFound_lookupFailure, hretry]
      have hnext₂ : CfAttempts.nextDomain
          { next with queue := ⟨base, true⟩ :: next.queue } = some (base, next) := rfl
      have hpath : Path (connectCfLoop skipTlsVerify timeout
          (afterFailure next allRedirects d (.failed lookupFailure)).1
          (afterFailure next allRedirects d (.failed lookupFailure)).2)
          [⟨.dial (apiwsRequest base base skipTlsVerify timeout none), .timedOut⟩]
          (connectCfLoop skipTlsVerify timeout (afterFailure next allRedirects base .timedOut).1
            (afterFailure next allRedirects base .timedOut).2) := by
        rw [hafter, connectCfLoop_some hnext₂]
        exact .step (.here _)
      rw [connectCfLoop_some hnext]
      exact ⟨⟨.dial (apiwsRequest d d skipTlsVerify timeout none), .failed lookupFailure⟩ :: _, _,
        .step hpath, _, List.mem_cons_of_mem _ (List.mem_singleton_self _), rfl⟩
    · obtain ⟨events, q, hpath, e, he, hop⟩ := ih next allRedirects
        (by have := CfAttempts.weight_nextDomain hnext; omega) hq ht (hnextTimed.trans htimed)
      rw [connectCfLoop_some hnext]
      exact ⟨⟨.dial (apiwsRequest d d skipTlsVerify timeout none), .redirect 302⟩ :: events, q,
        .step hpath, e, List.mem_cons_of_mem _ he, hop⟩

/-- **Which records are dialled.** For every DC, list of zones and media flag: every hostname the
loop dials, whatever the outcomes of the attempts, is a configured record, if and only if every
configured zone that contains `-1.` has its replacement configured.

**Proof sketch.** Closed zones have closed records, and the loop stays inside
(`connectCfWsForDc_safe`). Conversely the replacement of a zone's base record is dialled on some
path (`exists_path_dial_base`), so it has to be configured. -/
theorem connectCfWsForDc_dialsOnly_iff (dc : ℕ) (cfDomains : List Host) (isMedia : Bool)
    (skipTlsVerify : Bool) (timeout : ℕ) :
    DialsOnly (connectCfWsForDc dc cfDomains isMedia skipTlsVerify timeout)
        (cfWsDomains dc cfDomains isMedia) ↔ BaseClosed cfDomains := by
  constructor
  · intro h d hd base hbase
    have hrecord : baseCfRecord (baseRecord dc d) = some (baseRecord dc base) := by
      rw [baseCfRecord_base, hbase]
      rfl
    obtain ⟨events, q, hpath, e, he, hop⟩ := exists_path_dial_base hrecord _
      (CfAttempts.new (cfWsDomains dc cfDomains isMedia)) true le_rfl
      (List.mem_map.mpr ⟨_, baseRecord_mem_cfWsDomains.mpr hd, rfl⟩) (by simp [CfAttempts.new])
      rfl
    exact baseRecord_mem_cfWsDomains.mp (h events q hpath e he _ hop)
  · intro h events q hpath e he request hop
    have hsafe : Safe (fun op => ∀ request, op = .dial request →
        request.host ∈ cfWsDomains dc cfDomains isMedia) (fun _ _ => True) _
        (connectCfWsForDc dc cfDomains isMedia skipTlsVerify timeout) :=
      connectCfWsForDc_safe h (by rintro d hd request ⟨⟩; exact hd)
    exact (hsafe.path hpath fun _ _ => trivial).1 e he request hop

/-- With the one zone `node-1.example.net` a lookup failure of `kws2.node-1.example.net`, the base
record of DC 2, makes the loop dial `kws2.node.example.net`. -/
theorem dials_unconfigured_record :
    ¬ DialsOnly (connectCfWsForDc 2 ["node-1.example.net".toList] false false 10)
      (cfWsDomains 2 ["node-1.example.net".toList] false) := by
  intro h
  have hbase : baseCfRecord "kws2.node-1.example.net".toList =
      some "kws2.node.example.net".toList := by decide
  obtain ⟨events, q, hpath, e, he, hop⟩ := exists_path_dial_base hbase _
    (CfAttempts.new (cfWsDomains 2 ["node-1.example.net".toList] false)) true le_rfl (by decide)
    (by decide) rfl
  exact absurd (h events q hpath e he _ hop) (by decide)

end TgWsProxy
