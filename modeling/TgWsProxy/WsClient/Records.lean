import Mathlib.Data.List.Basic
import Mathlib.Data.Nat.Digits.Lemmas
import TgWsProxy.Lib.Text

set_option relaxedAutoImplicit false
set_option autoImplicit false

/-!
# Hostnames and the Cloudflare attempt queue of `ws_client.rs`

Telegram's WebSocket hostnames for a DC, the records a Cloudflare zone has for it, and the queue
that decides which record the Cloudflare connect loop tries next.

## Main definitions

* `TgWsProxy.wsDomains`, `cfWsDomains` — the hostnames of a DC, direct and under Cloudflare zones.
* `TgWsProxy.baseCfRecord` — the base record of a `-1` record, by textual replacement.
* `TgWsProxy.CfAttempts` — the attempt queue with `nextDomain`, `noteTimedOut`, `retryBaseOf`.
* `TgWsProxy.CfAttempts.upcoming` — the attempts that the queue will hand out.

## Main results

* `TgWsProxy.baseCfRecord_dashOne`, `baseCfRecord_base` — what the replacement does to the two
  records of a zone.
* `TgWsProxy.mem_cfWsDomains_base` — when a `kws` name under a zone is a configured record.

## Design

Text is a list of characters. A `HashSet` is the list of its elements.
-/

namespace TgWsProxy

open Text

/-- Text: a hostname, an address, a path or an error message. -/
abbrev Host := List Char

/-! ## Hostnames -/

/-- Telegram DC number as printed by `format!`. -/
def showNat (n : ℕ) : Host := Nat.toDigits 10 n

/-- `DC_OVERRIDES`: DC 203 uses the WebSocket hostname of DC 2. -/
def dcOverrides : List (ℕ × ℕ) := [(203, 2)]

/-- `websocket_dc`. -/
def websocketDc (dc : ℕ) : ℕ :=
  ((dcOverrides.find? fun o => o.1 == dc).map Prod.snd).getD dc

/-- `kws{dc}.{zone}`. -/
def baseRecord (dc : ℕ) (zone : Host) : Host :=
  "kws".toList ++ showNat dc ++ ".".toList ++ zone

/-- `kws{dc}-1.{zone}`. -/
def dashOneRecord (dc : ℕ) (zone : Host) : Host :=
  "kws".toList ++ showNat dc ++ "-1.".toList ++ zone

/-- Media DCs prefer the `-1` variant, everything else the base record. -/
def orderedRecords (base dashOne : Host) (isMedia : Bool) : List Host :=
  if isMedia then [dashOne, base] else [base, dashOne]

/-- `ws_domains`. -/
def wsDomains (dc : ℕ) (isMedia : Bool) : List Host :=
  let effectiveDc := websocketDc dc
  orderedRecords (baseRecord effectiveDc "web.telegram.org".toList)
    (dashOneRecord effectiveDc "web.telegram.org".toList) isMedia

/-- `cf_ws_domains`: the records of every configured zone, in order. -/
def cfWsDomains (dc : ℕ) (cfDomains : List Host) (isMedia : Bool) : List Host :=
  cfDomains.flatMap fun d => orderedRecords (baseRecord dc d) (dashOneRecord dc d) isMedia

/-- `base_cf_record`: the first `-1.` replaced by `.`, if there is one. -/
def baseCfRecord (domain : Host) : Option Host :=
  (splitFirst "-1.".toList domain).map fun x => x.1 ++ ".".toList ++ x.2

/-- `is_dns_not_found`: a resolver failure of the TCP connect step, in the words of each libc. -/
def isDnsNotFound (reason : Host) : Bool :=
  "TCP connect:".toList.isPrefixOf reason &&
    (containsPattern reason "failed to lookup address information".toList ||
      containsPattern reason "nodename nor servname provided".toList ||
      containsPattern reason "No such host is known".toList ||
      containsPattern reason "Name or service not known".toList)

/-! ## The attempt queue -/

/-- A queued attempt. -/
structure CfAttempt where
  domain : Host
  /-- Queued by the `-1` fallback: runs even if already tried. -/
  forced : Bool
  deriving DecidableEq

/-- The ordering policy of the Cloudflare connect loop. -/
structure CfAttempts where
  queue : List CfAttempt
  tried : List Host
  /-- Records whose attempt ran out the clock. -/
  timedOut : List Host
  deriving DecidableEq

namespace CfAttempts

def new (domains : List Host) : CfAttempts :=
  ⟨domains.map fun d => ⟨d, false⟩, [], []⟩

/-- The `while let` loop of `next_domain` over the queue, with the records tried so far. -/
def nextIn (timedOut : List Host) : List CfAttempt → List Host → Option (Host × CfAttempts)
  | [], _ => none
  | a :: queue, tried =>
    if a.forced then some (a.domain, ⟨queue, tried, timedOut⟩)
    else if a.domain ∈ tried then nextIn timedOut queue tried
    else some (a.domain, ⟨queue, a.domain :: tried, timedOut⟩)

/-- `next_domain`: the next record to attempt, and the queue behind it. -/
def nextDomain (s : CfAttempts) : Option (Host × CfAttempts) := nextIn s.timedOut s.queue s.tried

/-- `note_timed_out`. -/
def noteTimedOut (s : CfAttempts) (domain : Host) : CfAttempts :=
  { s with timedOut := domain :: s.timedOut }

/-- `retry_base_of`: queue the base record of `domain` in front, if it has one that did not time
out. `none` when nothing was queued. -/
def retryBaseOf (s : CfAttempts) (domain : Host) : Option CfAttempts :=
  match baseCfRecord domain with
  | none => none
  | some base =>
    if base ∈ s.timedOut then none
    else some { s with queue := ⟨base, true⟩ :: s.queue }

/-! ## What the queue hands out -/

/-- The loop of `next_domain`, with the queue entry that is handed out. -/
def nextAttemptIn (timedOut : List Host) :
    List CfAttempt → List Host → Option (CfAttempt × CfAttempts)
  | [], _ => none
  | a :: queue, tried =>
    if a.forced then some (a, ⟨queue, tried, timedOut⟩)
    else if a.domain ∈ tried then nextAttemptIn timedOut queue tried
    else some (a, ⟨queue, a.domain :: tried, timedOut⟩)

/-- `next_domain`, with the queue entry that is handed out. -/
def nextAttempt (s : CfAttempts) : Option (CfAttempt × CfAttempts) :=
  nextAttemptIn s.timedOut s.queue s.tried

/-- The entries of a queue that will be handed out: the forced ones, and the first entry of every
record that has not been tried. -/
def upcomingIn : List CfAttempt → List Host → List CfAttempt
  | [], _ => []
  | a :: queue, tried =>
    if a.forced then a :: upcomingIn queue tried
    else if a.domain ∈ tried then upcomingIn queue tried
    else a :: upcomingIn queue (a.domain :: tried)

/-- The attempts that the queue will hand out. -/
def upcoming (s : CfAttempts) : List CfAttempt := upcomingIn s.queue s.tried

/-! ## Termination -/

/-- The letters that are still queued, with one more for each attempt. -/
def weight (s : CfAttempts) : ℕ := (s.queue.map fun a => a.domain.length + 1).sum

@[simp] theorem weight_noteTimedOut (s : CfAttempts) (domain : Host) :
    (s.noteTimedOut domain).weight = s.weight := rfl

/-- The attempt handed out is off the queue. -/
theorem weight_nextDomain {s s' : CfAttempts} {d : Host} (h : s.nextDomain = some (d, s')) :
    s'.weight + (d.length + 1) ≤ s.weight := by
  have key : ∀ (queue : List CfAttempt) (tried : List Host),
      nextIn s.timedOut queue tried = some (d, s') →
      s'.weight + (d.length + 1) ≤ (queue.map fun a => a.domain.length + 1).sum := by
    intro queue
    induction queue with
    | nil => intro tried h; simp [nextIn] at h
    | cons a queue ih =>
      intro tried h
      simp only [nextIn] at h
      split_ifs at h with hforced htried
      · cases h
        simp [weight]; omega
      · have := ih tried h
        simp only [List.map_cons, List.sum_cons]
        omega
      · cases h
        simp [weight]; omega
  exact key s.queue s.tried h

/-- A base record is shorter than the record it was derived from. -/
theorem length_baseCfRecord {d base : Host} (h : baseCfRecord d = some base) :
    base.length + 2 = d.length := by
  obtain ⟨⟨a, b⟩, hab, rfl⟩ := Option.map_eq_some_iff.mp h
  rw [splitFirst_eq hab]
  simp
  omega

theorem weight_retryBaseOf {s s' : CfAttempts} {d : Host} (h : s.retryBaseOf d = some s') :
    s'.weight + 2 = s.weight + (d.length + 1) := by
  unfold retryBaseOf at h
  split at h
  · cases h
  · rename_i base hbase
    split_ifs at h
    cases h
    have := length_baseCfRecord hbase
    simp [weight]
    omega

end CfAttempts

/-! ## The records of a zone -/

/-- The part of a record before the zone and its separator has no hyphen. -/
theorem hyphen_notMem_kws (dc : ℕ) : '-' ∉ "kws".toList ++ showNat dc := by
  intro h
  rcases List.mem_append.mp h with h | h
  · simp at h
  · have := Nat.isDigit_of_mem_toDigits (by omega) (by omega) h
    simp at this

/-- The search for `-1.` skips a piece without a hyphen. -/
theorem splitFirst_dashOne_append {pre : Host} (hpre : '-' ∉ pre) (s : Host) :
    splitFirst "-1.".toList (pre ++ s) =
      (splitFirst "-1.".toList s).map fun x => (pre ++ x.1, x.2) := by
  have hpat : "-1.".toList = '-' :: ['1', '.'] := rfl
  rw [hpat]
  exact splitFirst_append hpre s

/-- The replacement turns a `-1` record into the base record of its zone. -/
theorem baseCfRecord_dashOne (dc : ℕ) (zone : Host) :
    baseCfRecord (dashOneRecord dc zone) = some (baseRecord dc zone) := by
  have hsplit : splitFirst "-1.".toList (dashOneRecord dc zone) =
      some ("kws".toList ++ showNat dc, zone) := by
    rw [dashOneRecord, List.append_assoc, splitFirst_dashOne_append (hyphen_notMem_kws dc),
      splitFirst_self_append zone (by simp)]
    simp
  rw [baseCfRecord, hsplit]
  rfl

/-- On a base record the replacement acts on the zone. -/
theorem baseCfRecord_base (dc : ℕ) (zone : Host) :
    baseCfRecord (baseRecord dc zone) = (baseCfRecord zone).map (baseRecord dc) := by
  have hno : '-' ∉ "kws".toList ++ showNat dc ++ ".".toList := by
    simpa using hyphen_notMem_kws dc
  rw [baseCfRecord, baseRecord, splitFirst_dashOne_append hno, baseCfRecord]
  cases splitFirst "-1.".toList zone with
  | none => rfl
  | some x => simp only [Option.map_some, baseRecord, List.append_assoc]

/-- The records of the configured zones. -/
theorem mem_cfWsDomains {dc : ℕ} {cfDomains : List Host} {isMedia : Bool} {h : Host} :
    h ∈ cfWsDomains dc cfDomains isMedia ↔
      ∃ d ∈ cfDomains, h = baseRecord dc d ∨ h = dashOneRecord dc d := by
  simp only [cfWsDomains, List.mem_flatMap, orderedRecords]
  refine exists_congr fun d => and_congr_right fun _ => ?_
  cases isMedia
  · simp
  · simp [or_comm]

/-- A base record is configured iff its zone is. -/
theorem baseRecord_mem_cfWsDomains {dc : ℕ} {cfDomains : List Host} {isMedia : Bool}
    {zone : Host} : baseRecord dc zone ∈ cfWsDomains dc cfDomains isMedia ↔ zone ∈ cfDomains := by
  rw [mem_cfWsDomains]
  constructor
  · rintro ⟨d, hd, h | h⟩
    · rw [baseRecord, baseRecord, List.append_cancel_left_eq] at h
      exact h ▸ hd
    · simp [baseRecord, dashOneRecord] at h
  · intro h
    exact ⟨zone, h, .inl rfl⟩

end TgWsProxy
