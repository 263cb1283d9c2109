import TgWsProxy.Pool.Basic
import TgWsProxy.WsClient.Attempts

set_option relaxedAutoImplicit false
set_option autoImplicit false

/-!
# How far a task of the pool is

A refill registers its key, measures the bucket, opens at most what is missing, pushes what it
opened and gives the key back; a warm-up opens and pushes one bucket after the other. What such a
task may do next is determined by its own history.

## Main definitions

* `TgWsProxy.Progress`, `progress` — what the history of a task says about its progress.
* `TgWsProxy.RefillGuar`, `WarmupGuar`, `CfRefillGuar` — what the tasks of the pool guarantee.

## Main results

* `TgWsProxy.refill_obeys`, `warmup_obeys`, `cfRefill_obeys` — they do, on every path.
-/

namespace TgWsProxy

open Process

/-! ## Progress -/

/-- The progress of a task of the pool. -/
structure Progress where
  /-- It holds its key. -/
  registered : Bool
  /-- The length of the bucket that the batch was computed from, until the batch is pushed. -/
  measured : Option ℕ
  /-- Connections that are opened and neither pushed nor dropped. -/
  conns : List Stream
  /-- The buckets that a warm-up has filled. -/
  filled : ℕ

/-- A task that has not begun. -/
def Progress.start : Progress := ⟨false, none, [], 0⟩

/-- The progress that an operation means. -/
def Progress.after (p : Progress) : Event Op Op.Resp → Progress
  | ⟨.refillRegister _, won⟩ => { p with registered := won }
  | ⟨.cfRegister _, won⟩ => { p with registered := won }
  | ⟨.bucketLen _, current⟩ => { p with measured := some current }
  | ⟨.cfLen _, current⟩ => { p with measured := some current }
  | ⟨.dial _, .connected ws⟩ => { p with conns := p.conns ++ [ws] }
  | ⟨.refillPush .., _⟩ => { p with measured := none, conns := [] }
  | ⟨.cfPush .., _⟩ => { p with measured := none, conns := [] }
  | ⟨.warmupPush .., _⟩ => { p with conns := [], filled := p.filled + 1 }
  | ⟨.refillRelease _, _⟩ => { p with registered := false, measured := none }
  | ⟨.cfRelease _, _⟩ => { p with registered := false, measured := none }
  | _ => p

/-- The progress of a task, by its history. -/
def progress (history : History) : Progress := history.foldl Progress.after .start

@[simp] theorem progress_nil : progress [] = .start := rfl

@[simp] theorem progress_snoc (history : History) (e : Event Op Op.Resp) :
    progress (history ++ [e]) = (progress history).after e := by
  rw [progress, List.foldl_append]
  rfl

/-- The batch that a refill may open: what was missing when it measured. -/
def Progress.budget (p : Progress) (capacity : ℕ) : ℕ :=
  (p.measured.map fun current => capacity - current).getD 0

/-- A dial that failed is no progress. -/
theorem progress_failedDials {ip : Host} {skipTlsVerify : Bool} {timeout : ℕ}
    {sniOverride : Option Host} (history : History) {dials : History}
    (h : ∀ e ∈ dials, FailedDial ip skipTlsVerify timeout sniOverride e) :
    progress (history ++ dials) = progress history := by
  induction dials using List.reverseRecOn with
  | nil => simp
  | append_singleton dials e ih =>
    rw [← List.append_assoc, progress_snoc, ih fun e he => h e (by simp [he])]
    obtain ⟨domain, outcome, rfl, hfailed⟩ := h e (by simp)
    cases outcome with
    | connected ws => cases hfailed
    | _ => rfl

/-- The stream of an attempt, if there is one, is opened. -/
theorem progress_attempt {ip : Host} {skipTlsVerify : Bool} {timeout : ℕ}
    {sniOverride : Option Host} (history : History) {dials : History} {attempt : WsAttempt}
    (h : AttemptEnds ip skipTlsVerify timeout sniOverride dials attempt) :
    progress (history ++ dials) =
      { progress history with conns := (progress history).conns ++ attempt.ws.toList } := by
  cases h with
  | failed _ hdials hws _ =>
    rw [progress_failedDials history hdials, hws, Option.toList_none, List.append_nil]
  | connected domain ws hdials =>
    rw [← List.append_assoc, progress_snoc, progress_failedDials history hdials]
    rfl

/-! ## Batches -/

section Batch

variable {cfg : Config} {guar : History → Op → Prop}

/-- **A batch.** It opens at most `count` connections on top of `results`, which were opened
before it. -/
theorem batchLoop_obeys {connect : Action WsAttempt} {limit : ℕ} {begun : Progress}
    (hconnect : ∀ history, (∃ conns, progress history = { begun with conns }) →
      (progress history).conns.length < limit →
      Obeys guar (fun history' attempt => progress history' =
        { progress history with conns := (progress history).conns ++ attempt.ws.toList })
        history connect) (count : ℕ) :
    ∀ (history : History) (results : List Stream),
      progress history = { begun with conns := results } → results.length + count ≤ limit →
      Obeys guar (fun history' conns => progress history' = { begun with conns := conns } ∧
          conns.length ≤ limit) history
        (WsPool.batchLoop connect count results) := by
  induction count with
  | zero => exact fun history results hresults hlimit => ⟨hresults, hlimit⟩
  | succ count ih =>
    intro history results hresults hlimit
    have hroom : (progress history).conns.length < limit := by
      rw [hresults]
      simp only
      omega
    refine obeys_bind (hconnect history ⟨results, hresults⟩ hroom) fun history' attempt h => ?_
    rw [hresults] at h
    cases hws : attempt.ws with
    | some ws =>
      rw [hws] at h
      refine ih history' (results ++ [ws]) h ?_
      rw [List.length_append, List.length_singleton]
      omega
    | none =>
      rw [hws, Option.toList_none, List.append_nil] at h
      exact ⟨h, by omega⟩

/-- `connect_batch` opens at most `count` connections, one dial at a time. -/
theorem connectBatch_obeys (args : RefillArgs) {count : ℕ} {begun : Progress} {history : History}
    (hbegun : progress history = begun) (hconns : begun.conns = [])
    (hread : guar history .frontingActive)
    (hdial : ∀ history request conns, progress history = { begun with conns } →
      conns.length < count → request.IsApiws → guar history (.dial request)) :
    Obeys guar (fun history' conns => progress history' = { begun with conns := conns } ∧
        conns.length ≤ count) history (WsPool.connectBatch cfg args count) := by
  refine obeys_op hread fun (active : Bool) => ?_
  refine batchLoop_obeys ?_ count _ [] ?_ (by simp)
  · rintro history' ⟨conns, hprogress⟩ hroom
    refine (connectWsForDc_obeys args.dc args.isMedia ?_).mono ?_
    · intro domain dials hdials
      have hsame := progress_failedDials history' hdials
      refine hdial _ _ conns (hsame.trans hprogress) ?_ ⟨_, _, _, _, _, rfl⟩
      rwa [hprogress] at hroom
    · rintro _ attempt ⟨dials, rfl, hends⟩
      exact progress_attempt history' hends
  · rw [progress_snoc, hbegun]
    change begun = _
    rw [← hconns]

end Batch

/-! ## What the tasks of the pool guarantee -/

/-- A refill registers its own key, measures its bucket once, opens no more than was missing,
pushes what it opened and gives the key back with nothing left open. -/
def RefillGuar (cfg : Config) (args : RefillArgs) (history : History) : Op → Prop
  | .refillRegister key => key = args.key ∧ progress history = .start
  | .bucketLen key => key = args.key ∧ progress history = ⟨true, none, [], 0⟩
  | .frontingActive => (progress history).registered = true ∧ (progress history).conns = []
  | .dial request => (progress history).registered = true ∧ request.IsApiws ∧
      (progress history).conns.length < (progress history).budget cfg.poolSize
  | .refillPush key conns => key = args.key ∧ (progress history).registered = true ∧
      conns = (progress history).conns ∧
      conns.length ≤ (progress history).budget cfg.poolSize
  | .refillRelease key => key = args.key ∧ (progress history).registered = true ∧
      (progress history).conns = []
  | _ => False

/-- The buckets of a warm-up, in the order it fills them. -/
def warmupKeys (dcs : List (ℕ × Host)) : List PoolKey :=
  dcs.flatMap fun d => [(d.1, false), (d.1, true)]

/-- A warm-up opens at most `pool_size` connections for a bucket and pushes them to it. -/
def WarmupGuar (cfg : Config) (dcs : List (ℕ × Host)) (history : History) : Op → Prop
  | .frontingActive => (progress history).conns = []
  | .dial request => request.IsApiws ∧ (progress history).conns.length < cfg.poolSize ∧
      (progress history).filled < (warmupKeys dcs).length
  | .warmupPush key conns => (warmupKeys dcs)[(progress history).filled]? = some key ∧
      conns = (progress history).conns ∧ conns.length ≤ cfg.poolSize
  | _ => False

/-- A request of the connector of a tier, for the DC of a spare. -/
def CfTarget.Requests (target : CfTarget) (request : DialRequest) : Prop :=
  match target.tier with
  | .worker => request.IsWorker target.dc target.isMedia
  | .proxy => request.IsApiws

/-- A Cloudflare refill registers its own key, opens at most one connection and only if the bucket
was below its budget, pushes it and gives the key back. -/
def CfRefillGuar (cfg : Config) (target : CfTarget) (history : History) : Op → Prop
  | .cfRegister key => key = target.key ∧ progress history = .start
  | .cfLen key => key = target.key ∧ progress history = ⟨true, none, [], 0⟩
  | .dial request => (progress history).registered = true ∧ target.Requests request ∧
      (progress history).conns.length < (progress history).budget cfg.cfBudget
  | .cfPush target' ws => target' = target ∧ (progress history).registered = true ∧
      (progress history).conns = [ws] ∧ 0 < (progress history).budget cfg.cfBudget
  | .cfRelease key => key = target.key ∧ (progress history).registered = true ∧
      (progress history).conns = []
  | _ => False

variable {cfg : Config}

/-- A refill has given its key back and left nothing open. -/
def Progress.Released (p : Progress) : Prop :=
  p.registered = false ∧ p.measured = none ∧ p.conns = []

/-- **A refill** guarantees this, and returns with its key given back and nothing open. -/
theorem refill_obeys (args : RefillArgs) :
    Obeys (RefillGuar cfg args) (fun history _ => (progress history).Released) []
      (WsPool.refill cfg args) := by
  refine obeys_op ⟨rfl, rfl⟩ fun (registered : Bool) => ?_
  cases registered with
  | false => exact ⟨rfl, rfl, rfl⟩
  | true =>
    refine obeys_op ⟨rfl, rfl⟩ fun (current : ℕ) => ?_
    set begun : Progress := ⟨true, some current, [], 0⟩ with hbegun
    set history : History := [] ++ [⟨.refillRegister args.key, true⟩] ++
      [⟨.bucketLen args.key, current⟩]
    have hhistory : progress history = begun := rfl
    split_ifs with hfull
    · exact obeys_perform ⟨rfl, rfl, rfl⟩ fun _ => ⟨rfl, rfl, rfl⟩
    · refine obeys_bind (connectBatch_obeys args hhistory rfl ⟨rfl, rfl⟩ ?_) ?_
      · intro history' request conns hprogress hroom hrequest
        rw [RefillGuar, hprogress]
        exact ⟨rfl, hrequest, hroom⟩
      · rintro history' conns ⟨hprogress, hlimit⟩
        rw [WsPool.refillFinish]
        split_ifs with hconns
        · refine obeys_op ?_ fun _ => obeys_perform ?_ fun _ => ?_
          · rw [RefillGuar, hprogress]
            exact ⟨rfl, rfl, rfl, hlimit⟩
          · rw [RefillGuar, progress_snoc, hprogress]
            exact ⟨rfl, rfl, rfl⟩
          · rw [progress_snoc, progress_snoc, hprogress]
            exact ⟨rfl, rfl, rfl⟩
        · rw [not_not] at hconns
          subst hconns
          refine obeys_perform ?_ fun _ => ?_
          · rw [RefillGuar, hprogress]
            exact ⟨rfl, rfl, rfl⟩
          · rw [progress_snoc, hprogress]
            exact ⟨rfl, rfl, rfl⟩

/-- One bucket of a warm-up, with `before` filled and `key` the next. -/
theorem warmupBucket_obeys {dcs : List (ℕ × Host)} {args : RefillArgs} {before : ℕ}
    {history : History} (hhistory : progress history = ⟨false, none, [], before⟩)
    (hkey : (warmupKeys dcs)[before]? = some args.key) :
    Obeys (WarmupGuar cfg dcs)
      (fun history' _ => progress history' = ⟨false, none, [], before + 1⟩) history
      (WsPool.warmupBucket cfg args) := by
  refine obeys_bind (connectBatch_obeys args hhistory rfl ?_ ?_) ?_
  · rw [WarmupGuar, hhistory]
  · intro history' request conns hprogress hroom hrequest
    rw [WarmupGuar, hprogress]
    exact ⟨hrequest, hroom, (List.getElem?_eq_some_iff.mp hkey).1⟩
  · rintro history' conns ⟨hprogress, hlimit⟩
    refine obeys_perform ?_ fun _ => ?_
    · rw [WarmupGuar, hprogress]
      exact ⟨hkey, rfl, hlimit⟩
    · rw [progress_snoc, hprogress]
      rfl

/-- What is left of a warm-up behind the DCs `done`. -/
theorem warmup_obeys_from (dcs : List (ℕ × Host)) :
    ∀ (done : List (ℕ × Host)) (history : History),
      progress history = ⟨false, none, [], (warmupKeys done).length⟩ →
      Obeys (WarmupGuar cfg (done ++ dcs)) (fun history _ => (progress history).conns = [] ∧
        (progress history).filled = (warmupKeys (done ++ dcs)).length) history
        (WsPool.warmup cfg dcs) := by
  induction dcs with
  | nil =>
    intro done history hhistory
    rw [List.append_nil]
    exact ⟨by rw [hhistory], by rw [hhistory]⟩
  | cons d dcs ih =>
    intro done history hhistory
    have hkeys : warmupKeys (done ++ d :: dcs) =
        warmupKeys done ++ (d.1, false) :: (d.1, true) :: warmupKeys dcs := by
      simp [warmupKeys]
    refine obeys_bind (warmupBucket_obeys hhistory ?_) fun history₁ _ h₁ =>
      obeys_bind (warmupBucket_obeys h₁ ?_) fun history₂ _ h₂ => ?_
    · rw [hkeys]
      simp [RefillArgs.key]
    · rw [hkeys, List.getElem?_append_right (by omega)]
      simp [RefillArgs.key]
    · have hlen : (warmupKeys (done ++ [d])).length = (warmupKeys done).length + 1 + 1 := by
        simp [warmupKeys]
      have hrest := ih (done ++ [d]) history₂ (by rw [h₂, hlen])
      rwa [List.append_assoc, List.singleton_append] at hrest

/-- **A warm-up** guarantees this, and returns with every bucket filled. -/
theorem warmup_obeys (dcs : List (ℕ × Host)) :
    Obeys (WarmupGuar cfg dcs) (fun history _ => (progress history).conns = [] ∧
      (progress history).filled = (warmupKeys dcs).length) [] (WsPool.warmup cfg dcs) :=
  warmup_obeys_from dcs [] [] rfl

/-- **A Cloudflare refill** guarantees this, and returns with its key given back and nothing
open. -/
theorem cfRefill_obeys (target : CfTarget) :
    Obeys (CfRefillGuar cfg target) (fun history _ => (progress history).Released) []
      (WsPool.cfRefill cfg target) := by
  refine obeys_op ⟨rfl, rfl⟩ fun (registered : Bool) => ?_
  cases registered with
  | false => exact ⟨rfl, rfl, rfl⟩
  | true =>
    refine obeys_op ⟨rfl, rfl⟩ fun (current : ℕ) => ?_
    set history : History := [] ++ [⟨.cfRegister target.key, true⟩] ++
      [⟨.cfLen target.key, current⟩]
    split_ifs with hfull
    · exact obeys_perform ⟨rfl, rfl, rfl⟩ fun _ => ⟨rfl, rfl, rfl⟩
    · -- one dial, whichever connector the tier has
      have hdial : ∀ request, target.Requests request → CfRefillGuar cfg target history
          (.dial request) := by
        intro request hrequest
        exact ⟨rfl, hrequest, by change 0 < cfg.cfBudget - current; omega⟩
      have hconnect : Obeys (CfRefillGuar cfg target)
          (fun history' answer => progress history' =
            ⟨true, some current, answer.toList, 0⟩) history (WsPool.cfConnectOne target) := by
        rw [WsPool.cfConnectOne]
        cases htier : target.tier with
        | worker =>
          refine obeys_op (hdial _ ?_) fun (outcome : WsConnectResult) => ?_
          · rw [CfTarget.Requests, htier]
            exact ⟨_, _, _, _, rfl⟩
          · cases outcome <;> rfl
        | proxy =>
          refine obeys_op (hdial _ ?_) fun (outcome : WsConnectResult) => ?_
          · rw [CfTarget.Requests, htier]
            exact ⟨_, _, _, _, _, rfl⟩
          · cases outcome <;> rfl
      refine obeys_bind hconnect fun history' answer hprogress => ?_
      cases answer with
      | none =>
        refine obeys_perform ?_ fun _ => ?_
        · rw [CfRefillGuar, hprogress]
          exact ⟨rfl, rfl, rfl⟩
        · rw [progress_snoc, hprogress]
          exact ⟨rfl, rfl, rfl⟩
      | some ws =>
        refine obeys_op ?_ fun _ => obeys_perform ?_ fun _ => ?_
        · rw [CfRefillGuar, hprogress]
          exact ⟨rfl, rfl, rfl, by change 0 < cfg.cfBudget - current; omega⟩
        · rw [CfRefillGuar, progress_snoc, hprogress]
          exact ⟨rfl, rfl, rfl⟩
        · rw [progress_snoc, progress_snoc, hprogress]
          exact ⟨rfl, rfl, rfl⟩

end TgWsProxy
