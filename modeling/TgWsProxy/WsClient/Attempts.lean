import TgWsProxy.Lib.History
import TgWsProxy.WsClient.Connect

set_option relaxedAutoImplicit false
set_option autoImplicit false

/-!
# The dials of a connect attempt

Which requests the connectors make, and how an attempt at the hostnames of a DC went, told by the
history of the task that made it.

## Main definitions

* `TgWsProxy.workerRequest`, `DialRequest.IsWorker`, `DialRequest.IsApiws` — what the connectors
  ask for.
* `TgWsProxy.Dialled` — a task has opened a stream.
* `TgWsProxy.AttemptEnds` — how an attempt went, by its dials.

## Main results

* `TgWsProxy.connectWsForDc_obeys` — the dials of an attempt, one after another.
-/

namespace TgWsProxy

open Process

/-- What a task has performed. -/
abbrev History := List (Event Op Op.Resp)

/-! ## Requests -/

/-- What `connect_cf_worker_ws_for_dc_with_outbound` dials. -/
def workerRequest (domain dst : Host) (dc : ℕ) (isMedia skipTlsVerify : Bool) (timeout : ℕ) :
    DialRequest :=
  ⟨domain, domain, cfWorkerPath dst dc isMedia, false, skipTlsVerify, timeout, none⟩

/-- A request of the Worker connector for a DC. -/
def DialRequest.IsWorker (request : DialRequest) (dc : ℕ) (isMedia : Bool) : Prop :=
  ∃ domain dst skipTlsVerify timeout,
    request = workerRequest domain dst dc isMedia skipTlsVerify timeout

/-- A request of one of the other connectors. -/
def DialRequest.IsApiws (request : DialRequest) : Prop :=
  ∃ ip domain skipTlsVerify timeout sniOverride,
    request = apiwsRequest ip domain skipTlsVerify timeout sniOverride

/-- The connectors are told apart by the subprotocol they ask for. -/
theorem DialRequest.IsWorker.not_isApiws {request : DialRequest} {dc : ℕ} {isMedia : Bool}
    (h : request.IsWorker dc isMedia) : ¬ request.IsApiws := by
  rintro ⟨ip, domain, skip, timeout, sni, happ⟩
  obtain ⟨domain', dst, skip', timeout', rfl⟩ := h
  cases congrArg DialRequest.requestBinarySubprotocol happ

/-- The task has opened the stream with a request of a kind. -/
def Dialled (kind : DialRequest → Prop) (ws : Stream) (history : History) : Prop :=
  ∃ request, kind request ∧ (⟨.dial request, .connected ws⟩ : Event Op Op.Resp) ∈ history

theorem Dialled.append {kind : DialRequest → Prop} {ws : Stream} {history : History}
    (h : Dialled kind ws history) (events : History) : Dialled kind ws (history ++ events) := by
  obtain ⟨request, hkind, hmem⟩ := h
  exact ⟨request, hkind, List.mem_append_left events hmem⟩

/-- The request of a dial whose TCP connect timed out. -/
def connectTimeout : Event Op Op.Resp → Option DialRequest
  | ⟨.dial request, .connectTimedOut _⟩ => some request
  | _ => none

/-! ## One attempt -/

section Attempt

variable (ip : Host) (skipTlsVerify : Bool) (timeout : ℕ) (sniOverride : Option Host)

/-- A dial of an attempt that brought no stream. -/
def FailedDial (e : Event Op Op.Resp) : Prop :=
  ∃ domain outcome, e = ⟨.dial (apiwsRequest ip domain skipTlsVerify timeout sniOverride),
    outcome⟩ ∧ outcome.stream = none

/-- How an attempt went, by its dials: all failed, and a TCP connect timed out if the attempt says
so; or the last one connected. -/
inductive AttemptEnds : History → WsAttempt → Prop
  | failed {dials : History} {attempt : WsAttempt} : dials ≠ [] →
      (∀ e ∈ dials, FailedDial ip skipTlsVerify timeout sniOverride e) → attempt.ws = none →
      (attempt.connectTimedOut = true → (dials.findSome? connectTimeout).isSome = true) →
      AttemptEnds dials attempt
  | connected {dials : History} (domain : Host) (ws : Stream) :
      (∀ e ∈ dials, FailedDial ip skipTlsVerify timeout sniOverride e) →
      AttemptEnds (dials ++ [⟨.dial (apiwsRequest ip domain skipTlsVerify timeout sniOverride),
        .connected ws⟩]) (.connected ws)

variable {ip skipTlsVerify timeout sniOverride} {guar : History → Op → Prop} {history : History}

/-- **The hostnames of an attempt.** The dials one after another, up to the first that connects. -/
theorem connectWsLoop_obeys (domains : List Host)
    (hguar : ∀ domain dials, (∀ e ∈ dials, FailedDial ip skipTlsVerify timeout sniOverride e) →
      guar (history ++ dials) (.dial (apiwsRequest ip domain skipTlsVerify timeout sniOverride))) :
    ∀ (dials : History) (flags : WsAttempt),
      (∀ e ∈ dials, FailedDial ip skipTlsVerify timeout sniOverride e) → flags.ws = none →
      (flags.connectTimedOut = true → (dials.findSome? connectTimeout).isSome = true) →
      (domains = [] → dials ≠ []) →
      Obeys guar (fun history' attempt => ∃ dials, history' = history ++ dials ∧
          AttemptEnds ip skipTlsVerify timeout sniOverride dials attempt) (history ++ dials)
        (connectWsLoop ip skipTlsVerify timeout sniOverride domains flags) := by
  induction domains with
  | nil =>
    intro dials flags hdials hws htimeout hne
    exact ⟨dials, rfl, .failed (hne rfl) hdials hws htimeout⟩
  | cons domain domains ih =>
    intro dials flags hdials hws htimeout _
    refine obeys_op (hguar domain dials hdials) fun outcome => ?_
    set e : Event Op Op.Resp :=
      ⟨.dial (apiwsRequest ip domain skipTlsVerify timeout sniOverride), outcome⟩ with he
    rw [List.append_assoc]
    -- a dial that failed: the loop goes on with what was collected before it
    have hgo : ∀ flags' : WsAttempt, WsConnectResult.stream outcome = none → flags'.ws = none →
        (flags'.connectTimedOut = true →
          flags.connectTimedOut = true ∨ (connectTimeout e).isSome = true) →
        Obeys guar (fun history' attempt => ∃ dials, history' = history ++ dials ∧
            AttemptEnds ip skipTlsVerify timeout sniOverride dials attempt)
          (history ++ (dials ++ [e]))
          (connectWsLoop ip skipTlsVerify timeout sniOverride domains flags') := by
      intro flags' hfailed hws' htimeout'
      refine ih (dials ++ [e]) flags' ?_ hws' ?_ (by simp)
      · intro e' he'
        rcases List.mem_append.mp he' with he' | he'
        · exact hdials e' he'
        · rw [List.mem_singleton.mp he']
          exact ⟨domain, outcome, rfl, hfailed⟩
      · intro hflag
        rw [List.findSome?_append]
        rcases htimeout' hflag with h | h
        · simp [htimeout h]
        · rw [List.findSome?_singleton, Option.isSome_or, h, Bool.or_true]
    cases outcome with
    | connected ws => exact ⟨dials ++ [e], rfl, .connected domain ws hdials⟩
    | redirect code => exact hgo flags rfl hws .inl
    | failed reason => exact hgo _ rfl hws .inl
    | timedOut => exact hgo _ rfl hws .inl
    | connectTimedOut reason => exact hgo _ rfl hws fun _ => .inr rfl

theorem wsDomains_ne_nil (dc : ℕ) (isMedia : Bool) : wsDomains dc isMedia ≠ [] := by
  rw [wsDomains, orderedRecords]
  cases isMedia <;> exact List.cons_ne_nil _ _

theorem connectWsForDc_obeys (dc : ℕ) (isMedia : Bool)
    (hguar : ∀ domain dials, (∀ e ∈ dials, FailedDial ip skipTlsVerify timeout sniOverride e) →
      guar (history ++ dials) (.dial (apiwsRequest ip domain skipTlsVerify timeout sniOverride))) :
    Obeys guar (fun history' attempt => ∃ dials, history' = history ++ dials ∧
        AttemptEnds ip skipTlsVerify timeout sniOverride dials attempt) history
      (connectWsForDc ip dc isMedia skipTlsVerify timeout sniOverride) := by
  have h := connectWsLoop_obeys (wsDomains dc isMedia) hguar [] ⟨none, true, false, false⟩
    (by simp) rfl (by simp) fun hnil => absurd hnil (wsDomains_ne_nil dc isMedia)
  rwa [List.append_nil] at h

end Attempt

/-- An attempt that brought a stream dialled it. -/
theorem AttemptEnds.opened {ip : Host} {skipTlsVerify : Bool} {timeout : ℕ}
    {sniOverride : Option Host} {dials : History} {attempt : WsAttempt} {ws : Stream}
    (h : AttemptEnds ip skipTlsVerify timeout sniOverride dials attempt)
    (hws : attempt.ws = some ws) : Dialled DialRequest.IsApiws ws dials := by
  cases h with
  | failed _ _ hnone _ =>
    rw [hnone] at hws
    cases hws
  | connected domain ws' _ =>
    cases hws
    exact ⟨_, ⟨_, _, _, _, _, rfl⟩, List.mem_append_right _ (List.mem_singleton_self _)⟩

end TgWsProxy
