import TgWsProxy.Proxy.TierOps

set_option relaxedAutoImplicit false
set_option autoImplicit false

/-!
# What a direct connect does, in terms of its history

`direct_ws` begins by reading the fronting window. From there on the history of a connection says
what it may do next: dial with a fronted SNI, clear or set the fronting cooldown of its DC, block
its address.

## Main definitions

* `TgWsProxy.sinceDirect` — the operations of a connection since its `direct_ws` began.
* `TgWsProxy.Permitted` — a fronted attempt is allowed: the window was open, or the fronting
  cooldown was read and not active.
* `TgWsProxy.TimedOutAt` — the first TCP connect to time out had a certain timeout.
* `TgWsProxy.readsDisagree` — the two reads of the DC cooldown had different answers.
* `TgWsProxy.DirectGuar` — what a connection guarantees, by its history.

## Main results

* `TgWsProxy.connectWs_obeys`, `directWs_obeys` — the guarantee holds on every path of a direct
  connect.
-/

namespace TgWsProxy

open Process Route

/-! ## Reading a history -/

/-- A dial with a fronted SNI that brought no stream. -/
def failedFronted : Event Op Op.Resp → Bool
  | ⟨.dial request, outcome⟩ => request.sniOverride.isSome && outcome.stream.isNone
  | _ => false

/-- The read of the fronting window, with which `direct_ws` begins. -/
def startsDirect : Event Op Op.Resp → Bool
  | ⟨.frontingActive, _⟩ => true
  | _ => false

/-- The history since the last `direct_ws` began. -/
def sinceDirect (history : History) : History :=
  history.foldl (fun events e => if startsDirect e then [e] else events ++ [e]) []

/-- A read that allows a fronted attempt for the DC: an open window, or an inactive cooldown. -/
def permits (route : Route) : Event Op Op.Resp → Bool
  | ⟨.frontingActive, active⟩ => active
  | ⟨.cooldownActive key, active⟩ =>
    key == CooldownKey.frontingFail route.dc route.isMedia && !active
  | _ => false

/-- A failed fronted attempt was noted. -/
def marksFailure (route : Route) : Event Op Op.Resp → Bool
  | ⟨.cooldownSet key _, _⟩ => key == CooldownKey.frontingFail route.dc route.isMedia
  | _ => false

/-- A fronted attempt is allowed, and none has failed since. -/
def Permitted (cfg : Config) (route : Route) (history : History) : Prop :=
  cfg.frontingDomain.isSome ∧ (sinceDirect history).any (permits route) ∧
    (sinceDirect history).any (marksFailure route) = false

/-- `direct_ws` read an inactive DC cooldown for its own purposes and `connect_ws` an active one. -/
def readsDisagree : History → Bool
  | ⟨.frontingActive, _⟩ :: ⟨.cooldownActive _, probing⟩ :: ⟨.cooldownActive _, cooling⟩ :: _ =>
    !probing && cooling
  | _ => false

/-- Since `direct_ws` began, the first TCP connect that timed out went to `ip` with this connect
timeout. -/
def TimedOutAt (ip : Host) (timeout : ℕ) (history : History) : Prop :=
  ∃ request, (sinceDirect history).findSome? connectTimeout = some request ∧ request.host = ip ∧
    request.timeout = timeout

/-- The connect timeout of an attempt that `direct_ws` took for no probe. -/
def attemptTimeout (cfg : Config) (history : History) : ℕ :=
  if readsDisagree (sinceDirect history) then cfg.timeouts.wsFailProbe else cfg.timeouts.wsConnect

/-- The operation that notes a failed fronted attempt. -/
def noteFailure (cfg : Config) (route : Route) : Op :=
  .cooldownSet (.frontingFail route.dc route.isMedia) cfg.timeouts.frontingFailCooldown

/-- What is due after a failed fronted attempt: to close the window or note the failure, and after
closing it to note the failure. -/
inductive Due
  | nothing
  | closeOrNote
  | note
  deriving DecidableEq

/-- What is due, by the last two operations. -/
def due (history : History) : Due :=
  match history.reverse with
  | ⟨.deactivateFronting, _⟩ :: e :: _ => if failedFronted e then .note else .nothing
  | e :: _ => if failedFronted e then .closeOrNote else .nothing
  | [] => .nothing

/-- Whether the DC of a connection has a `--dc-ip` target. -/
def Route.HasTarget (cfg : Config) (route : Route) : Prop :=
  (cfg.dcTargetIp route.dc).isSome = true

/-- What a client connection guarantees. -/
structure DirectGuar (cfg : Config) (route : Route) (history : History) (op : Op) : Prop where
  dial : ∀ request, op = .dial request → request.sniOverride.isSome →
    Permitted cfg route history
  clear : ∀ dc isMedia, op = .cooldownClear (.frontingFail dc isMedia) →
    dc = route.dc ∧ isMedia = route.isMedia ∧ Permitted cfg route history
  note : ∀ dc isMedia cooldown, op = .cooldownSet (.frontingFail dc isMedia) cooldown →
    op = noteFailure cfg route
  block : ∀ ip cooldown, op = .cooldownSet (.ipFail ip) cooldown →
    TimedOutAt ip (attemptTimeout cfg history) history
  closeOrNote : due history = .closeOrNote →
    (∃ request, op = .dial request) ∨ op = .deactivateFronting ∨ op = noteFailure cfg route
  owed : due history = .note → op = noteFailure cfg route
  pools : op.Asks cfg route (route.HasTarget cfg)

/-! ## Histories that grow -/

theorem sinceDirect_snoc (history : History) (e : Event Op Op.Resp) :
    sinceDirect (history ++ [e]) =
      if startsDirect e then [e] else sinceDirect history ++ [e] := by
  rw [sinceDirect, List.foldl_append]
  rfl

/-- The history since `direct_ws` began, while it is running. -/
theorem sinceDirect_append (history : History) {events : History}
    (h : ∀ e ∈ events, startsDirect e = false) :
    sinceDirect (history ++ events) = sinceDirect history ++ events := by
  induction events using List.reverseRecOn with
  | nil => simp
  | append_singleton events e ih =>
    rw [← List.append_assoc, sinceDirect_snoc, ih fun e he => h e (by simp [he]),
      if_neg (by simp [h e (by simp)]), List.append_assoc]

/-- Nothing is due after an operation that neither fails a fronted dial nor closes the window. -/
theorem due_snoc {e : Event Op Op.Resp} (hfailed : failedFronted e = false)
    (hclose : e.op ≠ .deactivateFronting) (history : History) :
    due (history ++ [e]) = .nothing := by
  obtain ⟨op, r⟩ := e
  rw [due, List.reverse_append, List.reverse_singleton, List.singleton_append]
  split
  · rename_i heq
    cases (List.cons.inj heq).1
    exact absurd rfl hclose
  · rename_i heq
    cases heq
    rw [if_neg (by simp [hfailed])]
  · rfl

theorem due_snoc_failed {e : Event Op Op.Resp} (hfailed : failedFronted e = true)
    (history : History) : due (history ++ [e]) = .closeOrNote := by
  obtain ⟨op, r⟩ := e
  rw [due, List.reverse_append, List.reverse_singleton, List.singleton_append]
  split
  · rename_i heq
    cases (List.cons.inj heq).1
    cases hfailed
  · rename_i heq
    cases heq
    rw [if_pos hfailed]
  · rename_i heq
    cases heq

theorem due_snoc_close {e : Event Op Op.Resp} (hfailed : failedFronted e = true)
    (history : History) : due (history ++ [e, ⟨.deactivateFronting, ()⟩]) = .note := by
  rw [due, List.reverse_append]
  change (if failedFronted e then Due.note else Due.nothing) = Due.note
  rw [if_pos hfailed]

/-- The later history is about the same `direct_ws`. -/
def Continues (history history' : History) : Prop :=
  ∃ rest, sinceDirect history' = sinceDirect history ++ rest

theorem Continues.refl (history : History) : Continues history history := ⟨[], by simp⟩

theorem Continues.trans {h₁ h₂ h₃ : History} (h : Continues h₁ h₂) (h' : Continues h₂ h₃) :
    Continues h₁ h₃ := by
  obtain ⟨rest, hrest⟩ := h
  obtain ⟨rest', hrest'⟩ := h'
  exact ⟨rest ++ rest', by rw [hrest', hrest, List.append_assoc]⟩

theorem Continues.snoc (history : History) {e : Event Op Op.Resp} (he : startsDirect e = false) :
    Continues history (history ++ [e]) := ⟨[e], by rw [sinceDirect_snoc, if_neg (by simp [he])]⟩

/-! ## The dials of an attempt in a history -/

section FailedDial

variable {ip : Host} {skipTlsVerify : Bool} {timeout : ℕ} {sniOverride : Option Host}
  {e : Event Op Op.Resp} (h : FailedDial ip skipTlsVerify timeout sniOverride e)

include h

theorem FailedDial.startsDirect : startsDirect e = false := by
  obtain ⟨domain, outcome, rfl, -⟩ := h
  rfl

theorem FailedDial.marksFailure (route : Route) : marksFailure route e = false := by
  obtain ⟨domain, outcome, rfl, -⟩ := h
  rfl

theorem FailedDial.failedFronted : failedFronted e = sniOverride.isSome := by
  obtain ⟨domain, outcome, rfl, hfailed⟩ := h
  simp [TgWsProxy.failedFronted, apiwsRequest, hfailed]

theorem FailedDial.op_ne : e.op ≠ .deactivateFronting := by
  obtain ⟨domain, outcome, rfl, -⟩ := h
  exact nofun

theorem FailedDial.connectTimeout {request : DialRequest}
    (hrequest : connectTimeout e = some request) :
    request.host = ip ∧ request.timeout = timeout := by
  obtain ⟨domain, outcome, rfl, -⟩ := h
  cases outcome with
  | connectTimedOut reason =>
    cases hrequest
    exact ⟨rfl, rfl⟩
  | _ => cases hrequest

end FailedDial

/-- After a failed fronted attempt something is due; after any other attempt nothing is. -/
theorem AttemptEnds.due {ip : Host} {skipTlsVerify : Bool} {timeout : ℕ}
    {sniOverride : Option Host} {dials : History} {attempt : WsAttempt}
    (h : AttemptEnds ip skipTlsVerify timeout sniOverride dials attempt) :
    (attempt.ws = none → sniOverride.isSome = true →
      ∃ before e, dials = before ++ [e] ∧ failedFronted e = true) ∧
    (attempt.ws ≠ none ∨ sniOverride = none → ∀ history, due (history ++ dials) = .nothing) := by
  cases h with
  | failed hne hdials hws _ =>
    obtain ⟨before, e, rfl⟩ : ∃ before e, dials = before ++ [e] :=
      ⟨_, _, (List.dropLast_append_getLast hne).symm⟩
    have he := hdials e (by simp)
    refine ⟨fun _ hsni => ⟨before, e, rfl, he.failedFronted.trans hsni⟩, fun hor history => ?_⟩
    rw [← List.append_assoc]
    refine due_snoc ?_ he.op_ne _
    rw [he.failedFronted]
    rcases hor with h | h
    · exact absurd hws h
    · rw [h]
      rfl
  | connected domain ws hdials =>
    refine ⟨fun hnone => absurd hnone (Option.some_ne_none ws), fun _ history => ?_⟩
    rw [← List.append_assoc]
    refine due_snoc ?_ (fun hop => Op.noConfusion hop) _
    simp [failedFronted, WsConnectResult.stream]

theorem AttemptEnds.startsDirect {ip : Host} {skipTlsVerify : Bool} {timeout : ℕ}
    {sniOverride : Option Host} {dials : History} {attempt : WsAttempt}
    (h : AttemptEnds ip skipTlsVerify timeout sniOverride dials attempt) :
    ∀ e ∈ dials, startsDirect e = false ∧ ∀ route, marksFailure route e = false := by
  intro e he
  cases h with
  | failed _ hdials _ _ => exact ⟨(hdials e he).startsDirect, (hdials e he).marksFailure⟩
  | connected domain ws hdials =>
    rcases List.mem_append.mp he with he | he
    · exact ⟨(hdials e he).startsDirect, (hdials e he).marksFailure⟩
    · rw [List.mem_singleton.mp he]
      exact ⟨rfl, fun _ => rfl⟩

/-! ## The guarantee, function by function -/

/-- Operations that concern neither fronting nor the blocking of addresses. -/
def Op.Aside (cfg : Config) (route : Route) : Op → Prop
  | .cooldownSet (.wsFail ..) _ => True
  | .cooldownClear (.wsFail ..) => True
  | .cooldownClear (.ipFail _) => True
  | .frontingActive => True
  | .activateFronting => True
  | op => op.Routing cfg route (route.HasTarget cfg)

variable {cfg : Config} {route : Route} {history : History}

theorem Op.Routing.aside {op : Op} (h : op.Routing cfg route (route.HasTarget cfg)) :
    op.Aside cfg route := by
  cases op with
  | cooldownSet key cooldown => cases key <;> trivial
  | cooldownClear key => cases key <;> trivial
  | frontingActive => trivial
  | activateFronting => trivial
  | _ => exact h

theorem directGuar_of_aside (hdue : due history = .nothing) {op : Op} (hop : op.Aside cfg route) :
    DirectGuar cfg route history op where
  dial request heq hsni := by
    subst heq
    rw [show request.sniOverride = none from hop.1] at hsni
    cases hsni
  clear dc isMedia heq := by
    subst heq
    exact absurd hop id
  note dc isMedia cooldown heq := by
    subst heq
    exact absurd hop id
  block ip cooldown heq := by
    subst heq
    exact absurd hop id
  closeOrNote h := by rw [hdue] at h; cases h
  owed h := by rw [hdue] at h; cases h
  pools := by
    cases op with
    | cooldownSet key cooldown => trivial
    | cooldownClear key => trivial
    | frontingActive => trivial
    | activateFronting => trivial
    | _ => exact Op.Routing.asks hop

variable (cfg route) in
/-- Nothing is due after an operation on the side. -/
theorem due_of_aside (history : History) (op : Op) (r : op.Resp) (hop : op.Aside cfg route) :
    due (history ++ [⟨op, r⟩]) = .nothing := by
  refine due_snoc ?_ ?_ history
  · cases op with
    | dial request =>
      rw [failedFronted, show request.sniOverride = none from hop.1]
      rfl
    | _ => rfl
  · rintro rfl
    exact absurd hop id

/-- A permission holds until a failure is noted. -/
theorem Permitted.append (h : Permitted cfg route history) {events : History}
    (hevents : ∀ e ∈ events, startsDirect e = false ∧ marksFailure route e = false) :
    Permitted cfg route (history ++ events) := by
  obtain ⟨hdomain, hpermits, hmarks⟩ := h
  have hsection := sinceDirect_append history fun e he => (hevents e he).1
  refine ⟨hdomain, ?_, ?_⟩
  · rw [hsection, List.any_append, hpermits, Bool.true_or]
  · rw [hsection, List.any_append, hmarks, Bool.false_or, List.any_eq_false]
    exact fun e he => by simp [(hevents e he).2]

/-- What is known after an attempt of `connect_ws` that began behind `history`. -/
structure AfterAttempt (cfg : Config) (route : Route) (history : History) (ip : Host)
    (sniOverride : Option Host) (history' : History) (attempt : WsAttempt) : Prop where
  dials : ∃ cooling dials, sinceDirect history' = sinceDirect history ++
      ⟨.cooldownActive (.wsFail route.dc route.isMedia), cooling⟩ :: dials ∧
    AttemptEnds ip cfg.skipTlsVerify
      (if cooling then cfg.timeouts.wsFailProbe else cfg.timeouts.wsConnect) sniOverride dials
      attempt
  failed : attempt.ws = none → sniOverride.isSome = true →
    ∃ before e, history' = before ++ [e] ∧ failedFronted e = true
  done : attempt.ws ≠ none ∨ sniOverride = none → due history' = .nothing
  permitted : Permitted cfg route history → Permitted cfg route history'
  unmarked : (sinceDirect history).any (marksFailure route) = false →
    (sinceDirect history').any (marksFailure route) = false
  opened : ∀ ws, attempt.ws = some ws → Dialled DialRequest.IsApiws ws history'

/-- `connect_ws` guarantees what is asked of it, if a fronted attempt is permitted. -/
theorem connectWs_obeys (ip : Host) (sniOverride : Option Host) (hdue : due history = .nothing)
    (hperm : sniOverride.isSome = true → Permitted cfg route history) :
    Obeys (DirectGuar cfg route) (AfterAttempt cfg route history ip sniOverride) history
      (Route.connectWs cfg route ip sniOverride) := by
  refine obeys_op (directGuar_of_aside hdue trivial) fun (cooling : Bool) => ?_
  set read : Event Op Op.Resp := ⟨.cooldownActive (.wsFail route.dc route.isMedia), cooling⟩
  have hdue' : due (history ++ [read]) = .nothing := due_of_aside cfg route history _ _ trivial
  refine (connectWsForDc_obeys (websocketDc route.dc) route.isMedia ?_).mono ?_
  · -- every dial of the attempt
    intro domain dials hdials
    refine ⟨fun request heq hsni => ?_, nofun, nofun, nofun, fun _ => .inl ⟨_, rfl⟩,
      fun howed => ?_, trivial⟩
    · cases heq
      refine ((hperm hsni).append (by simp [read, startsDirect, marksFailure])).append ?_
      exact fun e he => ⟨(hdials e he).startsDirect, (hdials e he).marksFailure route⟩
    · -- nothing but the next dial can be due
      rcases List.eq_nil_or_concat dials with rfl | ⟨before, e, rfl⟩
      · rw [List.append_nil, hdue'] at howed
        cases howed
      · have he := hdials e (by simp)
        rw [List.concat_eq_append, ← List.append_assoc] at howed
        cases hfailed : failedFronted e with
        | true =>
          rw [due_snoc_failed hfailed] at howed
          cases howed
        | false =>
          rw [due_snoc hfailed he.op_ne] at howed
          cases howed
  · rintro history' attempt ⟨dials, rfl, hends⟩
    have hquiet : ∀ e ∈ read :: dials, startsDirect e = false ∧ marksFailure route e = false := by
      intro e he
      rcases List.mem_cons.mp he with rfl | he
      · exact ⟨rfl, rfl⟩
      · exact ⟨(hends.startsDirect e he).1, (hends.startsDirect e he).2 route⟩
    have hsection := sinceDirect_append history fun e he => (hquiet e he).1
    rw [List.append_assoc, List.singleton_append]
    refine ⟨⟨cooling, dials, hsection, hends⟩, fun hws hsni => ?_, fun hor => ?_,
      fun h => h.append hquiet, fun h => ?_, fun ws hws => ?_⟩
    · obtain ⟨before, e, rfl, he⟩ := hends.due.1 hws hsni
      exact ⟨history ++ read :: before, e, by simp, he⟩
    · rw [← List.singleton_append, ← List.append_assoc]
      exact hends.due.2 hor _
    · rw [hsection, List.any_append, h, Bool.false_or, List.any_eq_false]
      exact fun e he => by simp [(hquiet e he).2]
    · obtain ⟨request, hrequest, hmem⟩ := hends.opened hws
      exact ⟨request, hrequest, by simp [hmem]⟩

/-- In an attempt that was taken for no probe, the second read of the DC cooldown decided on the
timeout. -/
theorem timedOutAt_of_attempt {ip : Host} {sniOverride : Option Host}
    {active probing cooling : Bool} {key : CooldownKey} {dials rest : History}
    {attempt : WsAttempt}
    (hsection : sinceDirect history = [⟨.frontingActive, active⟩, ⟨.cooldownActive key, probing⟩] ++
      ⟨.cooldownActive key, cooling⟩ :: dials ++ rest)
    (hends : AttemptEnds ip cfg.skipTlsVerify
      (if cooling then cfg.timeouts.wsFailProbe else cfg.timeouts.wsConnect) sniOverride dials
      attempt)
    (hws : attempt.ws = none) (htimeout : attempt.connectTimedOut = true)
    (hprobing : probing = false) : TimedOutAt ip (attemptTimeout cfg history) history := by
  have hcooling : readsDisagree (sinceDirect history) = cooling := by
    rw [hsection, hprobing]
    simp [readsDisagree]
  rw [attemptTimeout, hcooling]
  cases hends with
  | connected domain ws _ => cases hws
  | failed _ hdials _ hfound =>
    obtain ⟨request, hrequest⟩ := Option.isSome_iff_exists.mp (hfound htimeout)
    obtain ⟨e, he, hmatch⟩ := List.exists_of_findSome?_eq_some hrequest
    refine ⟨request, ?_, (hdials e he).connectTimeout hmatch⟩
    have hread : (⟨.cooldownActive key, cooling⟩ :: dials : History).findSome? connectTimeout =
        some request := hrequest
    rw [hsection, List.findSome?_append, List.findSome?_append, hread]
    rfl

/-- The failure is noted when it is due. -/
theorem directGuar_noteFailure : DirectGuar cfg route history (noteFailure cfg route) where
  dial _ heq := by cases heq
  clear _ _ heq := by cases heq
  note _ _ _ _ := rfl
  block _ _ heq := by cases heq
  closeOrNote _ := .inr (.inr rfl)
  owed _ := rfl
  pools := trivial

/-- Noting a failed fronted attempt settles what is due. -/
theorem due_noteFailure (history : History) (r : (noteFailure cfg route).Resp) :
    due (history ++ [⟨noteFailure cfg route, r⟩]) = .nothing :=
  due_snoc rfl (fun hop => Op.noConfusion hop) history

/-- How `direct_ws` ends: nothing is due, and a stream was dialled by it, after which it last
cleared the cooldown of its address or opened the fronting window. -/
structure DirectEnds (ip : Host) (history : History) (fresh : Option Stream) : Prop where
  settled : due history = .nothing
  opened : ∀ ws, fresh = some ws → Dialled DialRequest.IsApiws ws history
  last : ∀ ws, fresh = some ws → ∃ before e, history = before ++ [e] ∧
    (e = ⟨.cooldownClear (.ipFail ip), ()⟩ ∨ e = ⟨.activateFronting, ()⟩)

theorem DirectEnds.givesUp {ip : Host} (hdue : due history = .nothing) :
    DirectEnds ip history none where
  settled := hdue
  opened _ hws := by cases hws
  last _ hws := by cases hws

theorem DirectEnds.fronted {ip : Host} {ws : Stream} {e : Event Op Op.Resp}
    (hdue : due (history ++ [e, ⟨.activateFronting, ()⟩]) = .nothing)
    (hopened : Dialled DialRequest.IsApiws ws history) :
    DirectEnds ip (history ++ [e, ⟨.activateFronting, ()⟩]) (some ws) where
  settled := hdue
  opened ws' hws' := by
    cases hws'
    exact hopened.append _
  last _ _ := ⟨history ++ [e], _, by simp, .inr rfl⟩

theorem onFrontingSuccess_obeys (hdue : due history = .nothing)
    (hperm : Permitted cfg route history) :
    Obeys (DirectGuar cfg route)
      (fun history' _ => due history' = .nothing ∧ history' = history ++
        [⟨.cooldownClear (.frontingFail route.dc route.isMedia), ()⟩, ⟨.activateFronting, ()⟩])
      history (onFrontingSuccess route) := by
  have hclear : DirectGuar cfg route history
      (.cooldownClear (.frontingFail route.dc route.isMedia)) := by
    refine ⟨nofun, ?_, nofun, nofun, fun h => ?_, fun h => ?_, trivial⟩
    · rintro dc isMedia ⟨⟩
      exact ⟨rfl, rfl, hperm⟩
    · rw [hdue] at h; cases h
    · rw [hdue] at h; cases h
  have hdue' : ∀ r, due (history ++ [⟨.cooldownClear (.frontingFail route.dc route.isMedia), r⟩]) =
      .nothing := fun r => due_snoc rfl (fun hop => Op.noConfusion hop) history
  refine obeys_op hclear fun r => obeys_perform (directGuar_of_aside (hdue' r) trivial) fun r' => ?_
  exact ⟨due_of_aside cfg route _ _ r' trivial, by rw [List.append_assoc]; rfl⟩

/-- `reactive_fronting` dials with the fronted SNI only after reading an inactive cooldown, and
notes its failure. -/
theorem reactiveFronting_obeys (ip : Host) (stalled : Bool) (hdue : due history = .nothing)
    (hmarks : (sinceDirect history).any (marksFailure route) = false) :
    Obeys (DirectGuar cfg route)
      (fun history' fronted => DirectEnds ip history' fronted ∧ Continues history history')
      history (reactiveFronting cfg route ip stalled) := by
  rw [reactiveFronting]
  split_ifs
  · exact ⟨.givesUp hdue, .refl _⟩
  refine obeys_op (directGuar_of_aside hdue trivial) fun (cooling : Bool) => ?_
  set read : Event Op Op.Resp :=
    ⟨.cooldownActive (.frontingFail route.dc route.isMedia), cooling⟩ with hread
  have hdue' : due (history ++ [read]) = .nothing := due_of_aside cfg route history _ _ trivial
  have hcont : Continues history (history ++ [read]) := .snoc history rfl
  cases cooling with
  | true => exact ⟨.givesUp hdue', hcont⟩
  | false =>
    cases hdomain : cfg.frontingDomain with
    | none => exact ⟨.givesUp hdue', hcont⟩
    | some domain =>
      have hperm : Permitted cfg route (history ++ [read]) := by
        rw [Permitted, sinceDirect_snoc, if_neg (by simp [hread, startsDirect]), hdomain,
          List.any_append, List.any_append, hmarks]
        exact ⟨rfl, by simp [hread, permits], by simp [hread, marksFailure]⟩
      refine obeys_bind (connectWs_obeys ip (some domain) hdue' fun _ => hperm) ?_
      intro history' attempt hafter
      have hcont' : Continues history history' := by
        obtain ⟨cooling', dials, hsection, -⟩ := hafter.dials
        exact hcont.trans ⟨_, hsection⟩
      cases hws : attempt.ws with
      | some ws =>
        refine obeys_bind (onFrontingSuccess_obeys (hafter.done (.inl (by simp [hws])))
          (hafter.permitted hperm)) ?_
        rintro _ _ ⟨hdone, rfl⟩
        exact ⟨.fronted hdone (hafter.opened ws hws),
          hcont'.trans ⟨_, sinceDirect_append history' (by simp [startsDirect])⟩⟩
      | none =>
        refine obeys_op directGuar_noteFailure fun r => ?_
        exact ⟨.givesUp (due_noteFailure history' r), hcont'.trans (.snoc history' rfl)⟩

/-- `direct_ws` gives up: it blocks the address if that is due to a full timeout. -/
theorem directWsFailed_obeys (ip : Host) (attempt : WsAttempt) (probing : Bool)
    (hdue : due history = .nothing)
    (hblock : ∀ history', Continues history history' → attempt.connectTimedOut = true →
      probing = false → TimedOutAt ip (attemptTimeout cfg history') history') :
    Obeys (DirectGuar cfg route) (DirectEnds ip) history
      (directWsFailed cfg route ip attempt probing) := by
  refine obeys_op (directGuar_of_aside hdue trivial) fun r => ?_
  set back : Event Op Op.Resp := ⟨.cooldownSet (.wsFail route.dc route.isMedia) _, r⟩
  have hdue' : due (history ++ [back]) = .nothing := due_of_aside cfg route history _ r trivial
  split_ifs with hgiveUp
  · rw [Bool.and_eq_true, Bool.not_eq_true'] at hgiveUp
    have hguar : DirectGuar cfg route (history ++ [back])
        (.cooldownSet (.ipFail ip) cfg.timeouts.ipFailCooldown) := by
      refine ⟨nofun, nofun, nofun, ?_, fun h => ?_, fun h => ?_, trivial⟩
      · rintro ip' cooldown ⟨⟩
        exact hblock _ (.snoc history rfl) hgiveUp.1 hgiveUp.2
      · rw [hdue'] at h; cases h
      · rw [hdue'] at h; cases h
    exact obeys_op hguar fun _ => .givesUp (due_snoc rfl (fun hop => Op.noConfusion hop) _)
  · exact .givesUp hdue'

/-- **The guarantee of `direct_ws`.** -/
theorem directWs_obeys (ip : Host) (hdue : due history = .nothing) :
    Obeys (DirectGuar cfg route) (DirectEnds ip) history
      (directWs cfg route ip) := by
  refine obeys_op (directGuar_of_aside hdue trivial) fun (active : Bool) => ?_
  have hdue₁ := due_of_aside cfg route history .frontingActive active trivial
  refine obeys_op (directGuar_of_aside hdue₁ trivial) fun (probing : Bool) => ?_
  set key := CooldownKey.wsFail route.dc route.isMedia
  set begun : History := history ++ [⟨.frontingActive, active⟩] ++ [⟨.cooldownActive key, probing⟩]
    with hbegun
  have hdue₂ : due begun = .nothing :=
    due_of_aside cfg route _ (.cooldownActive key) probing trivial
  have hsection : sinceDirect begun =
      [⟨.frontingActive, active⟩, ⟨.cooldownActive key, probing⟩] := by
    rw [hbegun, sinceDirect_snoc, sinceDirect_snoc]
    rfl
  set sticky := if active then cfg.frontingDomain else none with hsticky
  have hperm : sticky.isSome = true → Permitted cfg route begun := by
    intro hsome
    rw [hsticky] at hsome
    split_ifs at hsome with hactive
    · rw [Permitted, hsection]
      exact ⟨hsome, by simp [permits, hactive], by simp [marksFailure]⟩
    · cases hsome
  refine obeys_bind (connectWs_obeys ip sticky hdue₂ hperm) fun history₁ attempt hafter => ?_
  have hblock : attempt.ws = none → ∀ history', Continues history₁ history' →
      attempt.connectTimedOut = true → probing = false →
      TimedOutAt ip (attemptTimeout cfg history') history' := by
    rintro hws history' ⟨rest, hrest⟩ htimeout hprobing
    obtain ⟨cooling, dials, hdials, hends⟩ := hafter.dials
    have hall : sinceDirect history' =
        [⟨.frontingActive, active⟩, ⟨.cooldownActive key, probing⟩] ++
          ⟨.cooldownActive key, cooling⟩ :: dials ++ rest := by
      rw [hrest, hdials, hsection]
    exact timedOutAt_of_attempt hall hends hws htimeout hprobing
  cases hfront : sticky with
  | some domain =>
    have hsome : sticky.isSome = true := by rw [hfront]; rfl
    cases hws : attempt.ws with
    | some ws =>
      -- the sticky attempt succeeded
      refine obeys_bind (onFrontingSuccess_obeys (hafter.done (.inl (by simp [hws])))
        (hafter.permitted (hperm hsome))) ?_
      rintro _ _ ⟨hdone, rfl⟩
      exact .fronted hdone (hafter.opened ws hws)
    | none =>
      -- it failed: the window is closed and the failure noted
      obtain ⟨before, e, hlast, hfailed⟩ := hafter.failed hws hsome
      have hclose : DirectGuar cfg route history₁ .deactivateFronting := by
        refine ⟨nofun, nofun, nofun, nofun, fun _ => .inr (.inl rfl), fun h => ?_, trivial⟩
        rw [hlast, due_snoc_failed hfailed] at h
        cases h
      refine obeys_op hclose fun r => obeys_op directGuar_noteFailure fun r' => ?_
      refine directWsFailed_obeys ip attempt probing (due_noteFailure _ r') ?_
      intro history' hcont
      refine hblock hws history' (.trans ?_ hcont)
      exact (Continues.snoc history₁ rfl).trans (.snoc _ rfl)
  | none =>
    have hdone : due history₁ = .nothing := hafter.done (.inr hfront)
    cases hws : attempt.ws with
    | some ws =>
      -- a plain hostname connected
      have hdue₃ := fun r => due_of_aside cfg route history₁ (.cooldownClear key) r trivial
      refine obeys_op (directGuar_of_aside hdone trivial) fun r =>
        obeys_op (directGuar_of_aside (hdue₃ r) trivial) fun r' => ?_
      refine ⟨due_of_aside cfg route _ _ r' trivial, fun ws' hws' => ?_,
        fun _ _ => ⟨_, _, rfl, .inl rfl⟩⟩
      cases hws'
      exact ((hafter.opened ws hws).append _).append _
    | none =>
      have hunmarked := hafter.unmarked (by simp [hsection, marksFailure])
      refine obeys_bind (reactiveFronting_obeys ip _ hdone hunmarked) ?_
      intro history₂ fronted h
      cases fronted with
      | some ws => exact h.1
      | none =>
        exact directWsFailed_obeys ip attempt probing h.1.settled
          fun history' hcont => hblock hws history' (h.2.trans hcont)

end TgWsProxy
