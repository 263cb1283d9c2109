import TgWsProxy.Chain.Opening

set_option relaxedAutoImplicit false
set_option autoImplicit false

/-!
# The invariant of two linked proxies

What has been written to either direction of the connection is a beginning of what the opening
says, or all of it and what a session has sent. What has been read of it is the same, up to what is
in flight. The readers of the handshakes wait, so they cannot tell a beginning from the whole.

## Main definitions

* `TgWsProxy.Chain.Invariant` — what holds in every state.

## Main results

* `TgWsProxy.Chain.step_invariant`, `run_invariant` — every step keeps it.
-/

namespace TgWsProxy

theorem ChainConfig.readOpening_stable (cfg : ChainConfig) {stream rest : Bytes}
    {found : Block 64 × Bytes} (h : cfg.readOpening stream = (some found, rest)) (more : Bytes) :
    cfg.readOpening (stream ++ more) = (some found, rest ++ more) := by
  unfold ChainConfig.readOpening at h ⊢
  cases hdomain : cfg.domain with
  | some domain =>
    rw [hdomain] at h
    exact readInit_stable h more
  | none =>
    rw [hdomain] at h
    exact readPlainInit_stable h more

/-- With nothing pending, data comes from the wire. -/
theorem ClientDelivers.of_nil {framing : StreamFraming} {w w' : Wire} {found : Option Bytes}
    {pending' : Bytes} (h : ClientDelivers framing [] w found pending' w') :
    pending' = [] ∧ w.Delivers framing found w' := by
  generalize hpending : ([] : Bytes) = pending at h
  cases h with
  | pending hne => exact absurd (List.append_eq_nil_iff.mp hpending.symm).1 hne
  | wire _ hwire => exact ⟨rfl, hwire⟩

namespace Chain

/-- What the near proxy has written in each phase. -/
def NearWrites (cfg : ChainConfig) (plan : UpstreamPlan) : NearPhase → Bytes → Prop
  | .connecting, written => written = []
  | .awaitingHello p, written => p = plan ∧ plan.clientHello = some written
  | .relaying p s, written => p = plan ∧ written = plan.preface ++ s.up.sent.flatten ∧
    Session.Invariant cfg.P plan.kind cfg.client (plan.session cfg) s
  | .rejected, _ => False

/-- What the far proxy has written in each phase. -/
def FarWrites (cfg : ChainConfig) (answer : Bytes) : FarPhase → Bytes → Prop
  | .awaitingHello, written => written = []
  | .awaitingInit, written => written = answer
  | .dialing _ _ _, written => written = answer
  | .bridging leg _ s, written => written = answer ++ s.down.sent.flatten ∧
    Session.Invariant cfg.P leg.kind cfg.framing (leg.session cfg.P) s
  | .rejected, _ => False

/-- What the near proxy has read in each phase. -/
def NearReads (cfg : ChainConfig) (answer : Bytes) : NearPhase → Wire → Prop
  | .connecting, down => down.flight = down.written
  | .awaitingHello _, down => down.flight = down.written
  | .relaying _ s, down => ∃ sent, down.Flows cfg.framing answer sent s.down.reads
  | .rejected, _ => False

/-- What the far proxy has read, and accepted, in each phase. -/
def FarReads (cfg : ChainConfig) (plan : UpstreamPlan) (info : HandshakeInfo) (key : Bytes) :
    FarPhase → Wire → Prop
  | .awaitingHello, up => plan.clientHello.isSome ∧ up.flight = up.written
  | .awaitingInit, up => up.written = plan.clientHello.getD [] ++ up.flight
  | .dialing i k pending, up => (i = info ∧ k = key ∧ pending = []) ∧
    up.written = plan.preface ++ up.flight
  | .bridging leg pending s, up => (leg.info = info ∧ leg.secret = key ∧ pending = []) ∧
    ∃ sent, up.Flows cfg.framing plan.preface sent s.up.reads
  | .rejected, _ => False

/-- **What holds in every state.** -/
structure Invariant (cfg : ChainConfig) (plan : UpstreamPlan) (answer : Bytes)
    (info : HandshakeInfo) (key : Bytes) (c : Chain) : Prop where
  nearWrites : NearWrites cfg plan c.near c.up.written
  farWrites : FarWrites cfg answer c.far c.down.written
  nearReads : NearReads cfg answer c.near c.down
  farReads : FarReads cfg plan info key c.far c.up

variable {cfg : ChainConfig} {plan : UpstreamPlan} {answer : Bytes} {info : HandshakeInfo}
  {key : Bytes}

/-! ## Beginnings -/

/-- What the near proxy has written is a beginning of the preface, or all of it and more. -/
theorem NearWrites.begins {near : NearPhase} {written : Bytes}
    (h : NearWrites cfg plan near written) :
    ∃ more sent, written ++ more = plan.preface ++ sent := by
  cases near with
  | connecting =>
    obtain rfl : written = [] := h
    exact ⟨plan.preface, [], by simp⟩
  | awaitingHello p =>
    obtain ⟨-, hhello⟩ := h
    exact ⟨plan.init, [], by rw [UpstreamPlan.preface, hhello, List.append_nil]; rfl⟩
  | relaying p s => exact ⟨[], s.up.sent.flatten, by rw [List.append_nil]; exact h.2.1⟩
  | rejected => exact h.elim

/-- So is what the far proxy has written, of its answer. -/
theorem FarWrites.begins {far : FarPhase} {written : Bytes} (h : FarWrites cfg answer far written) :
    ∃ more sent, written ++ more = answer ++ sent := by
  cases far with
  | awaitingHello =>
    obtain rfl : written = [] := h
    exact ⟨answer, [], by simp⟩
  | awaitingInit => exact ⟨[], [], congrArg (· ++ []) h⟩
  | dialing i k pending => exact ⟨[], [], congrArg (· ++ []) h⟩
  | bridging leg pending s => exact ⟨[], s.down.sent.flatten, by rw [List.append_nil]; exact h.1⟩
  | rejected => exact h.elim

/-- The far proxy reads on. -/
theorem FarReads.write {far : FarPhase} {up : Wire} (h : FarReads cfg plan info key far up)
    (more : Bytes) : FarReads cfg plan info key far (up.write more) := by
  cases far with
  | awaitingHello => exact ⟨h.1, congrArg (· ++ more) h.2⟩
  | awaitingInit =>
    have hwritten : up.written = _ := h
    change up.written ++ more = _
    rw [hwritten, List.append_assoc]
    rfl
  | dialing i k pending =>
    refine ⟨h.1, ?_⟩
    change up.written ++ more = _
    rw [h.2, List.append_assoc]
    rfl
  | bridging leg pending s =>
    obtain ⟨hleg, sent, hflows⟩ := h
    exact ⟨hleg, sent ++ more, hflows.write more⟩
  | rejected => exact h.elim

/-- The near proxy reads on. -/
theorem NearReads.write {near : NearPhase} {down : Wire} (h : NearReads cfg answer near down)
    (more : Bytes) : NearReads cfg answer near (down.write more) := by
  cases near with
  | connecting => exact congrArg (· ++ more) h
  | awaitingHello p => exact congrArg (· ++ more) h
  | relaying p s =>
    obtain ⟨sent, hflows⟩ := h
    exact ⟨sent ++ more, hflows.write more⟩
  | rejected => exact h.elim

/-! ## What has been written behind the opening -/

theorem init_ne_nil (plan : UpstreamPlan) : plan.init ≠ [] := by
  have hlen : plan.handshake.bytes.length = 64 := plan.handshake.length_bytes
  rw [UpstreamPlan.init]
  split
  · intro hnil
    rw [hnil] at hlen
    cases hlen
  · rw [writeTlsAppdata, writeTlsAppdataFrom, dif_pos (by omega)]
    exact List.cons_ne_nil _ _

/-- Once the preface has been written, the near proxy relays. -/
theorem NearWrites.relaying {near : NearPhase} {sent : Bytes}
    (h : NearWrites cfg plan near (plan.preface ++ sent)) :
    ∃ s, near = .relaying plan s ∧ sent = s.up.sent.flatten ∧
      Session.Invariant cfg.P plan.kind cfg.client (plan.session cfg) s := by
  cases near with
  | connecting =>
    have hnil : plan.preface ++ sent = [] := h
    rw [UpstreamPlan.preface, List.append_assoc] at hnil
    exact absurd (List.append_eq_nil_iff.mp (List.append_eq_nil_iff.mp hnil).2).1 (init_ne_nil plan)
  | awaitingHello p =>
    have hhello := h.2
    have hsame : plan.clientHello.getD [] = plan.preface ++ sent := by rw [hhello]; rfl
    rw [UpstreamPlan.preface, List.append_assoc] at hsame
    have hnil := List.self_eq_append_right.mp hsame
    exact absurd (List.append_eq_nil_iff.mp hnil).1 (init_ne_nil plan)
  | relaying p s =>
    obtain ⟨rfl, hwritten, hinv⟩ := h
    exact ⟨s, rfl, List.append_cancel_left hwritten, hinv⟩
  | rejected => exact h.elim

/-- What the near proxy writes behind the preface. -/
theorem NearWrites.framed {near : NearPhase} {sent : Bytes}
    (h : NearWrites cfg plan near (plan.preface ++ sent)) : plan.kind.framing.Framed sent := by
  obtain ⟨s, -, rfl, hinv⟩ := h.relaying
  exact hinv.framed_up nofun

/-- What the far proxy writes behind its answer. -/
theorem FarWrites.framed {far : FarPhase} {sent : Bytes}
    (h : FarWrites cfg answer far (answer ++ sent)) : cfg.framing.Framed sent := by
  have hnone : sent = [] → cfg.framing.Framed sent := by
    rintro rfl
    exact ⟨[], List.nil_prefix⟩
  cases far with
  | awaitingHello => exact hnone (List.append_eq_nil_iff.mp h).2
  | awaitingInit => exact hnone (List.append_right_eq_self.mp h)
  | dialing i k pending => exact hnone (List.append_right_eq_self.mp h)
  | bridging leg pending s =>
    obtain ⟨hsent, hinv⟩ := h
    rw [List.append_cancel_left hsent]
    exact hinv.framed_down
  | rejected => exact h.elim

/-! ## Readers that wait -/

section Readers

variable {β : Type} {read : Bytes → β × Bytes} {arrived behind more sent opening rest : Bytes}
  {found a : β}

/-- A reader that has not waited for more has read the opening. -/
theorem rest_of_read (hstable : ∀ more, read (arrived ++ more) = (found, rest ++ more))
    (hall : arrived ++ behind ++ more = opening ++ sent)
    (hread : read (opening ++ sent) = (a, sent)) :
    found = a ∧ arrived ++ behind = opening ++ (rest ++ behind) := by
  rw [← hall, List.append_assoc] at hread
  obtain ⟨hfound, hrest⟩ := Prod.mk.inj ((hstable (behind ++ more)).symm.trans hread)
  refine ⟨hfound, ?_⟩
  rw [← hrest, ← List.append_assoc, ← List.append_assoc] at hall
  rw [← List.append_assoc]
  exact List.append_cancel_right hall

/-- A reader that fails whatever comes fails on the opening. -/
theorem fails_of_read (hfails : ∀ more, (read (arrived ++ more)).1 = found)
    (hall : arrived ++ behind ++ more = opening ++ sent)
    (hread : read (opening ++ sent) = (a, sent)) : found = a := by
  rw [← hall, List.append_assoc] at hread
  rw [← hfails (behind ++ more), hread]

end Readers

/-! ## The steps -/

section Steps

variable {c c' : Chain}

/-- The session of the near proxy starts. -/
theorem Invariant.relays (h : Invariant cfg plan answer info key c) {down : Wire}
    (hup : c.up.written = plan.clientHello.getD []) (hwritten : down.written = c.down.written)
    (hdown : down.written = answer ++ down.flight) :
    Invariant cfg plan answer info key { c with
      near := .relaying plan (plan.session cfg)
      up := c.up.write plan.init
      down := down } := by
  refine ⟨⟨rfl, ?_, Session.invariant_start _ _ _⟩, ?_, ⟨down.flight, .start hdown rfl⟩,
    h.farReads.write plan.init⟩
  · change c.up.written ++ plan.init = plan.preface ++ []
    rw [hup, List.append_nil]
    rfl
  · exact hwritten ▸ h.farWrites

/-- What a far proxy finds behind the ClientHello. -/
theorem Invariant.init_arrived (h : Invariant cfg plan answer info key c) {arrived behind : Bytes}
    (hfar : c.far = .awaitingInit) (hflight : c.up.flight = arrived ++ behind) :
    c.up.written = plan.clientHello.getD [] ++ (arrived ++ behind) ∧
      ∃ more sent, arrived ++ behind ++ more = plan.init ++ sent := by
  have hreads := h.farReads
  rw [hfar] at hreads
  have hwritten : c.up.written = plan.clientHello.getD [] ++ (arrived ++ behind) :=
    hflight ▸ hreads
  obtain ⟨more, sent, hall⟩ := h.nearWrites.begins
  rw [hwritten, UpstreamPlan.preface, List.append_assoc _ plan.init, List.append_assoc _ _ more]
    at hall
  exact ⟨hwritten, more, sent, List.append_cancel_left hall⟩

/-- The session of the far proxy starts. -/
theorem Invariant.dials (h : Invariant cfg plan answer info key c) {i : HandshakeInfo}
    {secret pending : Bytes} (hfar : c.far = .dialing i secret pending) (kind : SessionKind)
    (relayInit : Block 64) (conn : AesCtr256 × AesCtr256) :
    Invariant cfg plan answer info key { c with
      far := .bridging ⟨i, secret, kind, relayInit, conn⟩ pending
        (Leg.session ⟨i, secret, kind, relayInit, conn⟩ cfg.P) } := by
  have hreads := h.farReads
  have hwrites := h.farWrites
  rw [hfar] at hreads hwrites
  obtain ⟨haccepted, hwritten⟩ := hreads
  refine ⟨h.nearWrites, ⟨?_, Session.invariant_start _ _ _⟩, h.nearReads, haccepted,
    c.up.flight, .start hwritten rfl⟩
  exact Eq.trans hwrites (List.append_nil _).symm

variable (o : Opening cfg plan answer info key)

include o

/-- Only one plan is made. -/
theorem plan_unique {p : UpstreamPlan} (h : cfg.plan = .ok (some p)) : p = plan :=
  Option.some.inj (Except.ok.inj (h.symm.trans o.plan_eq))

/-- The answer is drained, if there was a ClientHello. -/
theorem drain_answer (hhello : plan.clientHello.isSome) (sent : Bytes) :
    drainFaketlsServerHello (answer ++ sent) = (true, sent) := by
  have hgreets := o.greets
  generalize plan.clientHello = hello, cfg.domain = domain at hgreets hhello
  cases hgreets with
  | plain => cases hhello
  | faketls _ _ hdrain => exact hdrain sent

/-- The ClientHello is read and answered, if there is one. -/
theorem answer_hello (hhello : plan.clientHello.isSome) :
    ∃ hello record domain, plan.clientHello = some hello ∧ cfg.domain = some domain ∧
      answerClientHello cfg.hmac cfg.helloDraws cfg.secrets domain record = some answer ∧
      ∀ sent, readTlsRecord tlsReadBufLen (hello ++ sent) = (some record, sent) := by
  have hgreets := o.greets
  generalize plan.clientHello = hello, cfg.domain = domain at hgreets hhello
  cases hgreets with
  | plain => cases hhello
  | faketls hread hanswer _ => exact ⟨_, _, _, rfl, rfl, hanswer, hread⟩

/-- The near proxy sends the ClientHello. -/
theorem Invariant.sendsHello (h : Invariant cfg plan answer info key c) {p : UpstreamPlan}
    {hello : Bytes} (hnear : c.near = .connecting) (hplan : cfg.plan = .ok (some p))
    (hhello : p.clientHello = some hello) :
    Invariant cfg plan answer info key
      { c with near := .awaitingHello p, up := c.up.write hello } := by
  obtain rfl := plan_unique o hplan
  have hwritten := h.nearWrites
  have hreads := h.nearReads
  rw [hnear] at hwritten hreads
  have hnil : c.up.written = [] := hwritten
  refine ⟨⟨rfl, ?_⟩, h.farWrites, hreads, h.farReads.write hello⟩
  rw [hhello]
  change some hello = some (c.up.written ++ hello)
  rw [hnil, List.nil_append]

theorem Invariant.sendsHandshake (h : Invariant cfg plan answer info key c) {p : UpstreamPlan}
    (hnear : c.near = .connecting) (hplan : cfg.plan = .ok (some p))
    (hhello : p.clientHello = none) :
    Invariant cfg plan answer info key
      { c with near := .relaying p (p.session cfg), up := c.up.write p.init } := by
  obtain rfl := plan_unique o hplan
  have hwritten := h.nearWrites
  have hreads := h.nearReads
  rw [hnear] at hwritten hreads
  refine h.relays ?_ rfl ?_
  · rw [hhello]
    exact hwritten
  · have hgreets := o.greets
    rw [hhello] at hgreets
    have hnil : answer = [] := by
      generalize cfg.domain = domain at hgreets
      cases hgreets
      rfl
    rw [hnil]
    exact hreads.symm

/-- The near proxy has its answer. -/
theorem Invariant.drains (h : Invariant cfg plan answer info key c) {p : UpstreamPlan}
    {arrived behind rest : Bytes} (hnear : c.near = .awaitingHello p)
    (hflight : c.down.flight = arrived ++ behind)
    (hdrain : drainFaketlsServerHello arrived = (true, rest)) :
    Invariant cfg plan answer info key { c with
      near := .relaying p (p.session cfg)
      up := c.up.write p.init
      down := ⟨c.down.written, rest ++ behind⟩ } := by
  have hwrites := h.nearWrites
  have hreads := h.nearReads
  rw [hnear] at hwrites hreads
  obtain ⟨rfl, hhello⟩ := hwrites
  obtain ⟨more, sent, hall⟩ := h.farWrites.begins
  have hflight' : c.down.written = arrived ++ behind := Eq.trans (Eq.symm hreads) hflight
  rw [hflight'] at hall
  obtain ⟨-, hrest⟩ := rest_of_read (drainFaketlsServerHello_stable hdrain) hall
    (drain_answer o (by rw [hhello]; rfl) sent)
  refine h.relays ?_ rfl ?_
  · rw [hhello]
    rfl
  · exact hflight'.trans hrest

/-- The near proxy does not fail. -/
theorem Invariant.near_not_rejects (h : Invariant cfg plan answer info key c)
    (hreject : (c.near = .connecting ∧ ∀ plan, cfg.plan ≠ .ok (some plan)) ∨
      (∃ plan arrived behind, c.near = .awaitingHello plan ∧ c.down.flight = arrived ++ behind ∧
        ∀ more, (drainFaketlsServerHello (arrived ++ more)).1 = false)) : False := by
  rcases hreject with ⟨-, hplan⟩ | ⟨p, arrived, behind, hnear, hflight, hfails⟩
  · exact hplan plan o.plan_eq
  have hwrites := h.nearWrites
  have hreads := h.nearReads
  rw [hnear] at hwrites hreads
  obtain ⟨rfl, hhello⟩ := hwrites
  obtain ⟨more, sent, hall⟩ := h.farWrites.begins
  have hflight' : c.down.written = arrived ++ behind := Eq.trans (Eq.symm hreads) hflight
  rw [hflight'] at hall
  cases fails_of_read hfails hall (drain_answer o (by rw [hhello]; rfl) sent)

/-- What a far proxy finds that has not read anything. -/
theorem Invariant.hello_arrived (h : Invariant cfg plan answer info key c) {arrived behind : Bytes}
    (hfar : c.far = .awaitingHello) (hflight : c.up.flight = arrived ++ behind) :
    c.up.written = arrived ++ behind ∧ ∃ hello record domain more sent,
      plan.clientHello = some hello ∧ cfg.domain = some domain ∧
      answerClientHello cfg.hmac cfg.helloDraws cfg.secrets domain record = some answer ∧
      arrived ++ behind ++ more = hello ++ sent ∧
      readTlsRecord tlsReadBufLen (hello ++ sent) = (some record, sent) := by
  have hreads := h.farReads
  rw [hfar] at hreads
  obtain ⟨hsome, hsame⟩ := hreads
  have hwritten : c.up.written = arrived ++ behind := hsame.symm.trans hflight
  obtain ⟨more, sent, hall⟩ := h.nearWrites.begins
  obtain ⟨hello, record, domain, hhello, hdomain, hanswer, hread⟩ := answer_hello o hsome
  rw [hwritten, UpstreamPlan.preface, hhello, List.append_assoc _ plan.init] at hall
  exact ⟨hwritten, hello, record, domain, more, _, hhello, hdomain, hanswer, hall, hread _⟩

/-- The far proxy answers. -/
theorem Invariant.answers (h : Invariant cfg plan answer info key c) {domain : Host}
    {record : UInt8 × Bytes × Bytes} {arrived behind rest serverHello : Bytes}
    (hfar : c.far = .awaitingHello) (hdomain : cfg.domain = some domain)
    (hflight : c.up.flight = arrived ++ behind)
    (hread : readTlsRecord tlsReadBufLen arrived = (some record, rest))
    (hanswer : answerClientHello cfg.hmac cfg.helloDraws cfg.secrets domain record =
      some serverHello) :
    Invariant cfg plan answer info key { c with
      far := .awaitingInit
      up := ⟨c.up.written, rest ++ behind⟩
      down := c.down.write serverHello } := by
  obtain ⟨hwritten, hello, record', domain', more, sent, hhello, hdomain', hanswer', hall,
    hread'⟩ := h.hello_arrived o hfar hflight
  obtain ⟨hrecord, hrest⟩ := rest_of_read (readTlsRecord_stable hread) hall hread'
  obtain rfl := Option.some.inj hrecord
  obtain rfl := Option.some.inj (hdomain.symm.trans hdomain')
  obtain rfl := Option.some.inj (hanswer.symm.trans hanswer')
  have hfarWrites := h.farWrites
  rw [hfar] at hfarWrites
  have hnil : c.down.written = [] := hfarWrites
  refine ⟨h.nearWrites, ?_, h.nearReads.write serverHello, ?_⟩
  · change c.down.written ++ serverHello = serverHello
    rw [hnil, List.nil_append]
  · change c.up.written = plan.clientHello.getD [] ++ (rest ++ behind)
    rw [hwritten, hrest, hhello]
    rfl

/-- The far proxy accepts the handshake. -/
theorem Invariant.accepts (h : Invariant cfg plan answer info key c) {handshake : Block 64}
    {i : HandshakeInfo} {secret arrived behind rest pending : Bytes}
    (hfar : c.far = .awaitingInit) (hflight : c.up.flight = arrived ++ behind)
    (hread : cfg.readOpening arrived = (some (handshake, pending), rest))
    (haccept : acceptHandshake cfg.P cfg.secrets handshake = some (i, secret)) :
    Invariant cfg plan answer info key { c with
      far := .dialing i secret pending
      up := ⟨c.up.written, rest ++ behind⟩ } := by
  obtain ⟨hwritten, more, sent, hall⟩ := h.init_arrived hfar hflight
  obtain ⟨hfound, hrest⟩ := rest_of_read (cfg.readOpening_stable hread) hall
    (o.readOpening_init sent)
  obtain ⟨rfl, rfl⟩ := Prod.mk.inj (Option.some.inj hfound)
  obtain ⟨rfl, rfl⟩ := Prod.mk.inj (Option.some.inj (haccept.symm.trans o.accepted))
  have hfarWrites := h.farWrites
  rw [hfar] at hfarWrites
  refine ⟨h.nearWrites, hfarWrites, h.nearReads, ⟨rfl, rfl, rfl⟩, ?_⟩
  change c.up.written = plan.preface ++ (rest ++ behind)
  rw [hwritten, hrest, UpstreamPlan.preface, List.append_assoc]

/-- The far proxy does not reject anything. -/
theorem Invariant.far_not_rejects (h : Invariant cfg plan answer info key c)
    (hreject : (∃ arrived behind, c.far = .awaitingHello ∧ c.up.flight = arrived ++ behind ∧
        ((∃ domain record rest, cfg.domain = some domain ∧
          readTlsRecord tlsReadBufLen arrived = (some record, rest) ∧
          answerClientHello cfg.hmac cfg.helloDraws cfg.secrets domain record = none) ∨
        ∀ more, (readTlsRecord tlsReadBufLen (arrived ++ more)).1 = none)) ∨
      (∃ arrived behind, c.far = .awaitingInit ∧ c.up.flight = arrived ++ behind ∧
        ((∃ handshake pending rest, cfg.readOpening arrived = (some (handshake, pending), rest) ∧
          acceptHandshake cfg.P cfg.secrets handshake = none) ∨
        ∀ more, (cfg.readOpening (arrived ++ more)).1 = none))) : False := by
  rcases hreject with ⟨arrived, behind, hfar, hflight, hcause⟩ |
    ⟨arrived, behind, hfar, hflight, hcause⟩
  · obtain ⟨-, hello, record, domain, more, sent, -, hdomain, hanswer, hall, hread⟩ :=
      h.hello_arrived o hfar hflight
    rcases hcause with ⟨domain', record', rest, hdomain', hread', hanswer'⟩ | hfails
    · obtain ⟨hrecord, -⟩ := rest_of_read (readTlsRecord_stable hread') hall hread
      obtain rfl := Option.some.inj hrecord
      obtain rfl := Option.some.inj (hdomain.symm.trans hdomain')
      rw [hanswer] at hanswer'
      cases hanswer'
    · cases fails_of_read hfails hall hread
  · obtain ⟨-, more, sent, hall⟩ := h.init_arrived hfar hflight
    rcases hcause with ⟨handshake, pending, rest, hread, haccept⟩ | hfails
    · obtain ⟨hfound, -⟩ := rest_of_read (cfg.readOpening_stable hread) hall
        (o.readOpening_init sent)
      obtain ⟨rfl, rfl⟩ := Prod.mk.inj (Option.some.inj hfound)
      rw [o.accepted] at haccept
      cases haccept
    · cases fails_of_read hfails hall (o.readOpening_init sent)

/-- An event of the near session. -/
theorem Invariant.nearMoves (h : Invariant cfg plan answer info key c) {p : UpstreamPlan}
    {s s' : Session} {e : TaskEvent p.kind} {down : Wire} (hnear : c.near = .relaying p s)
    (hstep : s.step cfg.P p.kind cfg.client e = some s')
    (hdeliver : c.down.Delivers p.kind.framing e.fromUpstream down) :
    Invariant cfg plan answer info key { c with
      near := .relaying p s'
      up := c.up.write (s.sentUp s')
      down := down } := by
  have hwrites := h.nearWrites
  have hreads := h.nearReads
  rw [hnear] at hwrites hreads
  obtain ⟨rfl, hwritten, hinv⟩ := hwrites
  obtain ⟨sent, hflows⟩ := hreads
  rw [o.framing_eq] at hdeliver
  refine ⟨⟨rfl, ?_, Session.step_invariant hinv hstep⟩, ?_, ⟨sent, ?_⟩,
    h.farReads.write (s.sentUp s')⟩
  · change c.up.written ++ s.sentUp s' = _
    rw [hwritten, Session.step_sentUp hstep, List.append_assoc]
  · exact hdeliver.written ▸ h.farWrites
  · rw [(Session.step_reads hstep).2]
    have hframed := h.farWrites
    rw [hflows.written] at hframed
    exact hflows.deliver hframed.framed hdeliver

/-- An event of the far session. -/
theorem Invariant.farMoves (h : Invariant cfg plan answer info key c) {leg : Leg}
    {pending pending' : Bytes} {s s' : Session} {e : TaskEvent leg.kind} {up : Wire}
    (hfar : c.far = .bridging leg pending s)
    (hstep : s.step cfg.P leg.kind cfg.framing e = some s')
    (hdeliver : ClientDelivers cfg.framing pending c.up e.fromClient pending' up) :
    Invariant cfg plan answer info key { c with
      far := .bridging leg pending' s'
      up := up
      down := c.down.write (s.sentDown s') } := by
  have hwrites := h.farWrites
  have hreads := h.farReads
  rw [hfar] at hwrites hreads
  obtain ⟨hwritten, hinv⟩ := hwrites
  obtain ⟨⟨hinfo, hkey, rfl⟩, sent, hflows⟩ := hreads
  obtain ⟨hpending, hdeliver⟩ := hdeliver.of_nil
  refine ⟨?_, ⟨?_, Session.step_invariant hinv hstep⟩, h.nearReads.write (s.sentDown s'),
    ⟨hinfo, hkey, hpending⟩, sent, ?_⟩
  · exact hdeliver.written ▸ h.nearWrites
  · change c.down.written ++ s.sentDown s' = _
    rw [hwritten, Session.step_sentDown hstep, List.append_assoc]
  · rw [(Session.step_reads hstep).1]
    have hframed := h.nearWrites
    rw [hflows.written] at hframed
    exact hflows.deliver (o.framing_eq ▸ hframed.framed) hdeliver

/-- **The step lemma.** -/
theorem step_invariant (h : Invariant cfg plan answer info key c) (hstep : Step cfg c c') :
    Invariant cfg plan answer info key c' := by
  cases hstep with
  | sendsHello hnear hplan hhello => exact h.sendsHello o hnear hplan hhello
  | sendsHandshake hnear hplan hhello => exact h.sendsHandshake o hnear hplan hhello
  | drains hnear hflight hdrain => exact h.drains o hnear hflight hdrain
  | nearRejects hreject => exact (h.near_not_rejects o hreject).elim
  | answers hfar hdomain hflight hread hanswer =>
    exact h.answers o hfar hdomain hflight hread hanswer
  | accepts hfar hflight hread haccept => exact h.accepts o hfar hflight hread haccept
  | farRejects hreject => exact (h.far_not_rejects o hreject).elim
  | dials hfar _ => exact h.dials hfar _ _ _
  | nearMoves hnear hmove hdeliver => exact h.nearMoves o hnear hmove hdeliver
  | farMoves hfar hmove hdeliver => exact h.farMoves o hfar hmove hdeliver

/-- Nothing has been sent yet. -/
theorem invariant_start : Invariant cfg plan answer info key (start cfg) := by
  have hgreets := o.greets
  refine ⟨rfl, ?_, rfl, ?_⟩
  · rw [start]
    generalize plan.clientHello = hello, cfg.domain = domain at hgreets
    cases hgreets <;> rfl
  · rw [start]
    generalize hplan : plan.clientHello = hello, hdomain : cfg.domain = domain at hgreets
    cases hgreets with
    | plain =>
      change [] = plan.clientHello.getD [] ++ []
      rw [hplan]
      rfl
    | faketls => exact ⟨by rw [hplan]; rfl, rfl⟩

/-- **The run lemma.** -/
theorem run_invariant (hreach : Reaches cfg (start cfg) c) :
    Invariant cfg plan answer info key c := by
  induction hreach with
  | refl => exact invariant_start o
  | tail _ hstep ih => exact step_invariant o ih hstep

end Steps

end Chain

end TgWsProxy
