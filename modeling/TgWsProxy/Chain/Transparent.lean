import TgWsProxy.Chain.Invariant
import TgWsProxy.Crypto.Reference

set_option relaxedAutoImplicit false
set_option autoImplicit false

/-!
# Two linked proxies are one

The handshakes between two linked proxies cannot fail unless the network does, and they can always
be completed. Behind them the pair forwards what one proxy would: the far proxy sends to Telegram
what the client of the near one sent, and the other way round.

## Main results

* `TgWsProxy.Chain.run_accepts` — nothing is rejected, and the handshakes are those of the source.
* `TgWsProxy.Chain.run_completes` — there is no deadlock before the session.
* `TgWsProxy.Chain.pair_transparent` — both proxies together lose, duplicate and reorder nothing.
-/

namespace TgWsProxy

/-- How far the near proxy has got. -/
def NearPhase.stage : NearPhase → ℕ
  | .connecting => 0
  | .awaitingHello _ => 1
  | .relaying _ _ => 2
  | .rejected => 0

/-- How far the far proxy has got. -/
def FarPhase.stage : FarPhase → ℕ
  | .awaitingHello => 0
  | .awaitingInit => 1
  | .dialing _ _ _ => 2
  | .bridging _ _ _ => 3
  | .rejected => 0

namespace Chain

variable {cfg : ChainConfig} {plan : UpstreamPlan} {answer : Bytes} {info : HandshakeInfo}
  {key : Bytes} {c : Chain}

/-! ## The handshakes of the source -/

/-- What `connect_mtproto_upstream` makes of everything that came from the far proxy. -/
theorem connect_of_opening (o : Opening cfg plan answer info key) (sent : Bytes) :
    connectMtprotoUpstream cfg.P cfg.hex cfg.hmac cfg.draws true (fun _ => true) cfg.secretHex
      cfg.dcIdx cfg.proto (answer ++ sent) =
        .ok (some ⟨sent, plan.preface, plan.enc, plan.dec, plan.clientHello.isSome⟩) := by
  have hplan := o.plan_eq
  rw [ChainConfig.plan] at hplan
  rw [connectMtprotoUpstream_eq, hplan]
  have hgreets := o.greets
  cases hhello : plan.clientHello with
  | none =>
    rw [hhello] at hgreets
    generalize cfg.domain = domain at hgreets
    cases hgreets
    simp only [bind, Except.bind, pure, Except.pure, hhello, Bool.not_true, Bool.false_eq_true,
      if_false]
    rfl
  | some hello =>
    have hdrain := drain_answer o (by rw [hhello]; rfl) sent
    simp only [bind, Except.bind, pure, Except.pure, hhello, hdrain, Bool.not_true,
      Bool.false_eq_true, if_false]
    rfl

/-- What `read_inbound_handshake` makes of everything that came from the near proxy. -/
theorem inbound_of_opening (o : Opening cfg plan answer info key) (sent : Bytes) :
    readInboundHandshake cfg.hmac cfg.helloDraws true cfg.secrets cfg.domain
      (plan.preface ++ sent) = ⟨some (plan.handshake, []), sent, answer⟩ := by
  have hinit := o.readOpening_init sent
  have hgreets := o.greets
  unfold readInboundHandshake UpstreamPlan.preface
  unfold ChainConfig.readOpening at hinit
  generalize plan.clientHello = hello, cfg.domain = domain, plan.init = init at hgreets hinit
  cases hgreets with
  | plain =>
    have hopening : (none : Option Bytes).getD [] ++ init ++ sent = init ++ sent := rfl
    rw [hopening]
    simp only [hinit]
  | @faketls hello answer domain record hread hanswer hdrain =>
    have hopening : (some hello).getD [] ++ init ++ sent = hello ++ (init ++ sent) :=
      List.append_assoc _ _ _
    simp only [hopening, acceptInboundFaketls_eq, hread, hanswer, hinit, Bool.not_true,
      Bool.false_eq_true, if_false]

/-! ## No deadlock -/

/-- How far both have got. -/
def stage (c : Chain) : ℕ := c.near.stage + c.far.stage

/-- Both handshakes are over. -/
def Bridged (c : Chain) : Prop :=
  ∃ plan s leg pending t, c.near = .relaying plan s ∧ c.far = .bridging leg pending t

/-- A far proxy that has not read a ClientHello can answer it, once it has been written. -/
theorem Invariant.can_answer (o : Opening cfg plan answer info key)
    (h : Invariant cfg plan answer info key c) (hfar : c.far = .awaitingHello)
    (hnear : c.near ≠ .connecting) : ∃ c', Step cfg c c' ∧ stage c < stage c' := by
  have hwrites := h.nearWrites
  have hreads := h.farReads
  rw [hfar] at hreads
  obtain ⟨hsome, hflight⟩ := hreads
  obtain ⟨hello, record, domain, hhello, hdomain, hanswer, hread⟩ := answer_hello o hsome
  obtain ⟨sent, hwritten⟩ : ∃ sent, c.up.written = hello ++ sent := by
    cases hphase : c.near with
    | connecting => exact absurd hphase hnear
    | awaitingHello p =>
      rw [hphase] at hwrites
      refine ⟨[], ?_⟩
      rw [List.append_nil]
      exact (Option.some.inj (hhello.symm.trans hwrites.2)).symm
    | relaying p s =>
      rw [hphase] at hwrites
      refine ⟨plan.init ++ s.up.sent.flatten, ?_⟩
      rw [hwrites.2.1, UpstreamPlan.preface, hhello, List.append_assoc]
      rfl
    | rejected =>
      rw [hphase] at hwrites
      exact hwrites.elim
  have harrived : c.up.flight = hello ++ sent ++ [] := by
    rw [List.append_nil, hflight, hwritten]
  refine ⟨_, .answers hfar hdomain harrived (hread sent) hanswer, ?_⟩
  · change c.near.stage + c.far.stage < c.near.stage + 1
    rw [hfar]
    exact Nat.lt_succ_self _

/-- **Until both handshakes are over, one of the parties can go on.** -/
theorem Invariant.progress (o : Opening cfg plan answer info key)
    (h : Invariant cfg plan answer info key c) (hopen : ¬ Bridged c) :
    ∃ c', Step cfg c c' ∧ stage c < stage c' := by
  have hwrites := h.nearWrites
  have hreads := h.nearReads
  cases hnear : c.near with
  | connecting =>
    have hzero : c.near.stage = 0 := by rw [hnear]; rfl
    cases hhello : plan.clientHello with
    | none =>
      refine ⟨_, .sendsHandshake hnear o.plan_eq hhello, ?_⟩
      change c.near.stage + c.far.stage < 2 + c.far.stage
      omega
    | some hello =>
      refine ⟨_, .sendsHello hnear o.plan_eq hhello, ?_⟩
      change c.near.stage + c.far.stage < 1 + c.far.stage
      omega
  | awaitingHello p =>
    have hone : c.near.stage = 1 := by rw [hnear]; rfl
    rw [hnear] at hwrites hreads
    obtain ⟨rfl, hhello⟩ := hwrites
    by_cases hfar : c.far = .awaitingHello
    · exact h.can_answer o hfar (by rw [hnear]; nofun)
    · -- the answer has been written, and nothing of it has been read
      obtain ⟨sent, hwritten⟩ : ∃ sent, c.down.written = answer ++ sent := by
        have hanswered := h.farWrites
        cases hphase : c.far with
        | awaitingHello => exact absurd hphase hfar
        | rejected =>
          rw [hphase] at hanswered
          exact hanswered.elim
        | bridging leg pending s =>
          rw [hphase] at hanswered
          exact ⟨_, hanswered.1⟩
        | _ =>
          rw [hphase] at hanswered
          exact ⟨[], hanswered.trans (List.append_nil _).symm⟩
      have hdrain := drain_answer o (by rw [hhello]; rfl) sent
      have harrived : c.down.flight = answer ++ sent ++ [] := by
        rw [List.append_nil, ← hwritten]
        exact hreads
      refine ⟨_, .drains hnear harrived hdrain, ?_⟩
      · change c.near.stage + c.far.stage < 2 + c.far.stage
        omega
  | relaying p s =>
    rw [hnear] at hwrites
    obtain ⟨rfl, hwritten, -⟩ := hwrites
    have hfarReads := h.farReads
    cases hfar : c.far with
    | awaitingHello => exact h.can_answer o hfar (by rw [hnear]; nofun)
    | awaitingInit =>
      rw [hfar] at hfarReads
      have harrived : c.up.flight = p.init ++ s.up.sent.flatten ++ [] := by
        rw [UpstreamPlan.preface, List.append_assoc] at hwritten
        rw [List.append_nil]
        exact List.append_cancel_left (hfarReads.symm.trans hwritten)
      refine ⟨_, .accepts hfar harrived (o.readOpening_init _) o.accepted, ?_⟩
      change c.near.stage + c.far.stage < c.near.stage + 2
      rw [hfar]
      exact Nat.lt_succ_self _
    | dialing i k pending =>
      have hdraw : generateRelayInit cfg.P i.proto i.dcIdx
          [(Reference.sampleDraw, ⟨[0, 0], rfl⟩)] = some (relayInitOf cfg.P i.proto i.dcIdx
            Reference.sampleDraw ⟨[0, 0], rfl⟩) := by
        rw [generateRelayInit, List.find?_cons_of_pos (by decide)]
        rfl
      set leg : Leg := ⟨i, k, .tcp, _, (p.enc, p.dec)⟩
      refine ⟨{ c with far := .bridging leg pending (leg.session cfg.P) }, .dials hfar hdraw, ?_⟩
      change c.near.stage + c.far.stage < c.near.stage + 3
      rw [hfar]
      exact Nat.lt_succ_self _
    | bridging leg pending t => exact absurd ⟨p, s, leg, pending, t, hnear, hfar⟩ hopen
    | rejected =>
      rw [hfar] at hfarReads
      exact hfarReads.elim
  | rejected =>
    rw [hnear] at hwrites
    exact hwrites.elim

theorem stage_le (c : Chain) : stage c ≤ 5 := by
  have hnear : c.near.stage ≤ 2 := by cases c.near <;> simp [NearPhase.stage]
  have hfar : c.far.stage ≤ 3 := by cases c.far <;> simp [FarPhase.stage]
  exact Nat.add_le_add hnear hfar

/-- The handshakes can be completed. -/
theorem completes (o : Opening cfg plan answer info key) (n : ℕ) {c : Chain}
    (hreach : Reaches cfg (start cfg) c) (hstage : 5 ≤ stage c + n) :
    ∃ c', Reaches cfg c c' ∧ Bridged c' := by
  induction n generalizing c with
  | zero =>
    by_contra hnone
    obtain ⟨c', -, hlt⟩ := (run_invariant o hreach).progress o fun hb => hnone ⟨c, .refl, hb⟩
    have hle := stage_le c'
    omega
  | succ n ih =>
    by_cases hb : Bridged c
    · exact ⟨c, .refl, hb⟩
    · obtain ⟨c', hstep, hlt⟩ := (run_invariant o hreach).progress o hb
      obtain ⟨c'', hrest, hb'⟩ := ih (hreach.tail hstep) (by omega)
      exact ⟨c'', .head hstep hrest, hb'⟩

/-- Linked proxies get to their sessions. -/
theorem exists_bridged (cfg : ChainConfig) {i : ℕ} {secret : Host} (hlinked : cfg.Linked i secret) :
    ∃ c, Reaches cfg (start cfg) c ∧ Bridged c := by
  obtain ⟨plan, answer, info, key, o⟩ := hlinked.opening
  exact completes o 5 .refl (Nat.le_add_left 5 _)

/-- The ciphers towards the client do not depend on the bridge. -/
theorem sessionCiphers_client (P : Primitives) (kind : SessionKind) (prekeyAndIv : Block 48)
    (secret : Bytes) (relayInit : Block 64) (conn : AesCtr256 × AesCtr256) :
    (sessionCiphers P kind prekeyAndIv secret relayInit conn).cltDec =
        (buildConnectionCiphers P prekeyAndIv secret relayInit).cltDec ∧
      (sessionCiphers P kind prekeyAndIv secret relayInit conn).cltEnc =
        (buildConnectionCiphers P prekeyAndIv secret relayInit).cltEnc := by
  cases kind <;> exact ⟨rfl, rfl⟩

/-- The ciphers of the near proxy. -/
def nearCiphers (cfg : ChainConfig) (plan : UpstreamPlan) : ConnectionCiphers :=
  sessionCiphers cfg.P plan.kind cfg.prekeyAndIv cfg.clientSecret cfg.relayInit (plan.enc, plan.dec)

/-- What the near proxy encrypts the far one decrypts, and the other way round. -/
theorem ciphers_agree (o : Opening cfg plan answer info key) {leg : Leg}
    (hinfo : leg.info = info) (hkey : leg.secret = key) :
    (leg.ciphers cfg.P).cltDec = (nearCiphers cfg plan).tgEnc ∧
      (leg.ciphers cfg.P).cltEnc = (nearCiphers cfg plan).tgDec := by
  obtain ⟨henc, hdec⟩ := o.ciphers leg.relayInit
  obtain ⟨hcltDec, hcltEnc⟩ := sessionCiphers_client cfg.P leg.kind leg.info.prekeyAndIv leg.secret
    leg.relayInit leg.conn
  rw [hinfo, hkey] at hcltDec hcltEnc
  refine ⟨?_, ?_⟩
  · rw [Leg.ciphers, hinfo, hkey, hcltDec, ← henc]
    rfl
  · rw [Leg.ciphers, hinfo, hkey, hcltEnc, ← hdec]
    rfl

/-- What both sessions have between them. -/
theorem Invariant.sessions (o : Opening cfg plan answer info key)
    (h : Invariant cfg plan answer info key c) {p : UpstreamPlan} {s t : Session} {leg : Leg}
    {pending : Bytes} (hnear : c.near = .relaying p s) (hfar : c.far = .bridging leg pending t) :
    p = plan ∧ leg.info = info ∧ leg.secret = key ∧
      Session.Invariant cfg.P plan.kind cfg.client (plan.session cfg) s ∧
      Session.Invariant cfg.P leg.kind cfg.framing (leg.session cfg.P) t ∧
      c.up.Flows cfg.framing plan.preface s.up.sent.flatten t.up.reads ∧
      c.down.Flows cfg.framing answer t.down.sent.flatten s.down.reads := by
  have hnearWrites := h.nearWrites
  have hfarWrites := h.farWrites
  have hnearReads := h.nearReads
  have hfarReads := h.farReads
  rw [hnear] at hnearWrites hnearReads
  rw [hfar] at hfarWrites hfarReads
  obtain ⟨rfl, hup, hs⟩ := hnearWrites
  obtain ⟨hdown, ht⟩ := hfarWrites
  obtain ⟨sentDown, hflowsDown⟩ := hnearReads
  obtain ⟨⟨hinfo, hkey, -⟩, sentUp, hflowsUp⟩ := hfarReads
  obtain rfl := List.append_cancel_left (hflowsUp.written.symm.trans hup)
  obtain rfl := List.append_cancel_left (hflowsDown.written.symm.trans hdown)
  exact ⟨rfl, hinfo, hkey, hs, ht, hflowsUp, hflowsDown⟩

/-- **Two linked proxies are one.** In every state that the pair can reach with both sessions
open, whatever way the far one has found to Telegram, however its steps and those of the near one
interleave, and wherever either session was stopped: what has gone to Telegram decrypts to a prefix
of what the near client sent, and what has gone to the client to a prefix of what Telegram sent.
When nothing is in flight and everything read has been counted, it is all of it, except for an
MTProto packet towards Telegram that is not complete yet.

**Proof sketch.** Each session forwards what it reads (`Session.Invariant.forwards_up`), the far
one reads what the near one sends (`Wire.Flows.payload`), and the cipher between them is the same
(`ciphers_agree`). -/
theorem pair_transparent (cfg : ChainConfig) (i : ℕ) (secret : Host) (hlinked : cfg.Linked i secret)
    (c : Chain) (hreach : Reaches cfg (start cfg) c) (plan : UpstreamPlan) (s t : Session)
    (leg : Leg) (pending : Bytes) (hnear : c.near = .relaying plan s)
    (hfar : c.far = .bridging leg pending t) :
    let near := nearCiphers cfg plan
    let far := leg.ciphers cfg.P
    let fromClient := xorAt cfg.P near.cltDec near.cltDec.pos s.up.reads.flatten
    let toTelegram := xorAt cfg.P far.tgEnc far.tgEnc.pos
      (leg.kind.framing.payload t.up.sent.flatten)
    let fromTelegram := xorAt cfg.P far.tgDec far.tgDec.pos t.down.reads.flatten
    let toClient := xorAt cfg.P near.cltEnc near.cltEnc.pos
      (cfg.client.payload s.down.sent.flatten)
    toTelegram <+: fromClient ∧ toClient <+: fromTelegram ∧
      (c.up.flight = [] → s.up.reads = s.up.counted → t.up.reads = t.up.counted →
        ∃ gone held, fromClient = gone ++ held ∧ gone <+: toTelegram ∧
          (leg.kind ≠ .ws .packets → held = []) ∧ nextPacketLen cfg.proto held 0 = none) ∧
      (c.down.flight = [] → s.down.reads = s.down.counted → t.down.reads = t.down.counted →
        toClient = fromTelegram) := by
  obtain ⟨plan', answer, info, key, o⟩ := hlinked.opening
  have h := run_invariant o hreach
  obtain ⟨rfl, hinfo, hkey, hs, ht, hup, hdown⟩ := h.sessions o hnear hfar
  obtain ⟨hdec, henc⟩ := ciphers_agree o hinfo hkey
  have hframing := o.framing_eq
  have hsplit := sessionCiphers_split cfg.P leg.kind leg.info.prekeyAndIv leg.secret leg.relayInit
    leg.info.proto leg.conn
  obtain ⟨hupRead, hupAll⟩ := hup.payload
  obtain ⟨hdownRead, hdownAll⟩ := hdown.payload
  rw [← hframing] at hupRead hupAll
  have hnearUp : xorAt cfg.P (nearCiphers cfg plan).tgEnc (nearCiphers cfg plan).tgEnc.pos
      (plan.kind.framing.payload s.up.sent.flatten) <+: _ := hs.forwards_up nofun
  obtain ⟨hnearDown, hnearDown'⟩ := hs.forwards_down
  have hfarUp := ht.forwards_up hsplit
  obtain ⟨hfarDown, hfarDown'⟩ := ht.forwards_down
  have hhopUp : xorAt cfg.P (leg.ciphers cfg.P).cltDec (leg.ciphers cfg.P).cltDec.pos
      t.up.reads.flatten <+: xorAt cfg.P (nearCiphers cfg plan).tgEnc
        (nearCiphers cfg plan).tgEnc.pos (plan.kind.framing.payload s.up.sent.flatten) :=
    hdec ▸ xorAt_prefix hupRead
  have hhopDown : xorAt cfg.P (nearCiphers cfg plan).tgDec (nearCiphers cfg plan).tgDec.pos
      s.down.reads.flatten <+: xorAt cfg.P (leg.ciphers cfg.P).cltEnc
        (leg.ciphers cfg.P).cltEnc.pos (cfg.framing.payload t.down.sent.flatten) :=
    henc ▸ xorAt_prefix hdownRead
  intro near far fromClient toTelegram fromTelegram toClient
  refine ⟨hfarUp.trans (hhopUp.trans hnearUp), hnearDown'.trans (hhopDown.trans hfarDown'),
    fun hflight hcounted hcounted' => ?_, fun hflight hcounted hcounted' => ?_⟩
  · obtain ⟨gone, held, hplain, hgone, hheld, hwait⟩ := ht.countedUp hsplit
    refine ⟨gone, held, ?_, hgone, hheld, by rw [← o.proto_eq, ← hinfo]; exact hwait⟩
    obtain ⟨gone', held', hplain', hgone', hheld', -⟩ := hs.countedUp nofun
    rw [hheld' nofun, List.append_nil, ← hcounted] at hplain'
    -- everything the client sent is on the wire, and everything on the wire has been read
    have hall : fromClient <+: xorAt cfg.P near.tgEnc near.tgEnc.pos
        (plan.kind.framing.payload s.up.sent.flatten) := by
      rw [show fromClient = gone' from hplain']
      exact hgone'
    have hsame : fromClient = xorAt cfg.P near.tgEnc near.tgEnc.pos
        (plan.kind.framing.payload s.up.sent.flatten) :=
      hall.eq_of_length_le hnearUp.length_le
    rw [hsame, ← hupAll hflight, hcounted', ← hplain]
    exact congrArg₂ (fun c pos => xorAt cfg.P c pos t.up.counted.flatten) hdec.symm
      (congrArg AesCtr256.pos hdec.symm)
  · refine List.IsPrefix.eq_of_length_le (hnearDown'.trans (hhopDown.trans hfarDown')) ?_
    -- everything Telegram sent is on the wire, and has been sent to the client
    have hsent : fromTelegram.length ≤ t.down.reads.flatten.length := (length_xorAt _ _ _ _).le
    have hwire := hfarDown.length_le
    have hback := hnearDown.length_le
    simp only [length_xorAt] at hwire hback
    rw [← hcounted] at hback
    rw [← hcounted', ← hdownAll hflight] at hwire
    exact (hsent.trans (hwire.trans hback)).trans (length_xorAt _ _ _ _).ge

/-- For both sessions of a pair that uses FakeTLS. -/
theorem pair_transparent_sample :
    ∃ c plan s leg pending t, Reaches sampleChain (start sampleChain) c ∧
      c.near = .relaying plan s ∧ c.far = .bridging leg pending t ∧
      xorAt Reference.primitives (leg.ciphers Reference.primitives).tgEnc
        (leg.ciphers Reference.primitives).tgEnc.pos
        (leg.kind.framing.payload t.up.sent.flatten) <+:
      xorAt Reference.primitives (nearCiphers sampleChain plan).cltDec
        (nearCiphers sampleChain plan).cltDec.pos s.up.reads.flatten := by
  obtain ⟨c, hreach, plan, s, leg, pending, t, hnear, hfar⟩ :=
    exists_bridged sampleChain sampleChain_linked
  exact ⟨c, plan, s, leg, pending, t, hreach, hnear, hfar, (pair_transparent sampleChain 0 _
    sampleChain_linked c hreach plan s t leg pending hnear hfar).1⟩

end Chain

end TgWsProxy
