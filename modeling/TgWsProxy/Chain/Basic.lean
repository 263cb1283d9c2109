import Mathlib.Logic.Relation
import TgWsProxy.Chain.Wire
import TgWsProxy.Crypto.Relay
import TgWsProxy.Upstream

set_option relaxedAutoImplicit false
set_option autoImplicit false

/-!
# One proxy behind another

The upstream proxy that `--mtproto-proxy` names may be this program. Then `connect_mtproto_upstream`
and `bridge_relay` of the near one talk to `read_inbound_handshake` and a bridge of the far one,
over a connection that delivers what is written to it, later and in other pieces.

## Main definitions

* `TgWsProxy.ChainConfig` — the two proxies.
* `TgWsProxy.Chain` — where each of them stands, and the two directions of the connection.
* `TgWsProxy.Chain.Step` — one step of either.
* `TgWsProxy.ChainConfig.Linked` — the near proxy uses a link that the far one has printed.

## Design

Each step of the handshakes runs one reader of the source on part of what is in flight; a reader
that has not got enough waits. A reader has failed when it fails whatever comes behind what has
arrived. The sessions may see any error at any time. A party that the network cuts off during a
handshake takes no further step.
-/

namespace TgWsProxy

/-! ## The parties -/

/-- A near proxy with an upstream proxy, and a far proxy with a listener. -/
structure ChainConfig where
  P : Primitives
  hex : HexCrate
  hmac : Hmac
  /-- The secret of the upstream proxy. -/
  secretHex : Host
  /-- What the client of the near proxy asked for. -/
  dcIdx : Int16
  proto : ProtoTag
  draws : UpstreamDraws
  /-- The client's side of the near proxy. -/
  client : StreamFraming
  prekeyAndIv : Block 48
  clientSecret : Bytes
  relayInit : Block 64
  /-- The inbound side of the far proxy. -/
  listen : ListenConfig
  helloDraws : HelloDraws

namespace ChainConfig

variable (cfg : ChainConfig)

/-- What the near proxy is going to send. -/
def plan : Except Slices.Panic (Option UpstreamPlan) :=
  upstreamPlan cfg.P cfg.hex cfg.hmac cfg.draws cfg.secretHex cfg.dcIdx cfg.proto

/-- The keys of the far proxy. -/
def secrets : List Bytes := (cfg.listen.secretBytesList cfg.hex).getD []

/-- The camouflage domain of the far proxy. -/
def domain : Option Host := cfg.listen.listenFaketlsDomain cfg.hex

/-- How both directions of the connection carry the session. -/
def framing : StreamFraming := if cfg.domain.isSome then .records else .raw

/-- What the far proxy does to get the init. -/
def readOpening (stream : Bytes) : Option (Block 64 × Bytes) × Bytes :=
  match cfg.domain with
  | some _ => readInit zeroInit 0 stream
  | none => readPlainInit stream

end ChainConfig

namespace UpstreamPlan

/-- The bridge that a plan leads to. -/
def kind (plan : UpstreamPlan) : SessionKind := .relay plan.clientHello.isSome

/-- The session of the near proxy. -/
def session (plan : UpstreamPlan) (cfg : ChainConfig) : Session :=
  .start cfg.P plan.kind cfg.relayInit cfg.proto
    (sessionCiphers cfg.P plan.kind cfg.prekeyAndIv cfg.clientSecret cfg.relayInit
      (plan.enc, plan.dec))

end UpstreamPlan

/-- What the far proxy has accepted, and the way it has found to Telegram. -/
structure Leg where
  info : HandshakeInfo
  secret : Bytes
  kind : SessionKind
  relayInit : Block 64
  conn : AesCtr256 × AesCtr256

namespace Leg

variable (leg : Leg) (P : Primitives)

def ciphers : ConnectionCiphers :=
  sessionCiphers P leg.kind leg.info.prekeyAndIv leg.secret leg.relayInit leg.conn

/-- The session of the far proxy. -/
def session : Session := .start P leg.kind leg.relayInit leg.info.proto (leg.ciphers P)

end Leg

/-- Where the near proxy stands. -/
inductive NearPhase
  | connecting
  | awaitingHello (plan : UpstreamPlan)
  | relaying (plan : UpstreamPlan) (session : Session)
  | rejected

/-- Where the far proxy stands; `pending` is what came behind the init in its record. -/
inductive FarPhase
  | awaitingHello
  | awaitingInit
  | dialing (info : HandshakeInfo) (secret : Bytes) (pending : Bytes)
  | bridging (leg : Leg) (pending : Bytes) (session : Session)
  | rejected

/-- Two proxies and the connection between them. -/
structure Chain where
  near : NearPhase
  far : FarPhase
  up : Wire
  down : Wire

/-! ## The steps -/

/-- `ClientReader::read` of the far proxy: what is pending comes first. -/
inductive ClientDelivers (framing : StreamFraming) :
    Bytes → Wire → Option Bytes → Bytes → Wire → Prop
  | pending {data rest : Bytes} {w : Wire} : data ≠ [] →
      ClientDelivers framing (data ++ rest) w (some data) rest w
  | wire {pending : Bytes} {found : Option Bytes} {w w' : Wire} : pending = [] ∨ found = none →
      w.Delivers framing found w' → ClientDelivers framing pending w found pending w'

namespace Chain

/-- Before anything has been sent. -/
def start (cfg : ChainConfig) : Chain where
  near := .connecting
  far := if cfg.domain.isSome then .awaitingHello else .awaitingInit
  up := .empty
  down := .empty

/-- One step of one of the proxies. -/
inductive Step (cfg : ChainConfig) (c : Chain) : Chain → Prop
  /-- The near proxy writes its ClientHello. -/
  | sendsHello {plan : UpstreamPlan} {hello : Bytes} : c.near = .connecting →
      cfg.plan = .ok (some plan) → plan.clientHello = some hello →
      Step cfg c { c with near := .awaitingHello plan, up := c.up.write hello }
  /-- Without a ClientHello it writes the handshake at once. -/
  | sendsHandshake {plan : UpstreamPlan} : c.near = .connecting →
      cfg.plan = .ok (some plan) → plan.clientHello = none →
      Step cfg c
        { c with near := .relaying plan (plan.session cfg), up := c.up.write plan.init }
  /-- `drain_faketls_server_hello` returns `true`. -/
  | drains {plan : UpstreamPlan} {arrived behind rest : Bytes} : c.near = .awaitingHello plan →
      c.down.flight = arrived ++ behind → drainFaketlsServerHello arrived = (true, rest) →
      Step cfg c { c with
        near := .relaying plan (plan.session cfg)
        up := c.up.write plan.init
        down := ⟨c.down.written, rest ++ behind⟩ }
  /-- `connect_mtproto_upstream` fails. -/
  | nearRejects : (c.near = .connecting ∧ ∀ plan, cfg.plan ≠ .ok (some plan)) ∨
      (∃ plan arrived behind, c.near = .awaitingHello plan ∧ c.down.flight = arrived ++ behind ∧
        ∀ more, (drainFaketlsServerHello (arrived ++ more)).1 = false) →
      Step cfg c { c with near := .rejected }
  /-- The far proxy answers a ClientHello. -/
  | answers {domain : Host} {record : UInt8 × Bytes × Bytes}
      {arrived behind rest serverHello : Bytes} : c.far = .awaitingHello →
      cfg.domain = some domain → c.up.flight = arrived ++ behind →
      readTlsRecord tlsReadBufLen arrived = (some record, rest) →
      answerClientHello cfg.hmac cfg.helloDraws cfg.secrets domain record = some serverHello →
      Step cfg c { c with
        far := .awaitingInit
        up := ⟨c.up.written, rest ++ behind⟩
        down := c.down.write serverHello }
  /-- It has the init, and one of its keys accepts it. -/
  | accepts {handshake : Block 64} {info : HandshakeInfo}
      {secret arrived behind rest pending : Bytes} : c.far = .awaitingInit →
      c.up.flight = arrived ++ behind →
      cfg.readOpening arrived = (some (handshake, pending), rest) →
      acceptHandshake cfg.P cfg.secrets handshake = some (info, secret) →
      Step cfg c { c with
        far := .dialing info secret pending
        up := ⟨c.up.written, rest ++ behind⟩ }
  /-- The far proxy rejects a first record, or cannot read one; or it does so with the init. -/
  | farRejects : (∃ arrived behind, c.far = .awaitingHello ∧ c.up.flight = arrived ++ behind ∧
        ((∃ domain record rest, cfg.domain = some domain ∧
          readTlsRecord tlsReadBufLen arrived = (some record, rest) ∧
          answerClientHello cfg.hmac cfg.helloDraws cfg.secrets domain record = none) ∨
        ∀ more, (readTlsRecord tlsReadBufLen (arrived ++ more)).1 = none)) ∨
      (∃ arrived behind, c.far = .awaitingInit ∧ c.up.flight = arrived ++ behind ∧
        ((∃ handshake pending rest, cfg.readOpening arrived = (some (handshake, pending), rest) ∧
          acceptHandshake cfg.P cfg.secrets handshake = none) ∨
        ∀ more, (cfg.readOpening (arrived ++ more)).1 = none)) →
      Step cfg c { c with far := .rejected }
  /-- It has found a way to Telegram. -/
  | dials {info : HandshakeInfo} {secret pending : Bytes} {kind : SessionKind}
      {draws : List (Block 64 × Block 2)} {relayInit : Block 64} {conn : AesCtr256 × AesCtr256} :
      c.far = .dialing info secret pending →
      generateRelayInit cfg.P info.proto info.dcIdx draws = some relayInit →
      Step cfg c { c with
        far := .bridging ⟨info, secret, kind, relayInit, conn⟩ pending
          (Leg.session ⟨info, secret, kind, relayInit, conn⟩ cfg.P) }
  /-- An event of the near session. -/
  | nearMoves {plan : UpstreamPlan} {s s' : Session} {e : TaskEvent plan.kind} {down : Wire} :
      c.near = .relaying plan s → s.step cfg.P plan.kind cfg.client e = some s' →
      c.down.Delivers plan.kind.framing e.fromUpstream down →
      Step cfg c { c with
        near := .relaying plan s'
        up := c.up.write (s.sentUp s')
        down := down }
  /-- An event of the far session. -/
  | farMoves {leg : Leg} {pending pending' : Bytes} {s s' : Session} {e : TaskEvent leg.kind}
      {up : Wire} : c.far = .bridging leg pending s →
      s.step cfg.P leg.kind cfg.framing e = some s' →
      ClientDelivers cfg.framing pending c.up e.fromClient pending' up →
      Step cfg c { c with
        far := .bridging leg pending' s'
        up := up
        down := c.down.write (s.sentDown s') }

/-- Any sequence of steps. -/
def Reaches (cfg : ChainConfig) : Chain → Chain → Prop := Relation.ReflTransGen (Step cfg)

end Chain

/-! ## The link -/

/-- The near proxy uses the link that the far one prints for secret number `i`, and the link works.
The camouflage domain is short enough for a ClientHello in one record. A draw is not rejected, and
no key before that of the secret takes the handshake for its own. -/
structure ChainConfig.Linked (cfg : ChainConfig) (i : ℕ) (secret : Host) : Prop where
  link : cfg.listen.linkSecretFor cfg.hex secret = some cfg.secretHex
  works : LinkWorks cfg.hex cfg.listen i secret
  short : ∀ domain, cfg.domain = some domain → (asBytes domain).length ≤ 16465
  draw : ∃ raw ∈ cfg.draws.handshakes, rejected raw = false
  first : ∀ plan, cfg.plan = .ok (some plan) →
    ∀ key ∈ cfg.secrets.take i, parseHandshake cfg.P plan.handshake key = none

end TgWsProxy
