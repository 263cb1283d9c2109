import TgWsProxy.Chain.Basic

set_option relaxedAutoImplicit false
set_option autoImplicit false

/-!
# What two linked proxies say to each other

A near proxy that uses a working link makes a plan which the far one understands, in each of its
steps.

## Main definitions

* `TgWsProxy.Greets` — the ClientHello and its answer, or neither.
* `TgWsProxy.Opening` — what both handshakes come to.

## Main results

* `TgWsProxy.ChainConfig.Linked.opening` — two linked proxies have an opening.
-/

namespace TgWsProxy

/-- The answer of the far proxy to a ClientHello. Without a camouflage domain there is neither. -/
inductive Greets (cfg : ChainConfig) : Option Bytes → Option Host → Bytes → Prop
  | plain : Greets cfg none none []
  | faketls {hello answer : Bytes} {domain : Host} {record : UInt8 × Bytes × Bytes} :
      (∀ more, readTlsRecord tlsReadBufLen (hello ++ more) = (some record, more)) →
      answerClientHello cfg.hmac cfg.helloDraws cfg.secrets domain record = some answer →
      (∀ rest, drainFaketlsServerHello (answer ++ rest) = (true, rest)) →
      Greets cfg (some hello) (some domain) answer

/-- What both handshakes come to: the near proxy sends `plan`, the far one sends `answer` and
accepts the handshake under `key`. -/
structure Opening (cfg : ChainConfig) (plan : UpstreamPlan) (answer : Bytes) (info : HandshakeInfo)
    (key : Bytes) : Prop where
  plan_eq : cfg.plan = .ok (some plan)
  greets : Greets cfg plan.clientHello cfg.domain answer
  accepted : acceptHandshake cfg.P cfg.secrets plan.handshake = some (info, key)
  dcIdx_eq : info.dcIdx = cfg.dcIdx
  proto_eq : info.proto = cfg.proto
  ciphers : ∀ relayInit, let c := buildConnectionCiphers cfg.P info.prekeyAndIv key relayInit
    plan.enc = c.cltDec ∧ plan.dec = c.cltEnc

namespace ChainConfig.Linked

variable {cfg : ChainConfig} {i : ℕ} {secret : Host}

/-- The first key that accepts a handshake. -/
theorem findSome?_first {α β : Type} {f : α → Option β} {l : List α} {i : ℕ} {a : α} {b : β}
    (ha : l[i]? = some a) (hb : f a = some b) (hfirst : ∀ x ∈ l.take i, f x = none) :
    l.findSome? f = some b := by
  induction l generalizing i with
  | nil => cases ha
  | cons x l ih =>
    cases i with
    | zero =>
      cases ha
      rw [List.findSome?_cons, hb]
    | succ i =>
      rw [List.findSome?_cons, hfirst x (by simp)]
      exact ih ha fun y hy => hfirst y (by simp [hy])

/-- What `answerClientHello` says to a hello that one of the secrets verifies. -/
theorem answerClientHello_verified {hmac : Hmac} (draws : HelloDraws) {secrets : List Bytes}
    {domain : Host} {payload key : Bytes} {hello : FakeTlsClientHello} (hkey : key ∈ secrets)
    (hparse : parseFaketlsClientHello hmac ([tlsRecordHandshake] ++ [0x03, 0x01] ++
      toBeBytes payload.length ++ payload) key = some hello)
    (hhost : hello.hostname = some domain) :
    ∃ answer, answerClientHello hmac draws secrets domain
        (tlsRecordHandshake, [0x03, 0x01], payload) = some answer ∧
      ∀ rest, drainFaketlsServerHello (answer ++ rest) = (true, rest) := by
  obtain ⟨⟨hello', key'⟩, hfind⟩ : ∃ found, (secrets.findSome? fun secret =>
      (parseFaketlsClientHello hmac ([tlsRecordHandshake] ++ [0x03, 0x01] ++
        toBeBytes payload.length ++ payload) secret).map fun hello => (hello, secret)) =
        some found := by
    rw [← Option.isSome_iff_exists, List.findSome?_isSome_iff]
    exact ⟨key, hkey, by rw [hparse]; rfl⟩
  obtain ⟨key'', -, hmap⟩ := List.exists_of_findSome?_eq_some hfind
  obtain ⟨hello'', hparse', hpair⟩ := Option.map_eq_some_iff.mp hmap
  cases hpair
  -- whichever secret verifies it, the hello says the same
  obtain rfl := parseFaketlsClientHello_unique hparse' hparse
  refine ⟨buildFaketlsServerHello hmac draws key' hello', ?_, fun rest => ?_⟩
  · simp only [answerClientHello, hfind, hhost]
    simp
  · rw [buildFaketlsServerHello_eq]
    exact drain_serverPacket draws hello' _ (length_serverHelloTail_le draws hello' hparse).1 rest

/-- **Two linked proxies understand each other.** -/
theorem opening (h : cfg.Linked i secret) :
    ∃ plan answer info key, Opening cfg plan answer info key := by
  obtain ⟨link, decoded, keys, hlink, hdecoded, hkeys, hkey, hhost⟩ := h.works
  obtain rfl : link = cfg.secretHex := Option.some.inj (hlink.symm.trans h.link)
  have hsecrets : cfg.secrets = keys := by rw [ChainConfig.secrets, hkeys]; rfl
  obtain ⟨d, hd, hd'⟩ := h.draw
  have hfound : (cfg.draws.handshakes.find? fun raw => !rejected raw).isSome := by
    rw [List.find?_isSome]
    exact ⟨d, hd, by simp [hd']⟩
  obtain ⟨raw, hraw⟩ := Option.isSome_iff_exists.mp hfound
  set key := secretKey decoded with hkeyeq
  set handshake := clientHandshakeOf cfg.P key cfg.dcIdx cfg.proto raw with hhandshake
  have hgen : generateClientHandshake cfg.P key cfg.dcIdx cfg.proto cfg.draws.handshakes =
      some (handshake, clientEnc cfg.P key handshake, clientDec cfg.P key handshake) := by
    simp [generateClientHandshake, hraw, hhandshake]
  have hparse := parseHandshake_clientHandshakeOf cfg.P key cfg.dcIdx cfg.proto raw
  rw [← hhandshake] at hparse
  set info : HandshakeInfo := ⟨cfg.dcIdx.toInt.natAbs, decide (cfg.dcIdx.toInt < 0), cfg.proto,
    prekeyAndIvOf handshake⟩ with hinfo
  obtain ⟨hello, answer, hplan, hgreets⟩ : ∃ hello answer, cfg.plan = .ok (some ⟨handshake,
      clientEnc cfg.P key handshake, clientDec cfg.P key handshake, hello⟩) ∧
      Greets cfg hello cfg.domain answer := by
    cases hdomain : cfg.domain with
    | none =>
      rw [ChainConfig.domain] at hdomain
      refine ⟨none, [], ?_, .plain⟩
      simp only [ChainConfig.plan, upstreamPlan, hdecoded, ← hkeyeq, hgen, hhost, hdomain,
        Option.map_none]
    | some domain =>
      have hlisten : cfg.listen.listenFaketlsDomain cfg.hex = some domain := hdomain
      obtain ⟨signed, payload, hsign, hrecord, hread, random, hhello⟩ := readTlsRecord_clientHello
        (h.short domain hdomain) cfg.draws.sessionId cfg.hmac cfg.draws.timestamp key
      rw [hrecord] at hhello
      obtain ⟨answer, hanswer, hdrain⟩ := answerClientHello_verified cfg.helloDraws
        (List.mem_of_getElem? hkey) hhello rfl
      rw [← hsecrets] at hanswer
      refine ⟨some signed, answer, ?_, .faketls hread hanswer hdrain⟩
      simp only [ChainConfig.plan, upstreamPlan, hdecoded, ← hkeyeq, hgen, hhost, hlisten,
        Option.map_some, fromUtf8_asBytes, hsign]
      rfl
  refine ⟨_, answer, info, key, hplan, hgreets, ?_, ?_, rfl, fun relayInit => ?_⟩
  · refine findSome?_first (by rw [hsecrets]; exact hkey) (by rw [hparse]; rfl)
      fun earlier hmem => ?_
    rw [h.first _ hplan earlier hmem]
    rfl
  · exact signed_magnitude cfg.dcIdx
  · obtain ⟨hdec, henc⟩ := buildConnectionCiphers_client cfg.P handshake key relayInit
    exact ⟨hdec.symm, henc.symm⟩

end ChainConfig.Linked

namespace Opening

variable {cfg : ChainConfig} {plan : UpstreamPlan} {answer : Bytes} {info : HandshakeInfo}
  {key : Bytes}

/-- Both sides frame the session the same way. -/
theorem framing_eq (h : Opening cfg plan answer info key) : plan.kind.framing = cfg.framing := by
  have hgreets := h.greets
  rw [UpstreamPlan.kind, ChainConfig.framing]
  generalize plan.clientHello = hello, cfg.domain = domain at hgreets
  cases hgreets <;> rfl

/-- The init is read as it was sent, and nothing with it. -/
theorem readOpening_init (h : Opening cfg plan answer info key) (more : Bytes) :
    cfg.readOpening (plan.init ++ more) = (some (plan.handshake, []), more) := by
  have hgreets := h.greets
  rw [UpstreamPlan.init, ChainConfig.readOpening]
  generalize plan.clientHello = hello, cfg.domain = domain at hgreets
  cases hgreets with
  | plain => exact readPlainInit_append plan.handshake more
  | faketls => exact readInit_handshake plan.handshake more

end Opening

/-! ## A pair of proxies -/

/-- A far proxy with a bare key and a camouflage domain, and a near one that uses its link; the
client asks for media DC `2`. -/
def sampleChain : ChainConfig where
  P := Reference.primitives
  hex := hexDocumented
  hmac := Reference.hmacSha256
  secretHex := "ee".toList ++ List.replicate 32 '1' ++ "612e62".toList
  dcIdx := -2
  proto := .abridged
  draws := ⟨[Reference.reservedDraw, Reference.sampleDraw],
    ⟨List.replicate 32 7, List.length_replicate⟩, 0⟩
  client := .raw
  prekeyAndIv := prekeyAndIvOf Reference.sampleDraw
  clientSecret := Reference.sampleSecret
  relayInit := Reference.sampleDraw
  listen := ⟨[List.replicate 32 '1'], some "a.b".toList⟩
  helloDraws := ⟨⟨List.replicate 32 9, List.length_replicate⟩, 0, fun _ => 0⟩

theorem sampleChain_linked :
    sampleChain.Linked 0 (List.replicate 32 '1') := by
  have hvalid : sampleChain.listen.Valid sampleChain.hex := by
    refine ⟨fun s hs => ?_, nofun⟩
    obtain rfl := List.mem_singleton.mp hs
    exact ⟨List.replicate 16 0x11, by decide, .bare (by decide)⟩
  have hdomain : sampleChain.listen.listenFaketlsDomain sampleChain.hex = some "a.b".toList := rfl
  have hsecret : sampleChain.listen.secrets[0]? = some (List.replicate 32 '1') := rfl
  have hdraw : Reference.sampleDraw ∈ sampleChain.draws.handshakes := by simp [sampleChain]
  refine ⟨?_, linkWorks_of_faketls hvalid hdomain hsecret, ?_, ⟨_, hdraw, by decide⟩,
    fun _ _ key hkey => absurd hkey (by simp)⟩
  · rfl
  rintro domain ⟨⟩
  decide

end TgWsProxy
