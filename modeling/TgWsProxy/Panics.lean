import TgWsProxy.Crypto.Relay
import TgWsProxy.Links
import TgWsProxy.Pool.Capacity
import TgWsProxy.Proxy.CooldownMaps

set_option relaxedAutoImplicit false
set_option autoImplicit false

/-!
# Partial operations behind an accepted configuration

The command line accepts any text as a secret and any `u64` as a cooldown. Handling a connection
decodes every secret, negates the DC index of the handshake and adds the cooldowns to the current
instant, each of which panics beyond its range.

## Main definitions

* `TgWsProxy.Args`, `Args.withDefaults` — what was accepted, and `Config::with_defaults`.
* `TgWsProxy.HandshakeInfo.checkedDcIdx` — `dc_idx` of `handle_client_with_runtime`, with its
  overflow.
* `TgWsProxy.HandledSafely` — none of these operations is beyond its range.
* `TgWsProxy.WithinLimits` — secrets are hexadecimal, the index has an opposite, and the clock
  leaves room.

## Main results

* `TgWsProxy.handledSafely_iff` — when that is so, for a connection and in runs of the server.
-/

namespace TgWsProxy

open Process Text

/-! ## The accepted configuration -/

/-- What the command line has accepted. -/
structure Args where
  listen : ListenConfig
  routing : Config
  defaultDomains : Bool

/-- `DEFAULT_DC_IP_TARGETS`. -/
def defaultDcIpTargets : List (ℕ × Host) :=
  [(2, "149.154.167.220".toList), (4, "149.154.167.220".toList)]

/-- `normalize_cf_worker_domain`. -/
def normalizeCfWorkerDomain (domain : Host) : Option Host :=
  let domain := trim domain
  if domain = [] then none
  else
    let domain := ((stripPrefix "https://".toList domain).or
      (stripPrefix "http://".toList domain)).getD domain
    let domain := (((splitFirst ['/'] domain).map Prod.fst).getD domain).rdropWhile (· == '/')
    if domain = [] then none else some domain

/-- `Config::with_defaults`; `random` is the secret that is drawn if none was given. -/
def Args.withDefaults (hex : HexCrate) (random : Block 16) (args : Args) : Args where
  listen := { args.listen with
    secrets := if args.listen.secrets = [] then [hex.encode random.bytes]
      else args.listen.secrets }
  routing := { args.routing with
    cfWorkerDomains := args.routing.cfWorkerDomains.filterMap normalizeCfWorkerDomain
    dcIp := if args.routing.dcIp.isEmpty && args.routing.cfDomains.isEmpty && !args.defaultDomains
      then defaultDcIpTargets else args.routing.dcIp }
  defaultDomains := args.defaultDomains

/-! ## The index -/

/-- `dc_idx` of `handle_client_with_runtime`; `none` is the overflow of its negation. The cast to
`i16` wraps. -/
def HandshakeInfo.checkedDcIdx (info : HandshakeInfo) : Option Int16 :=
  let dcId := Int16.ofNat info.dcId
  if info.isMedia then if dcId = Int16.minValue then none else some (-dcId) else some dcId

/-- The magnitude of a negative index is cast to the smallest index for that index only. -/
theorem ofNat_natAbs_eq_min_iff {x : Int16} (hneg : x.toInt < 0) :
    Int16.ofNat x.toInt.natAbs = Int16.minValue ↔ x = Int16.minValue := by
  have hlo : -(2 ^ 15 : ℤ) ≤ x.toInt := Int16.le_toInt x
  have hmin : Int16.minValue.toInt = -2 ^ 15 := by decide
  rw [← Int16.toInt_inj, ← Int16.toInt_inj, Int16.toInt_ofNat', hmin]
  simp only [Int.bmod, Int16.size]
  omega

variable (P : Primitives)

/-- The negation overflows exactly for the index `-32768`. -/
theorem HandshakeInfo.isSome_checkedDcIdx_iff {secret : Bytes} {handshake : Block 64}
    {info : HandshakeInfo} (h : parseHandshake P handshake secret = some info) :
    info.checkedDcIdx.isSome = true ↔
      indexOf (decryptedHandshake P secret handshake) ≠ Int16.minValue := by
  obtain ⟨-, hdc, hmedia⟩ := decrypted_of_parseHandshake P h
  simp only [checkedDcIdx, hdc, hmedia]
  by_cases hneg : (indexOf (decryptedHandshake P secret handshake)).toInt < 0
  · simp only [hneg, decide_true, if_true, ofNat_natAbs_eq_min_iff hneg]
    split_ifs with hmin <;> simp [hmin]
  · have hne : indexOf (decryptedHandshake P secret handshake) ≠ Int16.minValue := by
      intro hmin
      rw [hmin] at hneg
      exact hneg (by decide)
    simp [hneg, hne]

/-! ## The secrets -/

variable {hex : HexCrate} {cfg : ListenConfig}

theorem isSome_secretBytesList_iff :
    (cfg.secretBytesList hex).isSome = true ↔
      ∀ s ∈ cfg.secrets, s.length % 2 = 0 ∧ ∀ c ∈ s, (Hex.digit c).isSome = true := by
  rw [ListenConfig.secretBytesList]
  induction cfg.secrets with
  | nil => simp
  | cons s secrets ih =>
    have hone : (ListenConfig.decodeSecretKey hex s).isSome = (Hex.decode s).isSome := by
      rw [ListenConfig.decodeSecretKey, hex.decode_eq, Option.isSome_map]
    have hcons : ((s :: secrets).mapM (ListenConfig.decodeSecretKey hex)).isSome = true ↔
        (ListenConfig.decodeSecretKey hex s).isSome = true ∧
          (secrets.mapM (ListenConfig.decodeSecretKey hex)).isSome = true := by
      rw [List.mapM_cons]
      cases ListenConfig.decodeSecretKey hex s <;>
        cases secrets.mapM (ListenConfig.decodeSecretKey hex) <;> simp
    rw [hcons, hone, Hex.isSome_decode_iff, ih, List.forall_mem_cons]

/-- The index that a client asks for, under the first secret that accepts its handshake. -/
def askedIndex (secrets : List Host) (handshake : Block 64) : Option Int16 :=
  secrets.findSome? fun s => (Hex.decode s).bind fun raw =>
    (parseHandshake P handshake (secretKey raw)).map fun _ =>
      indexOf (decryptedHandshake P (secretKey raw) handshake)

/-- It is read off the handshake that the server accepts. -/
theorem askedIndex_eq (handshake : Block 64) :
    ∀ (secrets : List Host) (keys : List Bytes),
      secrets.mapM (ListenConfig.decodeSecretKey hex) = some keys →
      askedIndex P secrets handshake = (acceptHandshake P keys handshake).map fun accepted =>
        indexOf (decryptedHandshake P accepted.2 handshake)
  | [], keys, h => by
    cases h
    rfl
  | s :: secrets, keys, h => by
    rw [List.mapM_cons] at h
    obtain ⟨key, hkey, h⟩ := Option.bind_eq_some_iff.mp h
    obtain ⟨keys', hkeys, h⟩ := Option.bind_eq_some_iff.mp h
    cases h
    have ih := askedIndex_eq handshake secrets keys' hkeys
    rw [ListenConfig.decodeSecretKey, hex.decode_eq] at hkey
    obtain ⟨raw, hraw, rfl⟩ := Option.map_eq_some_iff.mp hkey
    rw [askedIndex, acceptHandshake, List.findSome?_cons, List.findSome?_cons, hraw,
      Option.bind_some]
    cases parseHandshake P handshake (secretKey raw) with
    | none => exact ih
    | some info => rfl

/-! ## Connections -/

/-- At an instant, handling a connection with this handshake is within the range of the partial
operations: the secrets decode, the index is put together, and every deadline is computed, whatever
the cooldown map holds. -/
structure HandledSafely (hex : HexCrate) (args : Args) (handshake : Block 64) (now : Instant) :
    Prop where
  secrets : (args.listen.secretBytesList hex).isSome = true
  index : ∀ keys, args.listen.secretBytesList hex = some keys → ∀ info secret,
    acceptHandshake P keys handshake = some (info, secret) → info.checkedDcIdx.isSome = true
  cooldowns : ∀ cooldown ∈ args.routing.timeouts.cooldowns,
    ∀ m : CooldownMap CooldownKey, m.poisoned = false → ∀ key, (m.set key cooldown now).1 = true
  fronting : (activateFronting now args.routing.frontingCooldown).isSome = true

/-- Every given secret is an even number of hexadecimal digits, the client does not ask for the
index `-32768`, and the clock leaves room for every configured cooldown. -/
structure WithinLimits (hex : HexCrate) (args : Args) (random : Block 16) (handshake : Block 64)
    (now : Instant) : Prop where
  secrets : ∀ s ∈ args.listen.secrets, s.length % 2 = 0 ∧ ∀ c ∈ s, (Hex.digit c).isSome = true
  index : askedIndex P (args.withDefaults hex random).listen.secrets handshake ≠
    some Int16.minValue
  deadlines : ∀ cooldown ∈ args.routing.deadlineCooldowns, now.secs + cooldown < 2 ^ 63

variable {P}

theorem set_returns_iff {now : Instant} {cooldown : ℕ} :
    (∀ m : CooldownMap CooldownKey, m.poisoned = false → ∀ key, (m.set key cooldown now).1 = true) ↔
      now.secs + cooldown < 2 ^ 63 := by
  constructor
  · intro h
    have hnew : (CooldownMap.new : CooldownMap CooldownKey).poisoned = false := rfl
    have hreturns := h .new hnew (.wsFail 0 false)
    exact (CooldownMap.call_returns_iff hnew (.set (.wsFail 0 false) cooldown)).2.mp hreturns
  · intro h m hsound key
    exact (CooldownMap.call_returns_iff hsound (.set key cooldown)).2.mpr h

/-- The secret that `with_defaults` draws decodes. -/
theorem isSome_secretBytesList_withDefaults_iff (args : Args) (random : Block 16) :
    ((args.withDefaults hex random).listen.secretBytesList hex).isSome = true ↔
      ∀ s ∈ args.listen.secrets, s.length % 2 = 0 ∧ ∀ c ∈ s, (Hex.digit c).isSome = true := by
  by_cases hnone : args.listen.secrets = []
  · have hlist : (args.withDefaults hex random).listen.secrets = [Hex.encode random.bytes] := by
      simp [Args.withDefaults, hnone, hex.encode_eq]
    have hdecode : (Hex.decode (Hex.encode random.bytes)).isSome = true := by
      rw [Hex.decode_encode]
      rfl
    rw [isSome_secretBytesList_iff, hlist, List.forall_mem_singleton, ← Hex.isSome_decode_iff]
    simp [hdecode, hnone]
  · have hlist : (args.withDefaults hex random).listen.secrets = args.listen.secrets :=
      if_neg hnone
    rw [isSome_secretBytesList_iff, hlist]

/-- One connection. -/
theorem handledSafely_iff_withinLimits (args : Args) (random : Block 16) (handshake : Block 64)
    (now : Instant) :
    HandledSafely P hex (args.withDefaults hex random) handshake now ↔
      WithinLimits P hex args random handshake now := by
  have hdecode : ((args.withDefaults hex random).listen.secretBytesList hex).isSome = true ↔ _ :=
    isSome_secretBytesList_withDefaults_iff args random
  constructor
  · rintro ⟨hsecrets, hindex, hcooldowns, hfronting⟩
    obtain ⟨keys, hkeys⟩ := Option.isSome_iff_exists.mp hsecrets
    refine ⟨hdecode.mp hsecrets, fun hasked => ?_, fun cooldown hmem => ?_⟩
    · rw [askedIndex_eq P handshake _ keys hkeys] at hasked
      obtain ⟨⟨info, secret⟩, haccept, hmin⟩ := Option.map_eq_some_iff.mp hasked
      have hparse := parse_of_acceptHandshake haccept
      exact (info.isSome_checkedDcIdx_iff P hparse).mp (hindex keys hkeys info secret haccept) hmin
    · rcases List.mem_cons.mp hmem with rfl | hmem
      · rw [activateFronting, Option.isSome_map] at hfronting
        exact Instant.isSome_add_iff.mp hfronting
      · exact set_returns_iff.mp (hcooldowns cooldown hmem)
  · rintro ⟨hsecrets, hindex, hdeadlines⟩
    refine ⟨hdecode.mpr hsecrets, fun keys hkeys info secret haccept => ?_,
      fun cooldown hmem => ?_, ?_⟩
    · have hparse := parse_of_acceptHandshake haccept
      refine (info.isSome_checkedDcIdx_iff P hparse).mpr fun hmin => hindex ?_
      rw [askedIndex_eq P handshake _ keys hkeys, haccept, Option.map_some, hmin]
    · exact set_returns_iff.mpr (hdeadlines cooldown (List.mem_cons_of_mem _ hmem))
    · rw [activateFronting, Option.isSome_map]
      exact Instant.isSome_add_iff.mpr (hdeadlines _ List.mem_cons_self)

/-- **When nothing panics.** For every accepted configuration with its defaults, every handshake and
every instant, handling a connection is within the range of its partial operations if and only if
the given secrets are hexadecimal, the client does not ask for the index `-32768` and the clock
leaves room for the cooldowns. In every run of the server whose steps leave that room, every call of
the cooldown maps returns.

**Proof sketch.** A secret decodes exactly if it is hexadecimal, and the drawn one is
(`isSome_secretBytesList_withDefaults_iff`). A magnitude is the smallest `i16` for that index only
(`ofNat_natAbs_eq_min_iff`). The tasks set no cooldown but the configured ones, so the map is never
poisoned (`run_mapsReturn`). -/
theorem handledSafely_iff (P : Primitives) (hex : HexCrate) :
    (∀ (args : Args) (random : Block 16) (handshake : Block 64) (now : Instant),
      HandledSafely P hex (args.withDefaults hex random) handshake now ↔
        WithinLimits P hex args random handshake now) ∧
    ∀ (start : Instant) (cfg : Config) (ls : List ServerLabel),
      (server cfg).Along (ClockInRange start cfg) (System.initial World.start) ls →
        MapsReturn start cfg (System.initial World.start) .new ls :=
  ⟨handledSafely_iff_withinLimits, run_mapsReturn⟩

/-! ## Accepted configurations that panic -/

/-- The index that a generated handshake asks for. -/
theorem askedIndex_clientHandshakeOf {secret : Bytes} (hlen : secret.length = 16) (dcIdx : Int16)
    (proto : ProtoTag) (raw : Block 64) :
    askedIndex P [Hex.encode secret] (clientHandshakeOf P secret dcIdx proto raw) = some dcIdx := by
  have hparse := parseHandshake_clientHandshakeOf P secret dcIdx proto raw
  have hindex := (HandshakeInfo.dcIdx_of_parse P hparse).symm.trans (signed_magnitude dcIdx)
  rw [askedIndex, List.findSome?_cons, Hex.decode_encode, Option.bind_some, secretKey_bare hlen,
    hparse, Option.map_some, hindex]

/-- One secret and a cooldown for failed WebSockets. -/
def acceptedArgs (secret : Host) (wsFailCooldown : ℕ) : Args where
  listen := ⟨[secret], none⟩
  routing := { smallConfig with timeouts := { smallConfig.timeouts with wsFailCooldown } }
  defaultDomains := false

/-- The same with its defaults. -/
def acceptedConfig (secret : Host) (wsFailCooldown : ℕ) : Args :=
  (acceptedArgs secret wsFailCooldown).withDefaults hexDocumented ⟨Reference.sampleSecret, rfl⟩

/-- A secret that is hexadecimal. -/
def sampleText : Host := Hex.encode Reference.sampleSecret

/-- The handshake of a client that asks for an index under that secret. -/
def sampleHandshake (dcIdx : Int16) : Block 64 :=
  clientHandshakeOf Reference.primitives Reference.sampleSecret dcIdx .abridged Reference.sampleDraw

/-- The instant `0`. -/
def zeroInstant : Instant := ⟨0, 0, by decide, by decide, by decide⟩

theorem askedIndex_sample (dcIdx : Int16) (wsFailCooldown : ℕ) :
    askedIndex Reference.primitives (acceptedConfig sampleText wsFailCooldown).listen.secrets
      (sampleHandshake dcIdx) = some dcIdx :=
  askedIndex_clientHandshakeOf rfl dcIdx .abridged Reference.sampleDraw

/-- DC 2 and a minute: a connection is handled, and so is the first step of its run. -/
theorem handledSafely_iff_sample :
    HandledSafely Reference.primitives hexDocumented (acceptedConfig sampleText 60)
        (sampleHandshake 2) zeroInstant ∧
      MapsReturn zeroInstant smallConfig (System.initial World.start) .new
        [.start (.client dcTwo), .step 0 smoothEnv] := by
  have hiff := handledSafely_iff Reference.primitives hexDocumented
  refine ⟨(hiff.1 (acceptedArgs sampleText 60) ⟨Reference.sampleSecret, rfl⟩ (sampleHandshake 2)
    zeroInstant).mpr ⟨?_, ?_, ?_⟩, hiff.2 zeroInstant smallConfig _ ⟨?_, fun s hs => ⟨?_, ?_⟩⟩⟩
  · refine List.forall_mem_singleton.mpr ((Hex.isSome_decode_iff sampleText).mp ?_)
    rw [sampleText, Hex.decode_encode]
    rfl
  · intro hasked
    have hmin := (askedIndex_sample 2 60).symm.trans hasked
    exact absurd hmin (by decide)
  · decide
  · exact nofun
  · cases hs
    intro i env hl
    cases hl
    decide
  · exact fun _ _ => trivial

/-- A secret that is not hexadecimal, a client that asks for the index `-32768`, and a cooldown of
`2 ^ 63` seconds, after which no call of the map returns. -/
theorem accepted_configurations_panic :
    ¬ HandledSafely Reference.primitives hexDocumented (acceptedConfig "zz".toList 60)
        (sampleHandshake 2) zeroInstant ∧
      ¬ HandledSafely Reference.primitives hexDocumented (acceptedConfig sampleText 60)
        (sampleHandshake (-32768)) zeroInstant ∧
      ¬ HandledSafely Reference.primitives hexDocumented
        (acceptedConfig sampleText (2 ^ 63)) (sampleHandshake 2) zeroInstant ∧
      ∀ calls, ∀ r ∈ ((CooldownMap.new.set (CooldownKey.wsFail 2 false) (2 ^ 63)
        zeroInstant).2.run calls), r = false := by
  refine ⟨fun h => absurd h.secrets (by decide), fun h => ?_, fun h => ?_, fun calls => ?_⟩
  · exact ((handledSafely_iff_withinLimits (acceptedArgs sampleText 60)
      ⟨Reference.sampleSecret, rfl⟩ _ _).mp h).index (askedIndex_sample (-32768) 60)
  · have hreturns := h.cooldowns (2 ^ 63) List.mem_cons_self
    exact absurd (set_returns_iff.mp hreturns) (by decide)
  · exact CooldownMap.run_poisoned (by decide) calls

end TgWsProxy
