import TgWsProxy.Crypto.Basic
import TgWsProxy.Lib.Hex
import TgWsProxy.WsClient.Records

set_option relaxedAutoImplicit false
set_option autoImplicit false

/-!
# Proxy secrets and the links printed for them

A secret is hex text: a bare 16-byte key, `dd` and a key, or `ee`, a key and a FakeTLS hostname.
The server strips the mode byte from the decoded secret; the link is made from its text. One
camouflage domain, from `--listen-faketls-domain` or from the primary secret, holds for the whole
listener.

## Main definitions

* `TgWsProxy.secretKey`, `faketlsHostname` — what a decoded secret carries (`crypto.rs`).
* `TgWsProxy.ListenConfig` — the secrets and the camouflage domain, with `secretBytesList`,
  `listenFaketlsDomain` and `linkSecretFor` (`config.rs`).
* `TgWsProxy.LinkWorks` — a client that uses the link derives the server's key and speaks the
  listener's mode.
* `TgWsProxy.LinkFaithful` — when that is so.

## Main results

* `TgWsProxy.linkWorks_iff` — the link of a secret works exactly if it is faithful.
-/

namespace TgWsProxy

/-- What the configuration takes from the `hex` crate: digits are read in either letter case and
written in lower case. -/
structure HexCrate where
  decode : Host → Option Bytes
  encode : Bytes → Host
  decode_eq : ∀ s, decode s = Hex.decode s
  encode_eq : ∀ bytes, encode bytes = Hex.encode bytes

/-- `str::starts_with`. -/
def startsWith (text start : Host) : Bool := start.isPrefixOf text

/-- `str::as_bytes`. -/
def asBytes (text : Host) : Bytes := text.flatMap String.utf8EncodeChar

/-- `str::from_utf8`. -/
def fromUtf8 (bytes : Bytes) : Option Host :=
  (ByteArray.mk bytes.toArray).utf8Decode?.map Array.toList

theorem asBytes_of_fromUtf8 {bytes : Bytes} {text : Host} (h : fromUtf8 bytes = some text) :
    asBytes text = bytes := by
  obtain ⟨chars, hchars, rfl⟩ := Option.map_eq_some_iff.mp h
  have hsome : (ByteArray.mk bytes.toArray).utf8Decode?.isSome := by rw [hchars]; rfl
  have hget : (ByteArray.mk bytes.toArray).utf8Decode?.get hsome = chars := by simp [hchars]
  have hback := ByteArray.utf8Encode_get_utf8Decode? (h := hsome)
  rw [hget, List.utf8Encode] at hback
  have hlist := congrArg (fun b : ByteArray => b.data.toList) hback
  rwa [List.toList_data_toByteArray] at hlist

theorem fromUtf8_asBytes (text : Host) : fromUtf8 (asBytes text) = some text := by
  have hbytes : ByteArray.mk (asBytes text).toArray = text.utf8Encode := by
    apply ByteArray.ext
    apply Array.toList_inj.mp
    rw [List.utf8Encode, List.toList_data_toByteArray]
    rfl
  rw [fromUtf8, hbytes, List.utf8Decode?_utf8Encode]
  rfl

theorem asBytes_ne_nil {text : Host} (h : text ≠ []) : asBytes text ≠ [] := by
  obtain ⟨c, rest, rfl⟩ := List.exists_cons_of_ne_nil h
  intro hnil
  have hlen := congrArg List.length hnil
  have hc := c.utf8Size_pos
  rw [asBytes, List.flatMap_cons, List.length_append, String.length_utf8EncodeChar,
    List.length_nil] at hlen
  omega

/-! ## The layout of a secret -/

/-- Length of the key inside a secret. -/
def secretKeyLen : ℕ := 16
/-- Length of a mode byte and a key. -/
def prefixedSecretLen : ℕ := 1 + secretKeyLen
def secretModeFaketls : UInt8 := 0xee
def secretModePadded : UInt8 := 0xdd

/-- `has_mode_prefix`. -/
def hasModePrefix (raw : Bytes) : Bool :=
  decide (prefixedSecretLen ≤ raw.length) &&
    (raw.head? == some secretModePadded || raw.head? == some secretModeFaketls)

/-- `secret_key`: the key without the mode byte and the hostname. -/
def secretKey (raw : Bytes) : Bytes :=
  if hasModePrefix raw then (raw.drop 1).take secretKeyLen else raw

/-- `faketls_hostname`: the hostname of an `ee` secret. -/
def faketlsHostname (raw : Bytes) : Option Bytes :=
  if prefixedSecretLen < raw.length ∧ raw.head? = some secretModeFaketls then
    some (raw.drop prefixedSecretLen)
  else none

/-- The decoded secrets that a configuration is made of. -/
inductive SecretShape : Bytes → Prop
  | bare {key : Bytes} : key.length = 16 → SecretShape key
  | padded {key : Bytes} : key.length = 16 → SecretShape (0xdd :: key)
  | faketls {key host : Bytes} : key.length = 16 → host ≠ [] → (fromUtf8 host).isSome →
      SecretShape (0xee :: (key ++ host))

theorem secretKey_bare {key : Bytes} (h : key.length = 16) : secretKey key = key := by
  simp [secretKey, hasModePrefix, prefixedSecretLen, secretKeyLen, h]

theorem secretKey_mode {mode : UInt8} (hmode : mode = 0xdd ∨ mode = 0xee) {key : Bytes}
    (hkey : key.length = 16) (host : Bytes) : secretKey (mode :: (key ++ host)) = key := by
  have hprefix : hasModePrefix (mode :: (key ++ host)) = true := by
    rcases hmode with rfl | rfl <;>
      simp [hasModePrefix, prefixedSecretLen, secretKeyLen, secretModePadded, secretModeFaketls,
        hkey]
  rw [secretKey, if_pos hprefix, List.drop_one, List.tail_cons]
  exact List.take_left' (by rw [hkey]; rfl)

theorem faketlsHostname_bare {key : Bytes} (h : key.length = 16) : faketlsHostname key = none := by
  simp [faketlsHostname, prefixedSecretLen, secretKeyLen, h]

theorem faketlsHostname_padded (rest : Bytes) : faketlsHostname (0xdd :: rest) = none := by
  simp [faketlsHostname, secretModeFaketls]

theorem faketlsHostname_faketls {key host : Bytes} (hkey : key.length = 16) (hhost : host ≠ []) :
    faketlsHostname (0xee :: (key ++ host)) = some host := by
  have hpos := List.length_pos_iff.mpr hhost
  rw [faketlsHostname, if_pos]
  · simp [prefixedSecretLen, secretKeyLen, Nat.add_comm 1, ← hkey]
  · simp [prefixedSecretLen, secretKeyLen, secretModeFaketls, hkey]
    omega

/-- Every secret carries a key of 16 bytes. -/
theorem SecretShape.length_secretKey {raw : Bytes} (h : SecretShape raw) :
    (secretKey raw).length = 16 := by
  cases h with
  | bare hkey => rw [secretKey_bare hkey, hkey]
  | @padded key hkey =>
    have hstrip := secretKey_mode (.inl rfl) hkey []
    rw [List.append_nil] at hstrip
    rw [hstrip, hkey]
  | faketls hkey hhost _ => rw [secretKey_mode (.inr rfl) hkey, hkey]

/-! ## Configuration and links -/

/-- The inbound side of the configuration. -/
structure ListenConfig where
  secrets : List Host
  /-- `--listen-faketls-domain`. -/
  domainFlag : Option Host

namespace ListenConfig

variable (hex : HexCrate) (cfg : ListenConfig)

/-- `decode_secret_key`; `none` is its panic. -/
def decodeSecretKey (secret : Host) : Option Bytes := (hex.decode secret).map secretKey

/-- `primary_secret`. -/
def primarySecret : Host := cfg.secrets.head?.getD []

/-- `secret_bytes_list`: the keys of the server. -/
def secretBytesList : Option (List Bytes) := cfg.secrets.mapM (decodeSecretKey hex)

/-- `listen_faketls_domain`. -/
def listenFaketlsDomain : Option Host :=
  match cfg.domainFlag with
  | some domain => some domain
  | none => do
    let raw ← hex.decode cfg.primarySecret
    let hostname ← faketlsHostname raw
    fromUtf8 hostname

/-- `link_secret_for`. -/
def linkSecretFor (secret : Host) : Option Host :=
  match cfg.listenFaketlsDomain hex with
  | some domain => do
    let key ← decodeSecretKey hex secret
    return "ee".toList ++ hex.encode key ++ hex.encode (asBytes domain)
  | none =>
    if startsWith secret "dd".toList || startsWith secret "ee".toList then some secret
    else some ("dd".toList ++ secret)

end ListenConfig

open ListenConfig

/-- The configurations in question: every secret has one of the three shapes, and the domain flag
is not empty. -/
structure ListenConfig.Valid (hex : HexCrate) (cfg : ListenConfig) : Prop where
  secrets : ∀ s ∈ cfg.secrets, ∃ raw, hex.decode s = some raw ∧ SecretShape raw
  domain : cfg.domainFlag ≠ some []

/-- The link of secret number `i` carries the server's key for it, and the camouflage domain of
the listener if there is one. -/
def LinkWorks (hex : HexCrate) (cfg : ListenConfig) (i : ℕ) (s : Host) : Prop :=
  ∃ link decoded keys, cfg.linkSecretFor hex s = some link ∧ hex.decode link = some decoded ∧
    cfg.secretBytesList hex = some keys ∧ keys[i]? = some (secretKey decoded) ∧
    faketlsHostname decoded = (cfg.listenFaketlsDomain hex).map asBytes

/-- When the text of a secret leads to a working link. The listener is in FakeTLS mode, or the
secret is a bare key, or a `dd` secret in lower case. Behind another spelling of the mode byte the
link gains a second one, which only a key made of nothing but that byte survives. -/
def LinkFaithful (hex : HexCrate) (cfg : ListenConfig) (s : Host) : Prop :=
  (cfg.listenFaketlsDomain hex).isSome ∨
    ∃ raw, hex.decode s = some raw ∧
      (raw.length = 16 ∨
        (raw.head? = some 0xdd ∧
          (startsWith s "dd".toList ∨ secretKey raw = List.replicate 16 0xdd)) ∨
        (raw.head? = some 0xee ∧
          ¬ startsWith s "ee".toList ∧ secretKey raw = List.replicate 16 0xee))

section Proof

variable {hex : HexCrate} {cfg : ListenConfig}

/-- The camouflage domain is never empty. -/
theorem asBytes_listenFaketlsDomain_ne_nil (hvalid : cfg.Valid hex) {domain : Host}
    (h : cfg.listenFaketlsDomain hex = some domain) : asBytes domain ≠ [] := by
  rw [listenFaketlsDomain] at h
  cases hflag : cfg.domainFlag with
  | some flag =>
    rw [hflag] at h
    cases h
    refine asBytes_ne_nil fun hempty => hvalid.domain ?_
    rw [hflag, hempty]
  | none =>
    simp only [hflag, Option.bind_eq_bind, Option.bind_eq_some_iff] at h
    obtain ⟨raw, -, hostname, hhostname, hutf8⟩ := h
    rw [asBytes_of_fromUtf8 hutf8]
    rintro rfl
    rw [faketlsHostname] at hhostname
    split_ifs at hhostname with hlong
    have hlen := congrArg List.length (Option.some.inj hhostname)
    rw [List.length_drop, List.length_nil] at hlen
    omega

/-- The entry of a secret in `secret_bytes_list`. -/
theorem secretBytesList_getElem? (hvalid : cfg.Valid hex) {i : ℕ} {s : Host} {raw : Bytes}
    (hi : cfg.secrets[i]? = some s) (hraw : hex.decode s = some raw) :
    ∃ keys, cfg.secretBytesList hex = some keys ∧ keys[i]? = some (secretKey raw) := by
  have hall : ∀ secrets : List Host, (∀ s ∈ secrets, ∃ raw, hex.decode s = some raw) →
      secrets.mapM (decodeSecretKey hex) =
        some (secrets.map fun s => secretKey ((hex.decode s).getD [])) := by
    intro secrets hsecrets
    induction secrets with
    | nil => rfl
    | cons t secrets ih =>
      obtain ⟨rawt, ht⟩ := hsecrets t List.mem_cons_self
      rw [List.mapM_cons, ih fun s hs => hsecrets s (List.mem_cons_of_mem t hs)]
      simp [decodeSecretKey, ht]
  refine ⟨_, hall cfg.secrets fun s hs => ?_, ?_⟩
  · obtain ⟨raw, hraw, -⟩ := hvalid.secrets s hs
    exact ⟨raw, hraw⟩
  · rw [List.getElem?_map, hi, Option.map_some, hraw, Option.getD_some]

/-- In FakeTLS mode every link is `ee`, the key and the domain. -/
theorem linkWorks_of_faketls (hvalid : cfg.Valid hex) {domain : Host}
    (hdomain : cfg.listenFaketlsDomain hex = some domain) {i : ℕ} {s : Host}
    (hi : cfg.secrets[i]? = some s) : LinkWorks hex cfg i s := by
  obtain ⟨raw, hraw, hshape⟩ := hvalid.secrets s (List.mem_of_getElem? hi)
  obtain ⟨keys, hkeys, hkey⟩ := secretBytesList_getElem? hvalid hi hraw
  have hlen := hshape.length_secretKey
  refine ⟨"ee".toList ++ hex.encode (secretKey raw) ++ hex.encode (asBytes domain),
    0xee :: (secretKey raw ++ asBytes domain), keys, ?_, ?_, hkeys, ?_, ?_⟩
  · simp only [linkSecretFor, hdomain, decodeSecretKey, hraw]
    rfl
  · have hmode : Hex.decode "ee".toList = some [0xee] := by decide
    rw [hex.decode_eq, hex.encode_eq, hex.encode_eq, List.append_assoc, Hex.decode_append hmode,
      Hex.decode_append (Hex.decode_encode _), Hex.decode_encode]
    rfl
  · rw [hkey, secretKey_mode (.inr rfl) hlen]
  · rw [hdomain, faketlsHostname_faketls hlen (asBytes_listenFaketlsDomain_ne_nil hvalid hdomain)]
    rfl

/-- A text that starts with two equal digits decodes to a byte made of them. -/
theorem head?_of_startsWith {c : Char} {n : ℕ} (hc : Hex.digit c = some n) {s : Host} {raw : Bytes}
    (hs : startsWith s [c, c] = true) (hraw : Hex.decode s = some raw) :
    raw.head? = some (UInt8.ofNat (16 * n + n)) := by
  obtain ⟨rest, rfl⟩ := List.isPrefixOf_iff_prefix.mp hs
  simp only [List.cons_append, List.nil_append, Hex.decode, hc, Option.bind_eq_bind,
    Option.bind_some, Option.bind_eq_some_iff] at hraw
  obtain ⟨bytes, -, hbytes⟩ := hraw
  cases hbytes
  rfl

/-- A list that one more byte at its front and one less at its end leave the same is constant. -/
theorem cons_take_eq_iff (a : UInt8) (n : ℕ) :
    ∀ l : Bytes, l.length = n + 1 → (a :: l.take n = l ↔ l = List.replicate (n + 1) a) := by
  induction n with
  | zero =>
    intro l hl
    obtain ⟨b, rfl⟩ := List.length_eq_one_iff.mp hl
    simp [eq_comm]
  | succ n ih =>
    intro l hl
    obtain ⟨b, l, rfl⟩ := List.exists_cons_of_length_eq_add_one hl
    have hrest := ih l (by simpa using hl)
    rw [List.take_succ_cons, List.replicate_succ, List.cons.injEq, List.cons.injEq]
    constructor
    · rintro ⟨rfl, h⟩
      exact ⟨rfl, hrest.mp h⟩
    · rintro ⟨rfl, h⟩
      exact ⟨rfl, hrest.mpr h⟩

/-- A mode byte in front of another shifts the key by one. -/
theorem secretKey_padded_mode (mode : UInt8) {key : Bytes} (hkey : key.length = 16)
    (host : Bytes) : secretKey (0xdd :: mode :: (key ++ host)) = mode :: key.take 15 := by
  have hsplit : (0xdd :: mode :: (key ++ host) : Bytes) =
      0xdd :: ((mode :: key.take 15) ++ (key.drop 15 ++ host)) := by
    rw [List.cons_append, ← List.append_assoc, List.take_append_drop]
  rw [hsplit, secretKey_mode (.inl rfl) (by simp [hkey])]

/-- What a link decodes to outside FakeTLS mode. -/
def plainDecoded (s : Host) (raw : Bytes) : Bytes :=
  if startsWith s "dd".toList || startsWith s "ee".toList then raw else 0xdd :: raw

theorem linkWorks_iff_of_plain (hvalid : cfg.Valid hex)
    (hplain : cfg.listenFaketlsDomain hex = none) {i : ℕ} {s : Host} {raw : Bytes}
    (hi : cfg.secrets[i]? = some s) (hraw : hex.decode s = some raw) :
    LinkWorks hex cfg i s ↔
      secretKey (plainDecoded s raw) = secretKey raw ∧
        faketlsHostname (plainDecoded s raw) = none := by
  obtain ⟨keys, hkeys, hkey⟩ := secretBytesList_getElem? hvalid hi hraw
  have hlink : ∃ link, cfg.linkSecretFor hex s = some link ∧
      hex.decode link = some (plainDecoded s raw) := by
    rw [linkSecretFor, hplain, plainDecoded]
    split_ifs
    · exact ⟨s, rfl, hraw⟩
    · have hmode : Hex.decode "dd".toList = some [0xdd] := by decide
      refine ⟨_, rfl, ?_⟩
      rw [hex.decode_eq, Hex.decode_append hmode, ← hex.decode_eq, hraw]
      rfl
  obtain ⟨link, hlink, hdecoded⟩ := hlink
  constructor
  · rintro ⟨link', decoded, keys', hlink', hdecoded', hkeys', hkey', hhost⟩
    rw [hlink] at hlink'
    cases hlink'
    rw [hdecoded] at hdecoded'
    cases hdecoded'
    rw [hkeys] at hkeys'
    cases hkeys'
    rw [hkey] at hkey'
    rw [hplain] at hhost
    exact ⟨(Option.some.inj hkey').symm, hhost⟩
  · rintro ⟨hsame, hnone⟩
    exact ⟨link, _, keys, hlink, hdecoded, hkeys, by rw [hkey, hsame], by rw [hnone, hplain]; rfl⟩

end Proof

/-- **Which links work.** In every configuration with well-formed secrets, the link printed for a
secret carries the key that the server uses for it and the camouflage domain of the listener, or
no domain if there is none, if and only if it is faithful to the secret.

**Proof sketch.** In FakeTLS mode the link is built from the key and the domain. Otherwise it is
the text of the secret, behind `dd` unless the text starts with a lower-case mode byte. A bare key
survives both. A `dd` secret in another spelling gets a second mode byte, which shifts its key by
one. An `ee` secret keeps its hostname or gets a second mode byte as well. -/
theorem linkWorks_iff (hex : HexCrate) (cfg : ListenConfig) (hvalid : cfg.Valid hex) (i : ℕ)
    (s : Host) (hi : cfg.secrets[i]? = some s) :
    LinkWorks hex cfg i s ↔ LinkFaithful hex cfg s := by
  cases hmode : cfg.listenFaketlsDomain hex with
  | some domain =>
    have hsome : (cfg.listenFaketlsDomain hex).isSome := by rw [hmode]; rfl
    exact ⟨fun _ => .inl hsome, fun _ => linkWorks_of_faketls hvalid hmode hi⟩
  | none =>
    obtain ⟨raw, hraw, hshape⟩ := hvalid.secrets s (List.mem_of_getElem? hi)
    have hdd : startsWith s "dd".toList = true → raw.head? = some 0xdd := fun h =>
      head?_of_startsWith (n := 13) (by decide) h (by rw [← hex.decode_eq, hraw])
    have hee : startsWith s "ee".toList = true → raw.head? = some 0xee := fun h =>
      head?_of_startsWith (n := 14) (by decide) h (by rw [← hex.decode_eq, hraw])
    have hfaithful : LinkFaithful hex cfg s ↔ raw.length = 16 ∨
        (raw.head? = some 0xdd ∧
          (startsWith s "dd".toList ∨ secretKey raw = List.replicate 16 0xdd)) ∨
        (raw.head? = some 0xee ∧
          ¬ startsWith s "ee".toList ∧ secretKey raw = List.replicate 16 0xee) := by
      rw [LinkFaithful, hmode]
      constructor
      · rintro (h | ⟨raw', hraw', h⟩)
        · cases h
        · rw [hraw] at hraw'
          cases hraw'
          exact h
      · exact fun h => .inr ⟨raw, hraw, h⟩
    rw [linkWorks_iff_of_plain hvalid hmode hi hraw, hfaithful, plainDecoded]
    clear hfaithful
    generalize startsWith s "dd".toList = dd at hdd ⊢
    generalize startsWith s "ee".toList = ee at hee ⊢
    cases hshape with
    | bare hkey =>
      refine ⟨fun _ => .inl hkey, fun _ => ?_⟩
      split_ifs
      · exact ⟨rfl, faketlsHostname_bare hkey⟩
      · have hstrip := secretKey_mode (.inl rfl) hkey []
        rw [List.append_nil] at hstrip
        exact ⟨hstrip.trans (secretKey_bare hkey).symm, faketlsHostname_padded raw⟩
    | @padded key hkey =>
      have hstrip : secretKey (0xdd :: key) = key := by
        simpa using secretKey_mode (.inl rfl) hkey []
      obtain rfl : ee = false := by simpa using hee
      rw [hstrip]
      cases dd with
      | true => simp [hstrip, faketlsHostname_padded]
      | false =>
        have hshift := secretKey_padded_mode 0xdd hkey []
        rw [List.append_nil] at hshift
        rw [if_neg (by simp), hshift, cons_take_eq_iff 0xdd 15 key hkey]
        simp [hkey, faketlsHostname_padded]
    | @faketls key host hkey hhost hutf8 =>
      have hstrip := secretKey_mode (.inr rfl) hkey host
      obtain rfl : dd = false := by simpa using hdd
      have hlong : ¬ key.length + host.length = 15 := by omega
      rw [hstrip]
      cases ee with
      | true =>
        rw [if_pos (by simp), faketlsHostname_faketls hkey hhost]
        simp [hlong]
      | false =>
        rw [if_neg (by simp), secretKey_padded_mode 0xee hkey host, cons_take_eq_iff 0xee 15 key hkey]
        simp [hlong, faketlsHostname_padded]

/-! ## Links that work and links that do not -/

/-- The `hex` crate as documented. -/
def hexDocumented : HexCrate := ⟨Hex.decode, Hex.encode, fun _ => rfl, fun _ => rfl⟩

/-- Three secrets and no domain flag: a bare key, a `dd` secret in upper case and an `ee` secret
for `a.b`. -/
def mixedConfig : ListenConfig where
  secrets := [List.replicate 32 '1', "DD".toList ++ List.replicate 32 '2',
    "ee".toList ++ List.replicate 32 '3' ++ "612e62".toList]
  domainFlag := none

theorem mixedConfig_valid : mixedConfig.Valid hexDocumented := by
  refine ⟨fun s hs => ?_, by decide⟩
  simp only [mixedConfig, List.mem_cons, List.not_mem_nil, or_false] at hs
  rcases hs with rfl | rfl | rfl
  · exact ⟨List.replicate 16 0x11, by decide, .bare (by decide)⟩
  · exact ⟨0xdd :: List.replicate 16 0x22, by decide, .padded (by decide)⟩
  · refine ⟨0xee :: (List.replicate 16 0x33 ++ asBytes "a.b".toList), by decide,
      .faketls (by decide) (by decide) ?_⟩
    rw [fromUtf8_asBytes]
    rfl

/-- The link of the bare key works. -/
theorem linkWorks_iff_mixedConfig :
    LinkWorks hexDocumented mixedConfig 0 (List.replicate 32 '1') :=
  (linkWorks_iff hexDocumented mixedConfig mixedConfig_valid 0 _ rfl).mpr
    (.inr ⟨List.replicate 16 0x11, by decide, .inl (by decide)⟩)

/-- The listener takes plain connections. The link of the upper-case secret carries another key
than the server's, and the link of the `ee` secret asks for FakeTLS. -/
theorem mixedConfig_links_fail :
    mixedConfig.Valid hexDocumented ∧ mixedConfig.listenFaketlsDomain hexDocumented = none ∧
      ¬ LinkWorks hexDocumented mixedConfig 1 ("DD".toList ++ List.replicate 32 '2') ∧
      ¬ LinkWorks hexDocumented mixedConfig 2
        ("ee".toList ++ List.replicate 32 '3' ++ "612e62".toList) := by
  have hplain : mixedConfig.listenFaketlsDomain hexDocumented = none := by decide
  refine ⟨mixedConfig_valid, hplain, fun h => ?_, fun h => ?_⟩
  · have hkey := ((linkWorks_iff_of_plain mixedConfig_valid hplain rfl
      (show hexDocumented.decode _ = some (0xdd :: List.replicate 16 0x22) by decide)).mp h).1
    exact absurd hkey (by decide)
  · have hhost := ((linkWorks_iff_of_plain mixedConfig_valid hplain rfl
      (show hexDocumented.decode _ =
        some (0xee :: (List.replicate 16 0x33 ++ asBytes "a.b".toList)) by decide)).mp h).2
    exact absurd hhost (by decide)

end TgWsProxy
