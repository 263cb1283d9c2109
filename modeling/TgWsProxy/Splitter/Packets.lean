import TgWsProxy.Crypto.Reference
import TgWsProxy.Splitter.Runs

set_option relaxedAutoImplicit false
set_option autoImplicit false

/-!
# One WebSocket message per packet

The packets of the three MTProto transports, and the splitter on a stream of them: every packet
that is well-formed for its transport is one frame of the length parser, so a ciphertext of such
packets is returned packet by packet, however it is cut into reads.

## Main definitions

* `TgWsProxy.Packet`, `Packet.WellFormed`, `encodePacket` — packets and their headers.
* `TgWsProxy.AesCtr256.encryptEach` — packets encrypted one after another.

## Main results

* `TgWsProxy.nextPacketLen_encodePacket` — the length parser reads back the length of a packet.
* `TgWsProxy.MsgSplitter.splitAll_packets` — one part per packet, for every cut.
-/

namespace TgWsProxy

open Framing

/-! ## Packets -/

/-- A transport packet: its payload, and whether it asks for a quick acknowledgement. -/
structure Packet where
  payload : Bytes
  quickAck : Bool

/-- The sizes a transport can frame. -/
def Packet.WellFormed (p : Packet) : ProtoTag → Prop
  | .abridged => 0 < p.payload.length ∧ 4 ∣ p.payload.length ∧ p.payload.length / 4 < 2 ^ 24
  | .intermediate | .paddedIntermediate => 0 < p.payload.length ∧ p.payload.length < 2 ^ 31

/-- The `k` low bytes of a number, least significant first. -/
def leBytes : ℕ → ℕ → Bytes
  | 0, _ => []
  | k + 1, n => UInt8.ofNat (n % 256) :: leBytes k (n / 256)

/-- A packet on the wire. Abridged: a byte counting words, or `0x7F` and three bytes when the
count does not fit, the quick-ack flag being the top bit of the first byte. Intermediate: four
length bytes, the flag being the top bit of the last. -/
def encodePacket (proto : ProtoTag) (p : Packet) : Bytes :=
  match proto with
  | .abridged =>
    let words := p.payload.length / 4
    let ack := if p.quickAck then 128 else 0
    if words < 0x7f then UInt8.ofNat (words + ack) :: p.payload
    else UInt8.ofNat (0x7f + ack) :: (leBytes 3 words ++ p.payload)
  | .intermediate | .paddedIntermediate =>
    leBytes 4 (p.payload.length + if p.quickAck then 2 ^ 31 else 0) ++ p.payload

@[simp] theorem length_leBytes (k n : ℕ) : (leBytes k n).length = k := by
  induction k generalizing n with
  | zero => rfl
  | succ k ih => simp [leBytes, ih]

/-- The low bytes of a number read back as its residue. -/
theorem leNat_leBytes (k n : ℕ) : leNat (leBytes k n) = n % 256 ^ k := by
  induction k generalizing n with
  | zero => simp [leBytes, leNat, Nat.mod_one]
  | succ k ih =>
    have hbyte : (UInt8.ofNat (n % 256)).toNat = n % 256 := by
      simp [UInt8.toNat_ofNat']
    rw [leBytes, leNat, ih, hbyte, pow_succ', Nat.mod_mul]

/-! ## The length parser on packets -/

/-- A one-byte abridged header, with or without the flag. -/
theorem abridgedHeader_short {w ack : ℕ} (hw : w < 0x7f) (hack : ack = 0 ∨ ack = 128)
    (payload : Bytes) : abridgedHeader (UInt8.ofNat (w + ack) :: payload) = some (w * 4, 1) := by
  have hval : (UInt8.ofNat (w + ack)).toNat = w + ack := by
    rw [UInt8.toNat_ofNat', Nat.mod_eq_of_lt (by omega)]
  have hlong : ¬(UInt8.ofNat (w + ack) = 0x7f ∨ UInt8.ofNat (w + ack) = 0xff) := by
    rintro (h | h)
    all_goals
      have hnat := congrArg UInt8.toNat h
      rw [hval] at hnat
      simp at hnat
      omega
  have hlow : (UInt8.ofNat (w + ack) &&& 0x7f).toNat = w := by
    rw [UInt8.toNat_and, hval, show (0x7f : UInt8).toNat = 2 ^ 7 - 1 from rfl,
      Nat.and_two_pow_sub_one_eq_mod]
    omega
  rw [abridgedHeader, if_neg hlong, hlow]

/-- A four-byte abridged header, with or without the flag. -/
theorem abridgedHeader_long {w ack : ℕ} (hw : w < 2 ^ 24) (hack : ack = 0 ∨ ack = 128)
    (payload : Bytes) :
    abridgedHeader (UInt8.ofNat (0x7f + ack) :: (leBytes 3 w ++ payload)) = some (w * 4, 4) := by
  have hlong : UInt8.ofNat (0x7f + ack) = 0x7f ∨ UInt8.ofNat (0x7f + ack) = 0xff := by
    rcases hack with rfl | rfl <;> decide
  rw [abridgedHeader, if_pos hlong, if_neg (by simp), List.take_append_of_le_length (by simp),
    List.take_of_length_le (by simp), leNat_leBytes, Nat.mod_eq_of_lt (by omega)]

/-- The header of an abridged packet gives its payload length. -/
theorem abridgedHeader_encodePacket (p : Packet) (h : p.WellFormed .abridged) :
    ∃ k, abridgedHeader (encodePacket .abridged p) = some (p.payload.length, k) ∧
      (encodePacket .abridged p).length = k + p.payload.length := by
  obtain ⟨-, ⟨w, hw⟩, hbig⟩ := h
  have hdiv : p.payload.length / 4 = w := by omega
  have hlen : p.payload.length = w * 4 := by omega
  have hack : (if p.quickAck then 128 else 0) = 0 ∨ (if p.quickAck then 128 else 0) = 128 := by
    split_ifs <;> simp
  rw [hdiv] at hbig
  simp only [encodePacket, hdiv]
  by_cases hsmall : w < 0x7f
  · refine ⟨1, ?_, ?_⟩
    · rw [if_pos hsmall, abridgedHeader_short hsmall hack, hlen]
    · rw [if_pos hsmall, List.length_cons]
      omega
  · refine ⟨4, ?_, ?_⟩
    · rw [if_neg hsmall, abridgedHeader_long hbig hack, hlen]
    · rw [if_neg hsmall, List.length_cons, List.length_append, length_leBytes]
      omega

/-- The header of an intermediate packet gives its payload length, flag or not. -/
theorem intermediateHeader_encodePacket (p : Packet) (h : p.payload.length < 2 ^ 31) :
    intermediateHeader (encodePacket .intermediate p) = some (p.payload.length, 4) := by
  have htake : (encodePacket .intermediate p).take 4 =
      leBytes 4 (p.payload.length + if p.quickAck then 2 ^ 31 else 0) := by
    simp only [encodePacket]
    rw [List.take_append_of_le_length (by simp), List.take_of_length_le (by simp)]
  have hmod : leNat (leBytes 4 (p.payload.length + if p.quickAck then 2 ^ 31 else 0)) % 2 ^ 31 =
      p.payload.length := by
    rw [leNat_leBytes]
    split_ifs <;> omega
  rw [intermediateHeader, if_neg (by simp [encodePacket]), htake,
    show (0x7fffffff : ℕ) = 2 ^ 31 - 1 from rfl, Nat.and_two_pow_sub_one_eq_mod, hmod]

/-- **A well-formed packet is read as one packet of its own length.** -/
theorem nextPacketLen_encodePacket (proto : ProtoTag) (p : Packet) (h : p.WellFormed proto) :
    nextPacketLen proto (encodePacket proto p) 0 = some (encodePacket proto p).length := by
  have hcomplete : ∀ (l : Bytes) (k : ℕ), 0 < p.payload.length →
      l.length = k + p.payload.length → completeLen l (p.payload.length, k) = some l.length := by
    intro l k hpos hl
    simp only [completeLen]
    rw [if_neg (by omega), if_neg (by omega), hl]
  have hint : p.payload.length < 2 ^ 31 → 0 < p.payload.length →
      nextPacketLen .intermediate (encodePacket .intermediate p) 0 =
        some (encodePacket .intermediate p).length := by
    intro hlt hpos
    rw [nextPacketLen_eq, List.drop_zero, if_neg (by simp [encodePacket, leBytes]), headerOf,
      intermediateHeader_encodePacket p hlt]
    exact hcomplete _ _ hpos (by simp [encodePacket])
  cases proto with
  | abridged =>
    obtain ⟨k, hhead, hlen⟩ := abridgedHeader_encodePacket p h
    have hnil : encodePacket .abridged p ≠ [] := by
      intro hnil
      rw [hnil] at hlen
      have := h.1
      simp at hlen
      omega
    rw [nextPacketLen_eq, List.drop_zero, if_neg hnil, headerOf, hhead]
    exact hcomplete _ _ h.1 hlen
  | intermediate => exact hint h.2 h.1
  | paddedIntermediate => exact hint h.2 h.1

/-! ## Streams of packets -/

/-- Pieces encrypted one after another by one cipher. -/
def AesCtr256.encryptEach (P : Primitives) (c : AesCtr256) : List Bytes → List Bytes
  | [] => []
  | p :: ps => (c.applyKeystream P p).1 :: (c.applyKeystream P p).2.encryptEach P ps

theorem AesCtr256.map_length_encryptEach (P : Primitives) (c : AesCtr256) (ps : List Bytes) :
    (c.encryptEach P ps).map List.length = ps.map List.length := by
  induction ps generalizing c with
  | nil => rfl
  | cons p ps ih => simp [encryptEach, ih, applyKeystream]

theorem AesCtr256.flatten_encryptEach (P : Primitives) (c : AesCtr256) (ps : List Bytes) :
    (c.encryptEach P ps).flatten = c.feed P ps := by
  induction ps generalizing c with
  | nil => rfl
  | cons p ps ih => simp [encryptEach, feed, ih]

/-- **One message per packet.** Well-formed packets encrypted by `tg_enc` behind the relay init,
cut into any non-empty reads, come out of `split` as exactly the encrypted packets, one per part
and in order; the splitter is in service after every read and `flush` returns nothing. -/
theorem MsgSplitter.splitAll_packets (P : Primitives) (prekeyAndIv : Block 48) (secret : Bytes)
    (relayInit : Block 64) (proto : ProtoTag) (packets : List Packet)
    (hwf : ∀ p ∈ packets, p.WellFormed proto) (reads : List Bytes) (hne : ∀ r ∈ reads, r ≠ [])
    (hcat : reads.flatten =
      ((buildConnectionCiphers P prekeyAndIv secret relayInit).tgEnc.encryptEach P
        (packets.map (encodePacket proto))).flatten) :
    (∃ s, (new P relayInit proto).splitAll P reads =
        some ((buildConnectionCiphers P prekeyAndIv secret relayInit).tgEnc.encryptEach P
          (packets.map (encodePacket proto)), s) ∧ s.flush.1 = []) ∧
      ∀ pre, pre <+: reads → ∀ ps s, (new P relayInit proto).splitAll P pre = some (ps, s) →
        s.disabled = false := by
  set c := (new P relayInit proto).dec with hc
  have hcipher : (buildConnectionCiphers P prekeyAndIv secret relayInit).tgEnc = c := rfl
  rw [hcipher] at hcat ⊢
  set enc := c.encryptEach P (packets.map (encodePacket proto)) with henc
  have h0 : Reaches P c proto [] (new P relayInit proto) [] := reaches_new P relayInit proto
  -- the decrypted stream is the packets, and its frames are theirs
  have hplain : xorAt P c c.pos reads.flatten = (packets.map (encodePacket proto)).flatten := by
    rw [hcat, henc, AesCtr256.flatten_encryptEach, AesCtr256.feed_eq_xorAt, xorAt_xorAt]
  have hframes : (packetScanner proto).frames (xorAt P c c.pos reads.flatten) =
      (enc.map List.length, false) := by
    rw [hplain, Scanner.frames_flatten _ (scan_packetScanner_nil proto), henc,
      AesCtr256.map_length_encryptEach]
    intro f hf
    obtain ⟨p, hp, rfl⟩ := List.mem_map.mp hf
    have hlen := nextPacketLen_encodePacket proto p (hwf p hp)
    rw [scan_packetScanner, hlen]
    obtain ⟨hnil, -⟩ := nextPacketLen_zero_some hlen
    obtain ⟨k, hk⟩ : ∃ k, (encodePacket proto p).length = k + 1 :=
      ⟨_, (Nat.succ_pred_eq_of_pos (List.length_pos_iff.mpr hnil)).symm⟩
    rw [hk]
    rfl
  constructor
  · obtain ⟨parts, s, hrun, h⟩ := splitAll_reaches P reads hne h0
    simp only [List.nil_append] at h
    have hd : s.disabled = false := by rw [h.disabled_eq, hframes]
    obtain ⟨-, hcb, -, hparts⟩ := h.running hd
    rw [hframes] at hcb hparts
    refine ⟨s, ?_, ?_⟩
    · rw [hrun, hparts, hcat, splitLengths_flatten]
    · rw [flush_fst, hcb, hcat, ← List.length_flatten, List.drop_length]
      rfl
  · intro pre hpre ps s hrun
    obtain ⟨post, rfl⟩ := hpre
    obtain ⟨ps', s', hrun', h⟩ := splitAll_reaches P pre (fun r hr => hne r (by simp [hr])) h0
    obtain ⟨rfl, rfl⟩ : ps = ps' ∧ s = s' := by
      rw [hrun] at hrun'
      simpa using hrun'
    -- a splitter disabled after a prefix would have stopped the frames of the whole stream
    by_contra hd
    rw [Bool.not_eq_false, h.disabled_eq] at hd
    rw [List.nil_append] at hd
    rw [List.flatten_append, xorAt_append, Scanner.frames_append_of_stopped _ hd] at hframes
    rw [hframes] at hd
    cases hd

/-- Two abridged packets, the first with a quick-ack flag, read one byte at a time. -/
theorem MsgSplitter.splitAll_packets_bytewise :
    let P := Reference.primitives
    let c := (buildConnectionCiphers P (prekeyAndIvOf Reference.sampleDraw)
      Reference.sampleSecret Reference.sampleDraw).tgEnc
    let enc := c.encryptEach P
      ([⟨[1, 2, 3, 4], true⟩, ⟨[5, 6, 7, 8, 9, 10, 11, 12], false⟩].map (encodePacket .abridged))
    ∃ s, (new P Reference.sampleDraw .abridged).splitAll P (enc.flatten.map fun b => [b]) =
      some (enc, s) ∧ s.flush.1 = [] := by
  intro P c enc
  have hwf : ∀ p ∈ ([⟨[1, 2, 3, 4], true⟩, ⟨[5, 6, 7, 8, 9, 10, 11, 12], false⟩] : List Packet),
      p.WellFormed .abridged := by
    simp [Packet.WellFormed]
  exact (splitAll_packets P (prekeyAndIvOf Reference.sampleDraw) Reference.sampleSecret
    Reference.sampleDraw .abridged _ hwf (enc.flatten.map fun b => [b])
    (by rintro _ hr rfl; simp at hr) (by rw [← List.flatMap_def, List.flatMap_singleton'])).1

end TgWsProxy
