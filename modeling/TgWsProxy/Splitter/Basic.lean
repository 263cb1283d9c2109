import Mathlib.Data.Nat.Bitwise
import TgWsProxy.Lib.Framing
import TgWsProxy.Crypto.Basic

set_option relaxedAutoImplicit false
set_option autoImplicit false

/-!
# The message splitter of `splitter.rs`

Telegram's WebSocket endpoint wants one MTProto packet per message, so the upload direction cuts
the re-encrypted stream at packet boundaries. The splitter keeps a copy of the relay encryptor,
reads the packet lengths off the decrypted bytes and returns the encrypted ones.

## Main definitions

* `TgWsProxy.MsgSplitter` — the splitter's state.
* `TgWsProxy.abridgedLen`, `intermediateLen`, `nextPacketLen` — the length parsers.
* `TgWsProxy.MsgSplitter.split`, `flush`, `trimIdleBuffers` — the operations.
* `TgWsProxy.packetScanner` — the parsers as a prefix-stable scanner.

## Main results

* `TgWsProxy.splitLoop_eq` — the packet loop cuts the buffered ciphertext at the frames of the
  buffered plaintext.

## Design

A slice or `drain` out of range panics in Rust. The operations live in `Option`, with `none` for
a panic; `splitLoop_eq` shows that none occurs while both buffers have the same length.
-/

namespace TgWsProxy

open Framing

/-! ## Length parsers -/

/-- A little-endian number. -/
def leNat : Bytes → ℕ
  | [] => 0
  | b :: l => b.toNat + 256 * leNat l

/-- Payload length and header length of an abridged header, `none` while it is incomplete: one
byte counting words of four bytes, or `0x7F`/`0xFF` followed by a three-byte count. -/
def abridgedHeader (plain : Bytes) : Option (ℕ × ℕ) :=
  match plain with
  | [] => none
  | first :: rest =>
    if first = 0x7f ∨ first = 0xff then
      if plain.length < 4 then none else some (leNat (rest.take 3) * 4, 4)
    else some ((first &&& 0x7f).toNat * 4, 1)

/-- Payload length and header length of an intermediate header: four bytes, the top bit of which
is the quick-ack flag. -/
def intermediateHeader (plain : Bytes) : Option (ℕ × ℕ) :=
  if plain.length < 4 then none else some (leNat (plain.take 4) &&& 0x7fffffff, 4)

/-- The total length of a packet whose header has been read: `some 0` for an empty payload,
`none` while it is not buffered whole. -/
def completeLen (plain : Bytes) (header : ℕ × ℕ) : Option ℕ :=
  if header.1 = 0 then some 0
  else if plain.length < header.2 + header.1 then none
  else some (header.2 + header.1)

def abridgedLen (plain : Bytes) : Option ℕ := (abridgedHeader plain).bind (completeLen plain)

def intermediateLen (plain : Bytes) : Option ℕ :=
  (intermediateHeader plain).bind (completeLen plain)

/-- The header parser of a transport. -/
def headerOf : ProtoTag → Bytes → Option (ℕ × ℕ)
  | .abridged => abridgedHeader
  | .intermediate | .paddedIntermediate => intermediateHeader

/-- `next_packet_len`: the length of the packet at `offset`, `none` while it is incomplete,
`some 0` for an empty one. -/
def nextPacketLen (proto : ProtoTag) (plainBuf : Bytes) (offset : ℕ) : Option ℕ :=
  let plain := plainBuf.drop offset
  if plain = [] then none
  else match proto with
    | .abridged => abridgedLen plain
    | .intermediate | .paddedIntermediate => intermediateLen plain

/-- Every transport reads a header and then checks that the packet is complete. -/
theorem nextPacketLen_eq (proto : ProtoTag) (plainBuf : Bytes) (offset : ℕ) :
    nextPacketLen proto plainBuf offset = if plainBuf.drop offset = [] then none
      else (headerOf proto (plainBuf.drop offset)).bind (completeLen (plainBuf.drop offset)) := by
  cases proto <;> rfl

/-! ## The parsers as a scanner -/

/-- More bytes do not change a header that has been read. -/
theorem headerOf_append {proto : ProtoTag} {l : Bytes} {x : ℕ × ℕ} (h : headerOf proto l = some x)
    (m : Bytes) : headerOf proto (l ++ m) = some x := by
  have habr : ∀ {l : Bytes}, abridgedHeader l = some x → abridgedHeader (l ++ m) = some x := by
    intro l h
    cases l with
    | nil => simp [abridgedHeader] at h
    | cons b l =>
      simp only [abridgedHeader, List.cons_append] at h ⊢
      by_cases hb : b = 0x7f ∨ b = 0xff
      · rw [if_pos hb] at h ⊢
        split_ifs at h with hlen
        simp only [List.length_cons] at hlen
        rw [if_neg (by simp; omega), List.take_append_of_le_length (by omega)]
        exact h
      · rw [if_neg hb] at h ⊢
        exact h
  have hint : ∀ {l : Bytes}, intermediateHeader l = some x →
      intermediateHeader (l ++ m) = some x := by
    intro l h
    simp only [intermediateHeader] at h ⊢
    split_ifs at h ⊢ with hlen hlen'
    · simp at hlen hlen'; omega
    · rw [List.take_append_of_le_length (by omega)]; exact h
  cases proto
  · exact habr h
  · exact hint h
  · exact hint h

/-- More bytes do not change a total length that has been decided. -/
theorem completeLen_append {l : Bytes} {x : ℕ × ℕ} {k : ℕ} (h : completeLen l x = some k)
    (m : Bytes) : completeLen (l ++ m) x = some k := by
  simp only [completeLen] at h ⊢
  split_ifs at h ⊢ with h0 hlen hlen'
  · exact h
  · simp at hlen hlen'; omega
  · exact h

/-- A decided length is at most what is buffered. -/
theorem completeLen_le {l : Bytes} {x : ℕ × ℕ} {k : ℕ} (h : completeLen l x = some k) :
    k ≤ l.length := by
  simp only [completeLen] at h
  split_ifs at h with h0 hlen <;> simp at h <;> omega

/-- A length decided at offset `0` is decided on a non-empty buffer, from its header. -/
theorem nextPacketLen_zero_some {proto : ProtoTag} {l : Bytes} {k : ℕ}
    (h : nextPacketLen proto l 0 = some k) :
    l ≠ [] ∧ ∃ x, headerOf proto l = some x ∧ completeLen l x = some k := by
  rw [nextPacketLen_eq, List.drop_zero] at h
  split_ifs at h with hnil
  exact ⟨hnil, Option.bind_eq_some_iff.mp h⟩

/-- A decided length stays decided. -/
theorem nextPacketLen_append {proto : ProtoTag} {l : Bytes} {k : ℕ}
    (h : nextPacketLen proto l 0 = some k) (m : Bytes) :
    nextPacketLen proto (l ++ m) 0 = some k := by
  obtain ⟨hnil, x, hx, hk⟩ := nextPacketLen_zero_some h
  rw [nextPacketLen_eq, List.drop_zero, if_neg (by simp [hnil]), headerOf_append hx m]
  exact completeLen_append hk m

/-- The verdict behind a packet length. -/
def verdictOf : Option ℕ → Verdict
  | none => .wait
  | some 0 => .stop
  | some (n + 1) => .take (n + 1)

theorem verdictOf_wait {o : Option ℕ} (h : verdictOf o = .wait) : o = none := by
  rcases o with _ | _ | n <;> simp [verdictOf] at h ⊢

theorem verdictOf_take {o : Option ℕ} {n : ℕ} (h : verdictOf o = .take n) :
    o = some n ∧ 0 < n := by
  rcases o with _ | _ | k <;> simp [verdictOf] at h
  subst h
  simp

theorem verdictOf_stop {o : Option ℕ} (h : verdictOf o = .stop) : o = some 0 := by
  rcases o with _ | _ | n <;> simp [verdictOf] at h ⊢

/-- The length parsers of a transport as a scanner. -/
def packetScanner (proto : ProtoTag) : Scanner UInt8 where
  scan l := verdictOf (nextPacketLen proto l 0)
  take_pos h := (verdictOf_take h).2
  take_le h := by
    obtain ⟨-, x, -, hk⟩ := nextPacketLen_zero_some (verdictOf_take h).1
    exact completeLen_le hk
  take_append h m := by
    have hk := (verdictOf_take h).1
    rw [nextPacketLen_append hk m, ← hk, h]
  stop_append h m := by
    have hk := verdictOf_stop h
    rw [nextPacketLen_append hk m, ← hk, h]

theorem scan_packetScanner (proto : ProtoTag) (l : Bytes) :
    (packetScanner proto).scan l = verdictOf (nextPacketLen proto l 0) := rfl

theorem scan_packetScanner_nil (proto : ProtoTag) : (packetScanner proto).scan [] = .wait := rfl

/-! ## The splitter -/

/-- Buffer capacity kept between packets. -/
def retainedCapacity : ℕ := 16 * 1024

/-- Consecutive fully-drained `split` calls before oversized capacity is released. -/
def trimAfterIdleCalls : ℕ := 64

/-- The state of a splitter. -/
structure MsgSplitter where
  /-- Shadows `tg_enc` to decrypt the stream in-band. -/
  dec : AesCtr256
  proto : ProtoTag
  /-- Buffered encrypted bytes. -/
  cipherBuf : Bytes
  /-- Buffered plaintext, used for length parsing only. -/
  plainBuf : Bytes
  /-- Set once a zero length has been read: everything is passed through from then on. -/
  disabled : Bool
  /-- Consecutive calls that left the buffers empty and oversized. -/
  idleCalls : ℕ
  /-- The capacity of `cipher_buf`. -/
  capacity : ℕ

namespace MsgSplitter

/-- `MsgSplitter::new`: a cipher on the raw relay key, fast-forwarded past the relay init. -/
def new (P : Primitives) (relayInit : Block 64) (proto : ProtoTag) : MsgSplitter where
  dec := (makeCipher (prekeyOf relayInit) (ivOf relayInit)).fastForward P
  proto := proto
  cipherBuf := []
  plainBuf := []
  disabled := false
  idleCalls := 0
  capacity := 0

/-- Release capacity grabbed by a large packet once the stream has settled. -/
def trimIdleBuffers (s : MsgSplitter) : MsgSplitter :=
  if s.cipherBuf ≠ [] ∨ s.capacity ≤ retainedCapacity then { s with idleCalls := 0 }
  else if min (s.idleCalls + 1) 255 < trimAfterIdleCalls then
    { s with idleCalls := min (s.idleCalls + 1) 255 }
  else { s with capacity := max s.cipherBuf.length retainedCapacity, idleCalls := 0 }

end MsgSplitter

/-- The slice `v[i..j]`, `none` where Rust panics. -/
def sliceRange (v : Bytes) (i j : ℕ) : Option Bytes :=
  if i ≤ j ∧ j ≤ v.length then some ((v.take j).drop i) else none

/-- `v.drain(..n)`, `none` where Rust panics. -/
def drainFront (v : Bytes) (n : ℕ) : Option Bytes := if n ≤ v.length then some (v.drop n) else none

/-- The consumed front is drained only when there is one. -/
def drainConsumed (v : Bytes) (consumed : ℕ) : Option Bytes :=
  if consumed ≠ 0 then drainFront v consumed else some v

/-- How the packet loop of `split` is left. -/
inductive LoopExit
  /-- The next packet is incomplete: the parts found and the bytes they used. -/
  | needMore (parts : List Bytes) (consumed : ℕ)
  /-- A zero length was read: the parts found, the last of them the rest of the buffer. -/
  | disable (parts : List Bytes)

/-- The packet loop of `split`, from offset `consumed` with `parts` already found. -/
def splitLoop (proto : ProtoTag) (plainBuf cipherBuf : Bytes) (consumed : ℕ)
    (parts : List Bytes) : Option LoopExit :=
  match _h : nextPacketLen proto plainBuf consumed with
  | none => some (.needMore parts consumed)
  | some 0 =>
    (sliceRange cipherBuf consumed cipherBuf.length).map fun rest => .disable (parts ++ [rest])
  | some (n + 1) =>
    match sliceRange cipherBuf consumed (consumed + (n + 1)) with
    | none => none
    | some part => splitLoop proto plainBuf cipherBuf (consumed + (n + 1)) (parts ++ [part])
termination_by plainBuf.length - consumed
decreasing_by
  rw [nextPacketLen_eq] at _h
  split_ifs at _h with hnil
  have := List.length_pos_iff.mpr hnil
  simp only [List.length_drop] at this
  omega

namespace MsgSplitter

/-- `split`: feed relay-encrypted bytes, receive the complete encrypted packets. -/
def split (P : Primitives) (s : MsgSplitter) (encrypted : Bytes) :
    Option (List Bytes × MsgSplitter) :=
  if encrypted = [] then some ([], s)
  else if s.disabled then some ([encrypted], s)
  else
    let plainBuf := s.plainBuf ++ (s.dec.applyKeystream P encrypted).1
    let cipherBuf := s.cipherBuf ++ encrypted
    let grown := if s.capacity < cipherBuf.length then P.vecGrow s.capacity cipherBuf.length
      else s.capacity
    match splitLoop s.proto plainBuf cipherBuf 0 [] with
    | none => none
    | some (.disable parts) =>
      some (parts, { s with
        dec := (s.dec.applyKeystream P encrypted).2, cipherBuf := [], plainBuf := [],
        disabled := true, capacity := 0 })
    | some (.needMore parts consumed) => do
      let cipherRest ← drainConsumed cipherBuf consumed
      let plainRest ← drainConsumed plainBuf consumed
      return (parts, trimIdleBuffers { s with
        dec := (s.dec.applyKeystream P encrypted).2, cipherBuf := cipherRest,
        plainBuf := plainRest, capacity := grown })

/-- `flush`: the remaining buffered bytes as one chunk. -/
def flush (s : MsgSplitter) : List Bytes × MsgSplitter :=
  if s.cipherBuf = [] then ([], s)
  else ([s.cipherBuf], { s with cipherBuf := [], plainBuf := [], capacity := 0 })

/-- The parts returned by `split` over a sequence of reads, and the splitter after them. -/
def splitAll (P : Primitives) : MsgSplitter → List Bytes → Option (List Bytes × MsgSplitter)
  | s, [] => some ([], s)
  | s, r :: rs => do
    let (parts, s) ← s.split P r
    let (more, s) ← splitAll P s rs
    return (parts ++ more, s)

end MsgSplitter

/-! ## What the packet loop does -/

/-- A length at an offset inside the buffer is the length at the start of the rest. -/
theorem nextPacketLen_offset (proto : ProtoTag) (plainBuf : Bytes) (offset : ℕ) :
    nextPacketLen proto plainBuf offset = nextPacketLen proto (plainBuf.drop offset) 0 := by
  rw [nextPacketLen_eq, nextPacketLen_eq, List.drop_zero]

/-- Draining what is there drops it. -/
theorem drainConsumed_eq {v : Bytes} {n : ℕ} (h : n ≤ v.length) :
    drainConsumed v n = some (v.drop n) := by
  unfold drainConsumed
  split_ifs with h0
  · rw [drainFront, if_pos h]
  · rw [not_not] at h0
    simp [h0]

/-- **The packet loop cuts the ciphertext at the frames of the plaintext**, and no slice of it
is out of range, as long as both buffers have the same length.

**Proof sketch.** Induction along the frames of the unread plaintext: each packet found is one
frame, its slice lies inside the ciphertext because the frame lies inside the plaintext. -/
theorem splitLoop_eq (proto : ProtoTag) (plainBuf cipherBuf : Bytes)
    (hlen : plainBuf.length = cipherBuf.length) :
    ∀ (rest : Bytes) (consumed : ℕ) (parts : List Bytes), plainBuf.drop consumed = rest →
      consumed ≤ plainBuf.length →
      splitLoop proto plainBuf cipherBuf consumed parts =
        let fr := (packetScanner proto).frames rest
        some (if fr.2 then
            .disable (parts ++ fr.1.splitLengths (cipherBuf.drop consumed) ++
              [cipherBuf.drop (consumed + fr.1.sum)])
          else .needMore (parts ++ fr.1.splitLengths (cipherBuf.drop consumed))
            (consumed + fr.1.sum)) := by
  intro rest
  induction rest using (packetScanner proto).frames_induction with
  | wait rest hw =>
    intro consumed parts hrest _
    have hnone : nextPacketLen proto plainBuf consumed = none := by
      rw [nextPacketLen_offset, hrest]
      exact verdictOf_wait hw
    rw [splitLoop, Scanner.frames_wait _ hw]
    split <;> simp_all
  | stop rest hs =>
    intro consumed parts hrest hle
    have hzero : nextPacketLen proto plainBuf consumed = some 0 := by
      rw [nextPacketLen_offset, hrest]
      exact verdictOf_stop hs
    have hslice : sliceRange cipherBuf consumed cipherBuf.length =
        some (cipherBuf.drop consumed) := by
      simp [sliceRange, hlen ▸ hle]
    rw [splitLoop, Scanner.frames_stop _ hs]
    split <;> simp_all
  | take rest n ht ih =>
    intro consumed parts hrest hle
    obtain ⟨hsome, hpos⟩ := verdictOf_take ht
    have hfit : consumed + n ≤ plainBuf.length := by
      have := (packetScanner proto).take_le ht
      rw [← hrest, List.length_drop] at this
      omega
    rw [← hrest, ← nextPacketLen_offset] at hsome
    obtain ⟨k, rfl⟩ : ∃ k, n = k + 1 := ⟨n - 1, by omega⟩
    have hslice : sliceRange cipherBuf consumed (consumed + (k + 1)) =
        some ((cipherBuf.drop consumed).take (k + 1)) := by
      rw [sliceRange, if_pos ⟨by omega, by omega⟩, List.drop_take]
      congr 2
      omega
    have hrec := ih (consumed + (k + 1)) (parts ++ [(cipherBuf.drop consumed).take (k + 1)])
      (by rw [← hrest, List.drop_drop]) hfit
    rw [splitLoop, Scanner.frames_take _ ht]
    split
    · simp_all
    · simp_all
    · rename_i m hm
      obtain rfl : m = k := by simp_all
      rw [hslice]
      simp only [hrec, List.splitLengths_cons, List.drop_drop, List.sum_cons, add_assoc,
        List.append_assoc, List.singleton_append]

end TgWsProxy
