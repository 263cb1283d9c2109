import TgWsProxy.Crypto.Reference
import TgWsProxy.Splitter.Basic

set_option relaxedAutoImplicit false
set_option autoImplicit false

/-!
# Runs of the splitter

What a splitter holds after any reads is determined by the bytes read, not by how they were cut:
`Reaches` says it in terms of the packet boundaries of the decrypted stream, one `split` keeps it
(`split_reaches`), and so a whole run has it (`splitAll_reaches`). Two runs over one stream then
agree, up to where a zero length disables the splitter.

## Main definitions

* `TgWsProxy.MsgSplitter.Reaches` — the state and output of a splitter after a given input.
* `TgWsProxy.MsgSplitter.disableOffset` — the stream offset at which a run disables the splitter.
* `TgWsProxy.PacketStart` — the offsets at which packets of a plaintext stream start.

## Main results

* `TgWsProxy.MsgSplitter.split_reaches`, `splitAll_reaches` — the step and the run lemma.
* `TgWsProxy.MsgSplitter.splitAll_cut_independent` — two ways of cutting one stream into reads
  give the same parts.
-/

namespace TgWsProxy

open Framing

/-! ## Packet starts -/

/-- `PacketStart proto plain off`: complete packets lead from the start of `plain` to `off`. -/
inductive PacketStart (proto : ProtoTag) (plain : Bytes) : ℕ → Prop
  | zero : PacketStart proto plain 0
  | next {off n : ℕ} : PacketStart proto plain off →
      nextPacketLen proto plain off = some (n + 1) → PacketStart proto plain (off + (n + 1))

/-- The frames of a stream lead to a packet start, and a stop is a zero length there. -/
theorem packetStart_frames (proto : ProtoTag) (plain : Bytes) :
    PacketStart proto plain ((packetScanner proto).frames plain).1.sum ∧
      (((packetScanner proto).frames plain).2 = true →
        nextPacketLen proto plain ((packetScanner proto).frames plain).1.sum = some 0) := by
  have key : ∀ (rest : Bytes) (off : ℕ), plain.drop off = rest → PacketStart proto plain off →
      PacketStart proto plain (off + ((packetScanner proto).frames rest).1.sum) ∧
      (((packetScanner proto).frames rest).2 = true →
        nextPacketLen proto plain (off + ((packetScanner proto).frames rest).1.sum) = some 0) := by
    intro rest
    induction rest using (packetScanner proto).frames_induction with
    | wait rest h =>
      intro off _ hoff
      simpa [Scanner.frames_wait _ h] using hoff
    | stop rest h =>
      intro off hrest hoff
      have hzero : nextPacketLen proto plain off = some 0 := by
        rw [nextPacketLen_offset, hrest]
        exact verdictOf_stop h
      simpa [Scanner.frames_stop _ h, hzero] using hoff
    | take rest n h ih =>
      intro off hrest hoff
      obtain ⟨hsome, hpos⟩ := verdictOf_take h
      obtain ⟨k, rfl⟩ : ∃ k, n = k + 1 := ⟨n - 1, by omega⟩
      rw [← hrest, ← nextPacketLen_offset] at hsome
      have := ih (off + (k + 1)) (by rw [← hrest, List.drop_drop]) (.next hoff hsome)
      rw [Scanner.frames_take _ h]
      simpa [add_assoc] using this
  simpa using key plain 0 rfl .zero

namespace MsgSplitter

variable (P : Primitives)

/-! ## The invariant of a run -/

/-- What a splitter that started with cipher `c` holds after reading `input`, and what it has
returned. With `fr` the packet boundaries of the decrypted input: while no zero length was read,
the parts are the packets found and both buffers hold what follows them; after one, the splitter
is disabled and empty, and the parts are the packets before it followed by pieces of the rest. -/
structure Reaches (c : AesCtr256) (proto : ProtoTag) (input : Bytes) (s : MsgSplitter)
    (parts : List Bytes) : Prop where
  proto_eq : s.proto = proto
  disabled_eq : s.disabled = ((packetScanner proto).frames (xorAt P c c.pos input)).2
  running : s.disabled = false →
    s.dec = { c with pos := c.pos + input.length } ∧
    s.cipherBuf = input.drop ((packetScanner proto).frames (xorAt P c c.pos input)).1.sum ∧
    s.plainBuf = (xorAt P c c.pos input).drop
      ((packetScanner proto).frames (xorAt P c c.pos input)).1.sum ∧
    parts = ((packetScanner proto).frames (xorAt P c c.pos input)).1.splitLengths input
  passing : s.disabled = true →
    s.cipherBuf = [] ∧ s.plainBuf = [] ∧
    ∃ tail, parts =
        ((packetScanner proto).frames (xorAt P c c.pos input)).1.splitLengths input ++ tail ∧
      tail.flatten =
        input.drop ((packetScanner proto).frames (xorAt P c c.pos input)).1.sum

/-- A fresh splitter has read nothing. -/
theorem reaches_new (relayInit : Block 64) (proto : ProtoTag) :
    Reaches P (new P relayInit proto).dec proto [] (new P relayInit proto) [] := by
  have hfr : (packetScanner proto).frames [] = ([], false) :=
    Scanner.frames_wait _ (scan_packetScanner_nil proto)
  constructor <;> simp [new, hfr]

@[simp] theorem trimIdleBuffers_fields (s : MsgSplitter) :
    s.trimIdleBuffers.dec = s.dec ∧ s.trimIdleBuffers.proto = s.proto ∧
      s.trimIdleBuffers.cipherBuf = s.cipherBuf ∧ s.trimIdleBuffers.plainBuf = s.plainBuf ∧
      s.trimIdleBuffers.disabled = s.disabled := by
  unfold trimIdleBuffers
  split_ifs <;> simp

/-- What `split` returns in service, on buffers of equal length: with `fr` the boundaries of the
grown plaintext buffer, the packets found and, on a zero length, the rest. -/
theorem split_eq {s : MsgSplitter} {r : Bytes} (hr : r ≠ []) (hs : s.disabled = false)
    (hlen : s.plainBuf.length = s.cipherBuf.length) :
    ∃ s', s.split P r = some
        (((packetScanner s.proto).frames (s.plainBuf ++ xorAt P s.dec s.dec.pos r)).1.splitLengths
            (s.cipherBuf ++ r) ++
          (if ((packetScanner s.proto).frames (s.plainBuf ++ xorAt P s.dec s.dec.pos r)).2 then
            [(s.cipherBuf ++ r).drop ((packetScanner s.proto).frames
              (s.plainBuf ++ xorAt P s.dec s.dec.pos r)).1.sum] else []), s') ∧
      s'.proto = s.proto ∧
      s'.dec = { s.dec with pos := s.dec.pos + r.length } ∧
      s'.disabled =
        ((packetScanner s.proto).frames (s.plainBuf ++ xorAt P s.dec s.dec.pos r)).2 ∧
      s'.cipherBuf = (if s'.disabled then [] else (s.cipherBuf ++ r).drop
        ((packetScanner s.proto).frames (s.plainBuf ++ xorAt P s.dec s.dec.pos r)).1.sum) ∧
      s'.plainBuf = (if s'.disabled then [] else
        (s.plainBuf ++ xorAt P s.dec s.dec.pos r).drop
        ((packetScanner s.proto).frames (s.plainBuf ++ xorAt P s.dec s.dec.pos r)).1.sum) := by
  set plain := s.plainBuf ++ xorAt P s.dec s.dec.pos r with hplain
  set cipher := s.cipherBuf ++ r with hcipher
  set fr := (packetScanner s.proto).frames plain with hfr
  have hlen' : plain.length = cipher.length := by simp [plain, cipher, hlen]
  have hloop := splitLoop_eq s.proto plain cipher hlen' plain 0 [] rfl (Nat.zero_le _)
  simp only [List.drop_zero, List.nil_append, zero_add, ← hfr] at hloop
  have hle : fr.1.sum ≤ plain.length := Scanner.sum_frames_le _ _
  unfold split
  rw [if_neg hr, hs]
  simp only [Bool.false_eq_true, if_false, AesCtr256.applyKeystream, ← hplain, ← hcipher, hloop]
  cases hstop : fr.2 with
  | true =>
    simp only [if_true]
    exact ⟨_, rfl, rfl, rfl, rfl, rfl, rfl⟩
  | false =>
    simp only [Bool.false_eq_true, if_false, drainConsumed_eq hle,
      drainConsumed_eq (hlen' ▸ hle), List.append_nil]
    refine ⟨_, rfl, ?_, ?_, ?_, ?_, ?_⟩ <;> simp

/-- **The step lemma.** One `split` of non-empty bytes takes what the splitter holds after
`input` to what it holds after `input ++ r`.

**Proof sketch.** In service, the buffered plaintext is the decrypted input behind its packet
boundaries, so the boundaries of the grown buffer continue those of the input
(`Scanner.frames_append`). Once disabled, the boundaries no longer change
(`Scanner.frames_append_of_stopped`) and the read is passed on as it is. -/
theorem split_reaches {c : AesCtr256} {proto : ProtoTag} {input : Bytes} {s : MsgSplitter}
    {parts : List Bytes} (h : Reaches P c proto input s parts) {r : Bytes} (hr : r ≠ []) :
    ∃ ps s', s.split P r = some (ps, s') ∧ Reaches P c proto (input ++ r) s' (parts ++ ps) := by
  obtain ⟨hproto, hdis, hrun, hpass⟩ := h
  set X := xorAt P c c.pos input with hX
  set fr := (packetScanner proto).frames X with hfr
  have hXr : xorAt P c c.pos (input ++ r) = X ++ xorAt P c (c.pos + input.length) r :=
    xorAt_append P c c.pos input r
  have hsum : fr.1.sum ≤ X.length := Scanner.sum_frames_le _ _
  have hXlen : X.length = input.length := length_xorAt P c c.pos input
  cases hd : s.disabled with
  | false =>
    obtain ⟨hdec, hcb, hpb, hparts⟩ := hrun hd
    have hfr2 : fr.2 = false := by rw [← hdis, hd]
    obtain ⟨s', hsplit, hproto', hdec', hdis', hcb', hpb'⟩ :=
      split_eq P (s := s) hr hd (by rw [hcb, hpb]; simp [hXlen])
    have hgrown : s.plainBuf ++ xorAt P s.dec s.dec.pos r =
        X.drop fr.1.sum ++ xorAt P c (c.pos + input.length) r := by
      rw [hpb, hdec]; rfl
    have hgrownC : s.cipherBuf ++ r = (input ++ r).drop fr.1.sum := by
      rw [hcb, List.drop_append_of_le_length (by omega)]
    rw [hgrown, hgrownC, hproto] at hsplit
    rw [hgrown, hproto] at hdis' hcb' hpb'
    rw [hgrownC] at hcb'
    set gr := (packetScanner proto).frames
      (X.drop fr.1.sum ++ xorAt P c (c.pos + input.length) r) with hgr
    have hall : (packetScanner proto).frames (xorAt P c c.pos (input ++ r)) =
        (fr.1 ++ gr.1, gr.2) := by
      rw [hXr, Scanner.frames_append _ hfr2]
    have hcut : fr.1.splitLengths input = fr.1.splitLengths (input ++ r) :=
      (splitLengths_append_left (by omega) r).symm
    refine ⟨_, s', hsplit, hproto'.trans hproto, by rw [hdis', hall], ?_, ?_⟩
    · intro hrun'
      rw [hdis'] at hrun'
      rw [hall, hcb', hpb', hdec', hdec, hdis', hrun', hparts, hcut]
      refine ⟨?_, ?_, ?_, ?_⟩
      · simp [add_assoc]
      · simp [List.drop_drop]
      · rw [hXr, List.sum_append, ← List.drop_drop, List.drop_append_of_le_length hsum]
        simp
      · simp [splitLengths_append]
    · intro hstop
      rw [hdis'] at hstop
      rw [hall, hcb', hpb', hdis', hstop, hparts, hcut]
      refine ⟨rfl, rfl, [((input ++ r).drop fr.1.sum).drop gr.1.sum], ?_, ?_⟩
      · simp [splitLengths_append]
      · simp [List.drop_drop]
  | true =>
    obtain ⟨hcb, hpb, tail, hparts, htail⟩ := hpass hd
    have hfr2 : fr.2 = true := by rw [← hdis, hd]
    have hall : (packetScanner proto).frames (xorAt P c c.pos (input ++ r)) = fr := by
      rw [hXr, Scanner.frames_append_of_stopped _ hfr2]
    refine ⟨[r], s, ?_, hproto, by rw [hall, hfr2, hd], ?_, ?_⟩
    · rw [split, if_neg hr, if_pos hd]
    · intro hrun'
      rw [hd] at hrun'
      cases hrun'
    · intro _
      refine ⟨hcb, hpb, tail ++ [r], ?_, ?_⟩
      · rw [hall, hparts, splitLengths_append_left (by omega) r, List.append_assoc]
      · rw [hall, List.flatten_append, htail, List.drop_append_of_le_length (by omega)]
        simp

/-- **The run lemma.** Reads of any sizes lead to what their concatenation determines, and no
slice or drain on the way is out of range. -/
theorem splitAll_reaches {c : AesCtr256} {proto : ProtoTag} :
    ∀ (reads : List Bytes), (∀ r ∈ reads, r ≠ []) → ∀ {input : Bytes} {s : MsgSplitter}
      {parts : List Bytes}, Reaches P c proto input s parts →
      ∃ ps s', s.splitAll P reads = some (ps, s') ∧
        Reaches P c proto (input ++ reads.flatten) s' (parts ++ ps)
  | [], _, input, s, parts, h => ⟨[], s, rfl, by simpa using h⟩
  | r :: rs, hne, input, s, parts, h => by
    obtain ⟨ps, s₁, hsplit, h₁⟩ := split_reaches P h (hne r (by simp))
    obtain ⟨qs, s₂, hrest, h₂⟩ :=
      splitAll_reaches rs (fun q hq => hne q (by simp [hq])) h₁
    refine ⟨ps ++ qs, s₂, ?_, ?_⟩
    · simp [splitAll, hsplit, hrest]
    · simpa using h₂

/-! ## Where a run disables the splitter -/

/-- The stream offset at which a run of reads disables the splitter, `emitted` bytes having been
returned before: the last part of the disabling call is the rest of the buffer, which starts with
the header that was refused. -/
def disableOffset : MsgSplitter → ℕ → List Bytes → Option ℕ
  | _, _, [] => none
  | s, emitted, r :: rs =>
    match s.split P r with
    | none => none
    | some (parts, s') =>
      if !s.disabled && s'.disabled then some (emitted + parts.dropLast.flatten.length)
      else disableOffset s' (emitted + parts.flatten.length) rs

/-- The bytes of pieces that fit the list. -/
theorem length_flatten_splitLengths {sz : List ℕ} {l : Bytes} (h : sz.sum ≤ l.length) :
    (sz.splitLengths l).flatten.length = sz.sum := by
  have := congrArg List.length (flatten_splitLengths_append_drop sz l)
  simp only [List.length_append, List.length_drop] at this
  omega

/-- A run disables the splitter exactly where the packet boundaries of the whole stream stop. -/
theorem disableOffset_eq {c : AesCtr256} {proto : ProtoTag} :
    ∀ (reads : List Bytes), (∀ r ∈ reads, r ≠ []) → ∀ {input : Bytes} {s : MsgSplitter}
      {parts : List Bytes}, Reaches P c proto input s parts → s.disabled = false →
      s.disableOffset P parts.flatten.length reads =
        if ((packetScanner proto).frames (xorAt P c c.pos (input ++ reads.flatten))).2 then
          some ((packetScanner proto).frames
            (xorAt P c c.pos (input ++ reads.flatten))).1.sum else none
  | [], _, input, s, parts, h, hs => by
    have := h.disabled_eq
    rw [hs] at this
    simp [disableOffset, ← this]
  | r :: rs, hne, input, s, parts, h, hs => by
    obtain ⟨ps, s₁, hsplit, h₁⟩ := split_reaches P h (hne r (by simp))
    have hcat : input ++ (r :: rs).flatten = input ++ r ++ rs.flatten := by simp
    rw [disableOffset, hsplit, hcat]
    cases hd : s₁.disabled with
    | true =>
      -- the boundaries stop inside `input ++ r`, and later reads do not move them
      have hstop := h₁.disabled_eq
      rw [hd] at hstop
      obtain ⟨-, hcb, hpb, hparts⟩ := h.running hs
      obtain ⟨-, -, tail, hparts₁, htail⟩ := h₁.passing hd
      have hfix : (packetScanner proto).frames (xorAt P c c.pos (input ++ r ++ rs.flatten)) =
          (packetScanner proto).frames (xorAt P c c.pos (input ++ r)) := by
        rw [xorAt_append, Scanner.frames_append_of_stopped _ hstop.symm]
      obtain ⟨s', hsplit', -, -, hdis', -, -⟩ := split_eq P (s := s) (hne r (by simp)) hs
        (by rw [hcb, hpb]; simp)
      rw [hsplit, Option.some.injEq, Prod.mk.injEq] at hsplit'
      obtain ⟨hps, rfl⟩ := hsplit'
      rw [hd] at hdis'
      rw [← hdis', if_pos rfl] at hps
      simp only [hs, hd, Bool.not_false, Bool.and_self, if_true, hfix, ← hstop]
      congr 1
      -- counting the bytes of `parts ++ ps` in two ways gives the offset
      have hdrop : ps.dropLast = ((packetScanner s.proto).frames
          (s.plainBuf ++ xorAt P s.dec s.dec.pos r)).1.splitLengths (s.cipherBuf ++ r) := by
        rw [hps, List.dropLast_concat]
      have hfr := h.disabled_eq
      rw [hs] at hfr
      have hall := Scanner.frames_append (packetScanner proto) hfr.symm
        (xorAt P c (c.pos + input.length) r)
      have hbuf : s.plainBuf ++ xorAt P s.dec s.dec.pos r = (xorAt P c c.pos input).drop
          ((packetScanner proto).frames (xorAt P c c.pos input)).1.sum ++
            xorAt P c (c.pos + input.length) r := by
        rw [hpb, (h.running hs).1]; rfl
      rw [hdrop, length_flatten_splitLengths, hparts, length_flatten_splitLengths, h.proto_eq,
        hbuf, xorAt_append, hall, List.sum_append]
      · have := Scanner.sum_frames_le (packetScanner proto) (xorAt P c c.pos input)
        simpa using this
      · have := Scanner.sum_frames_le (packetScanner s.proto)
          (s.plainBuf ++ xorAt P s.dec s.dec.pos r)
        have hlen : s.plainBuf.length = s.cipherBuf.length := by rw [hcb, hpb]; simp
        simp only [List.length_append, length_xorAt] at this ⊢
        omega
    | false =>
      have := disableOffset_eq rs (fun q hq => hne q (by simp [hq])) h₁ hd
      simp only [hs, hd, Bool.not_false, Bool.and_false, Bool.false_eq_true, if_false]
      rw [← this, List.flatten_append, List.length_append]

/-! ## Two runs over one stream -/

/-- What is left in a splitter in service comes out of `flush`. -/
theorem flush_fst (s : MsgSplitter) :
    s.flush.1 = if s.cipherBuf = [] then [] else [s.cipherBuf] := by
  unfold flush
  split_ifs <;> rfl

/-- **Read boundaries do not matter.** Any two ways of cutting one byte stream into non-empty
reads run through without an out-of-range slice, and either neither disables the splitter and
the parts followed by the flush are the same list, or both disable it at the same offset, where
the decrypted stream has its first zero-length header, the parts before it are the same list and
the bytes from it on are the same.

**Proof sketch.** By `splitAll_reaches` both final states are described by the packet boundaries
of the one decrypted stream; `disableOffset_eq` gives the offset and `packetStart_frames` says
what stands there. -/
theorem splitAll_cut_independent (relayInit : Block 64) (proto : ProtoTag)
    (reads₁ reads₂ : List Bytes) (hne₁ : ∀ r ∈ reads₁, r ≠ []) (hne₂ : ∀ r ∈ reads₂, r ≠ [])
    (hcat : reads₁.flatten = reads₂.flatten) :
    ∃ parts₁ s₁ parts₂ s₂,
      (new P relayInit proto).splitAll P reads₁ = some (parts₁, s₁) ∧
      (new P relayInit proto).splitAll P reads₂ = some (parts₂, s₂) ∧
      ((s₁.disabled = false ∧ s₂.disabled = false ∧
          parts₁ ++ s₁.flush.1 = parts₂ ++ s₂.flush.1) ∨
        (s₁.disabled = true ∧ s₂.disabled = true ∧ ∃ off before tail₁ tail₂,
          (new P relayInit proto).disableOffset P 0 reads₁ = some off ∧
          (new P relayInit proto).disableOffset P 0 reads₂ = some off ∧
          PacketStart proto ((new P relayInit proto).dec.feed P reads₁) off ∧
          nextPacketLen proto ((new P relayInit proto).dec.feed P reads₁) off = some 0 ∧
          parts₁ ++ s₁.flush.1 = before ++ tail₁ ∧ parts₂ ++ s₂.flush.1 = before ++ tail₂ ∧
          before.flatten.length = off ∧ tail₁.flatten = tail₂.flatten)) := by
  set c := (new P relayInit proto).dec with hc
  have h0 : Reaches P c proto [] (new P relayInit proto) [] := reaches_new P relayInit proto
  obtain ⟨parts₁, s₁, hrun₁, h₁⟩ := splitAll_reaches P reads₁ hne₁ h0
  obtain ⟨parts₂, s₂, hrun₂, h₂⟩ := splitAll_reaches P reads₂ hne₂ h0
  have hoff₁ := disableOffset_eq P reads₁ hne₁ h0 rfl
  have hoff₂ := disableOffset_eq P reads₂ hne₂ h0 rfl
  simp only [List.nil_append, ← hcat] at h₁ h₂ hoff₁ hoff₂
  refine ⟨parts₁, s₁, parts₂, s₂, hrun₁, hrun₂, ?_⟩
  rw [AesCtr256.feed_eq_xorAt]
  set X := xorAt P c c.pos reads₁.flatten with hX
  set fr := (packetScanner proto).frames X with hfr
  have hd₁ : s₁.disabled = fr.2 := h₁.disabled_eq
  have hd₂ : s₂.disabled = fr.2 := h₂.disabled_eq
  cases hstop : fr.2 with
  | false =>
    obtain ⟨-, hcb₁, -, hparts₁⟩ := h₁.running (hd₁.trans hstop)
    obtain ⟨-, hcb₂, -, hparts₂⟩ := h₂.running (hd₂.trans hstop)
    refine .inl ⟨hd₁.trans hstop, hd₂.trans hstop, ?_⟩
    rw [flush_fst, flush_fst, hcb₁, hcb₂, hparts₁, hparts₂]
  | true =>
    obtain ⟨hcb₁, -, tail₁, hparts₁, htail₁⟩ := h₁.passing (hd₁.trans hstop)
    obtain ⟨hcb₂, -, tail₂, hparts₂, htail₂⟩ := h₂.passing (hd₂.trans hstop)
    obtain ⟨hstart, hzero⟩ := packetStart_frames proto X
    have hsum : fr.1.sum ≤ reads₁.flatten.length := by
      have := Scanner.sum_frames_le (packetScanner proto) X
      simpa [hX] using this
    refine .inr ⟨hd₁.trans hstop, hd₂.trans hstop, fr.1.sum,
      fr.1.splitLengths reads₁.flatten, tail₁, tail₂, ?_, ?_, hstart, hzero hstop, ?_, ?_,
      length_flatten_splitLengths hsum, htail₁.trans htail₂.symm⟩
    · simpa [hstop] using hoff₁
    · simpa [hstop] using hoff₂
    · simp [flush_fst, hcb₁, hparts₁, hfr, hX]
    · simp [flush_fst, hcb₂, hparts₂, hfr, hX]

/-- Two ways of cutting four bytes. -/
theorem splitAll_cut_independent_sample :
    ∃ parts₁ s₁ parts₂ s₂,
      (new Reference.primitives Reference.sampleDraw .intermediate).splitAll Reference.primitives
        [[1, 2, 3], [4]] = some (parts₁, s₁) ∧
      (new Reference.primitives Reference.sampleDraw .intermediate).splitAll Reference.primitives
        [[1], [2, 3, 4]] = some (parts₂, s₂) ∧ s₁.disabled = s₂.disabled := by
  obtain ⟨parts₁, s₁, parts₂, s₂, h₁, h₂, hcases⟩ :=
    splitAll_cut_independent Reference.primitives Reference.sampleDraw .intermediate
      [[1, 2, 3], [4]] [[1], [2, 3, 4]] (by simp) (by simp) (by simp)
  refine ⟨parts₁, s₁, parts₂, s₂, h₁, h₂, ?_⟩
  rcases hcases with ⟨hd₁, hd₂, -⟩ | ⟨hd₁, hd₂, -⟩
  · rw [hd₁, hd₂]
  · rw [hd₁, hd₂]

end MsgSplitter

end TgWsProxy
