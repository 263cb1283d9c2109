import TgWsProxy.Splitter.Runs

set_option relaxedAutoImplicit false
set_option autoImplicit false

/-!
# The representation of the splitter

What the two buffers and the cipher position of a splitter stand for, whatever calls of `split` and
`flush` have been made in whatever order. A flush hands out an incomplete packet, so the buffers no
longer begin at a packet of the input; that they are its last bytes, and the same bytes decrypted,
still holds.

## Main definitions

* `TgWsProxy.SplitterCall` — a call of `split` or `flush`.
* `TgWsProxy.MsgSplitter.runCalls` — the parts that a sequence of calls returns.
* `TgWsProxy.MsgSplitter.Represents` — the invariant.

## Main results

* `TgWsProxy.MsgSplitter.split_represents`, `flush_represents` — each call keeps it.
* `TgWsProxy.MsgSplitter.runCalls_represents` — so does a run, and nothing in it is out of range.
* `TgWsProxy.MsgSplitter.representation_invariant` — what that says of a new splitter.
-/

namespace TgWsProxy

open Framing

/-- A call on a splitter. -/
inductive SplitterCall
  | split (encrypted : Bytes)
  | flush

/-- The bytes that a call hands in. -/
def SplitterCall.input : SplitterCall → Bytes
  | split encrypted => encrypted
  | flush => []

namespace MsgSplitter

variable (P : Primitives)

/-- A call: the parts it returns, `none` where a slice or a drain is out of range. -/
def call (s : MsgSplitter) : SplitterCall → Option (List Bytes × MsgSplitter)
  | .split encrypted => s.split P encrypted
  | .flush => some s.flush

/-- The parts returned by a sequence of calls, and the splitter after them. -/
def runCalls : MsgSplitter → List SplitterCall → Option (List Bytes × MsgSplitter)
  | s, [] => some ([], s)
  | s, c :: cs => do
    let (parts, s) ← s.call P c
    let (more, s) ← runCalls s cs
    return (parts ++ more, s)

/-! ## The invariant -/

/-- What a splitter stands for that started with cipher `c`, has been given `input` and has returned
`parts`. -/
structure Represents (c : AesCtr256) (input : Bytes) (s : MsgSplitter) (parts : List Bytes) :
    Prop where
  /-- What has not been returned is buffered. -/
  bytes_eq : parts.flatten ++ s.cipherBuf = input
  parts_ne : ∀ part ∈ parts, part ≠ []
  dec_eq : s.disabled = false → s.dec = { c with pos := c.pos + input.length }
  /-- The plaintext buffer is the ciphertext buffer, decrypted where it stands in the input. -/
  plain_eq : s.disabled = false →
    s.plainBuf = xorAt P c (c.pos + parts.flatten.length) s.cipherBuf
  empty : s.disabled = true → s.cipherBuf = [] ∧ s.plainBuf = []

variable {P} {c : AesCtr256} {input : Bytes} {s : MsgSplitter} {parts : List Bytes}

/-- Both buffers have the same length. -/
theorem Represents.length_eq (h : Represents P c input s parts) :
    s.plainBuf.length = s.cipherBuf.length := by
  cases hd : s.disabled with
  | false => rw [h.plain_eq hd, length_xorAt]
  | true => rw [(h.empty hd).1, (h.empty hd).2]

/-- A new splitter stands for nothing. -/
theorem represents_new (P : Primitives) (relayInit : Block 64) (proto : ProtoTag) :
    Represents P (new P relayInit proto).dec [] (new P relayInit proto) [] where
  bytes_eq := rfl
  parts_ne := List.forall_mem_nil _
  dec_eq _ := rfl
  plain_eq _ := rfl
  empty := nofun

/-- The decrypted input of a splitter in service continues its plaintext buffer. -/
theorem Represents.plain_append (h : Represents P c input s parts) (hd : s.disabled = false)
    (encrypted : Bytes) :
    s.plainBuf ++ xorAt P s.dec s.dec.pos encrypted =
      xorAt P c (c.pos + parts.flatten.length) (s.cipherBuf ++ encrypted) := by
  have hlen := congrArg List.length h.bytes_eq
  rw [List.length_append] at hlen
  rw [xorAt_append, h.plain_eq hd, h.dec_eq hd, ← hlen, Nat.add_assoc]
  rfl

/-- Once disabled, a splitter passes on what it is given. -/
theorem Represents.passed_on (h : Represents P c input s parts) (hd : s.disabled = true)
    {encrypted : Bytes} (hne : encrypted ≠ []) :
    Represents P c (input ++ encrypted) s (parts ++ [encrypted]) := by
  obtain ⟨hcipher, hplain⟩ := h.empty hd
  have hbytes := h.bytes_eq
  rw [hcipher, List.append_nil] at hbytes
  refine ⟨?_, ?_, ?_, ?_, h.empty⟩
  · rw [hcipher, List.flatten_append, hbytes, List.append_nil]
    simp
  · exact List.forall_mem_append.mpr ⟨h.parts_ne, by simpa using hne⟩
  · exact fun hrun => absurd hd (by simp [hrun])
  · exact fun hrun => absurd hd (by simp [hrun])

/-- In service, the parts are the frames of the grown buffers, and on a zero length the rest; none
of them is empty, and what is drained from one buffer is drained from the other. -/
theorem split_represents_in_service (h : Represents P c input s parts) (hd : s.disabled = false)
    {encrypted : Bytes} (hne : encrypted ≠ []) :
    ∃ ps s', s.split P encrypted = some (ps, s') ∧
      Represents P c (input ++ encrypted) s' (parts ++ ps) := by
  obtain ⟨s', hsplit, _, hdec, hdis, hcipher, hplain⟩ := split_eq P hne hd h.length_eq
  rw [h.plain_append hd] at hsplit hdis hcipher hplain
  set cipher := s.cipherBuf ++ encrypted with hcipherDef
  set plain := xorAt P c (c.pos + parts.flatten.length) cipher with hplainDef
  set fr := (packetScanner s.proto).frames plain with hfr
  have hlen : plain.length = cipher.length := length_xorAt P _ _ _
  have hle : fr.1.sum ≤ cipher.length := by
    rw [← hlen]
    exact Scanner.sum_frames_le _ _
  have hpieces := flatten_splitLengths_append_drop fr.1 cipher
  have hnonempty := splitLengths_ne_nil (Scanner.frames_pos (packetScanner s.proto) plain) hle
  have hinput : parts.flatten ++ cipher = input ++ encrypted := by
    rw [hcipherDef, ← List.append_assoc, h.bytes_eq]
  refine ⟨_, s', hsplit, ?_⟩
  cases hstop : fr.2 with
  | true =>
    -- the rest goes out with the parts, and both buffers are released
    rw [hstop] at hdis
    rw [hdis, if_pos rfl] at hcipher hplain
    have hrest : cipher.drop fr.1.sum ≠ [] := by
      refine List.length_pos_iff.mp ?_
      have hlt := (packetScanner s.proto).sum_frames_lt (scan_packetScanner_nil s.proto) hstop
      rw [List.length_drop, ← hlen]
      exact Nat.sub_pos_of_lt hlt
    refine ⟨?_, ?_, ?_, ?_, fun _ => ⟨hcipher, hplain⟩⟩
    · rw [hcipher, if_pos rfl, List.append_nil, List.flatten_append, List.flatten_append,
        List.flatten_singleton, hpieces, hinput]
    · rw [if_pos rfl]
      exact List.forall_mem_append.mpr ⟨h.parts_ne, List.forall_mem_append.mpr
        ⟨hnonempty, by simpa using hrest⟩⟩
    · exact fun hrun => absurd hdis (by simp [hrun])
    · exact fun hrun => absurd hdis (by simp [hrun])
  | false =>
    rw [hstop] at hdis
    rw [hdis, if_neg Bool.false_ne_true] at hcipher hplain
    have hflat : (parts ++ (fr.1.splitLengths cipher ++ [])).flatten.length =
        parts.flatten.length + fr.1.sum := by
      rw [List.append_nil, List.flatten_append, List.length_append,
        length_flatten_splitLengths hle]
    refine ⟨?_, ?_, ?_, ?_, fun hon => absurd hdis (by simp [hon])⟩
    · rw [hcipher, if_neg Bool.false_ne_true, List.append_nil, List.flatten_append,
        List.append_assoc, hpieces, hinput]
    · rw [if_neg Bool.false_ne_true, List.append_nil]
      exact List.forall_mem_append.mpr ⟨h.parts_ne, hnonempty⟩
    · intro _
      rw [hdec, h.dec_eq hd, List.length_append, Nat.add_assoc]
    · intro _
      rw [if_neg Bool.false_ne_true, hflat, hplain, hcipher, hplainDef, drop_xorAt,
        Nat.add_assoc]

/-- **A `split` keeps the invariant**, and nothing in it is out of range. -/
theorem split_represents (h : Represents P c input s parts) (encrypted : Bytes) :
    ∃ ps s', s.split P encrypted = some (ps, s') ∧
      Represents P c (input ++ encrypted) s' (parts ++ ps) ∧ (s.disabled → s'.disabled) := by
  by_cases hnil : encrypted = []
  · subst hnil
    exact ⟨[], s, if_pos rfl, by rwa [List.append_nil, List.append_nil], id⟩
  cases hd : s.disabled with
  | true =>
    have hsplit : s.split P encrypted = some ([encrypted], s) := by
      rw [split, if_neg hnil, if_pos hd]
    exact ⟨[encrypted], s, hsplit, h.passed_on hd hnil, fun _ => hd⟩
  | false =>
    obtain ⟨ps, s', hsplit, hrep⟩ := split_represents_in_service h hd hnil
    exact ⟨ps, s', hsplit, hrep, fun hon => absurd hon (by simp)⟩

/-- **A `flush` keeps the invariant.** -/
theorem flush_represents (h : Represents P c input s parts) :
    Represents P c input s.flush.2 (parts ++ s.flush.1) ∧ (s.disabled → s.flush.2.disabled) := by
  unfold flush
  split_ifs with hnil
  · exact ⟨by rwa [List.append_nil], id⟩
  · have hd : s.disabled = false := by
      cases hd : s.disabled with
      | false => rfl
      | true => exact absurd (h.empty hd).1 hnil
    refine ⟨⟨?_, ?_, fun _ => h.dec_eq hd, fun _ => rfl, fun _ => ⟨rfl, rfl⟩⟩,
      fun hon => absurd hon (by simp [hd])⟩
    · rw [List.append_nil, List.flatten_append, List.flatten_singleton, h.bytes_eq]
    · exact List.forall_mem_append.mpr ⟨h.parts_ne, by simpa using hnil⟩

theorem call_represents (h : Represents P c input s parts) (x : SplitterCall) :
    ∃ ps s', s.call P x = some (ps, s') ∧
      Represents P c (input ++ x.input) s' (parts ++ ps) ∧ (s.disabled → s'.disabled) := by
  cases x with
  | split encrypted => exact split_represents h encrypted
  | flush =>
    obtain ⟨hflush, hdis⟩ := flush_represents h
    exact ⟨s.flush.1, s.flush.2, rfl, by rwa [SplitterCall.input, List.append_nil], hdis⟩

/-- **A run keeps the invariant.** -/
theorem runCalls_represents (calls : List SplitterCall) {input : Bytes} {s : MsgSplitter}
    {parts : List Bytes} (h : Represents P c input s parts) :
    ∃ ps s', s.runCalls P calls = some (ps, s') ∧
      Represents P c (input ++ (calls.map SplitterCall.input).flatten) s' (parts ++ ps) ∧
      (s.disabled → s'.disabled) := by
  induction calls generalizing input s parts with
  | nil => exact ⟨[], s, rfl, by simpa using h, id⟩
  | cons x calls ih =>
    obtain ⟨ps, s₁, hcall, h₁, hd₁⟩ := call_represents h x
    obtain ⟨qs, s₂, hrun, h₂, hd₂⟩ := ih h₁
    refine ⟨ps ++ qs, s₂, ?_, ?_, hd₂ ∘ hd₁⟩
    · simp [runCalls, hcall, hrun]
    · simpa using h₂

/-- **The representation invariant.** After any calls of `split` and `flush`, none of which is out
of range: what has been returned and what is buffered make up what was handed in; the two buffers
have the same length, and in service the second is the first decrypted with the relay keystream at
the place where its bytes stand in the stream, 64 bytes behind the relay init; once disabled both
are empty, whatever calls follow; and no part is empty. -/
theorem representation_invariant (P : Primitives) (relayInit : Block 64) (proto : ProtoTag)
    (calls : List SplitterCall) :
    ∃ parts s, (new P relayInit proto).runCalls P calls = some (parts, s) ∧
      parts.flatten ++ s.cipherBuf = (calls.map SplitterCall.input).flatten ∧
      s.plainBuf.length = s.cipherBuf.length ∧
      (s.disabled = false → s.plainBuf = xorAt P (relayCipher relayInit)
        (64 + parts.flatten.length) s.cipherBuf) ∧
      (s.disabled = true → ∀ more, ∃ parts' s', s.runCalls P more = some (parts', s') ∧
        s'.disabled = true ∧ s'.cipherBuf = [] ∧ s'.plainBuf = []) ∧
      ∀ part ∈ parts, part ≠ [] := by
  obtain ⟨parts, s, hrun, h, _⟩ := runCalls_represents calls (represents_new P relayInit proto)
  rw [List.nil_append, List.nil_append] at h
  have hdec : (new P relayInit proto).dec = { relayCipher relayInit with pos := 64 } := by
    rw [new, AesCtr256.fastForward_eq, relayCipher, makeCipher]
  refine ⟨parts, s, hrun, h.bytes_eq, h.length_eq, fun hd => ?_, fun hd more => ?_, h.parts_ne⟩
  · rw [h.plain_eq hd, hdec]
    rfl
  · obtain ⟨parts', s', hmore, h', hdis⟩ := runCalls_represents more h
    exact ⟨parts', s', hmore, hdis hd, h'.empty (hdis hd)⟩

end MsgSplitter

end TgWsProxy
