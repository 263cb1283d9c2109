import TgWsProxy.Http.Safety

set_option relaxedAutoImplicit false
set_option autoImplicit false

/-!
# Chunked messages

A chunked body on the wire: chunks, a last size line, and a trailer section that ends in a blank
line. While the reader works through bytes that begin with such a message, the variables at every
loop head are determined by how much of the message lies behind the cursor.

## Main definitions

* `TgWsProxy.ChunkedMessage` — the pieces of a message, as the reader takes them.
* `TgWsProxy.OnTrack` — where the reader stands in a message.

## Main results

* `TgWsProxy.OnTrack.step` — a pass moves on in the message.
* `TgWsProxy.OnTrack.done` — what is returned is the body of the message.
* `TgWsProxy.OnTrack.fails` — within `MAX_BODY_BYTES` only the limit on the trailers can stop it.
* `TgWsProxy.run_of_onTrack` — a run returns the body if that limit is not met.
-/

namespace TgWsProxy

open Slices Loops

variable {w : PointerWidth}

/-! ## Messages -/

/-- A size line, without its line end, and the data behind it. -/
structure Chunk where
  line : Bytes
  data : Bytes

/-- A chunk on the wire. -/
def Chunk.bytes (c : Chunk) : Bytes := c.line ++ crlf ++ (c.data ++ crlf)

/-- The reader takes a chunk as it is meant. -/
structure Chunk.Reads (w : PointerWidth) (c : Chunk) : Prop where
  line_free : CrlfFree c.line
  size_eq : chunkSize w c.line = .ok c.data.length
  data_ne : c.data ≠ []

/-- A chunked message. -/
structure ChunkedMessage (w : PointerWidth) where
  chunks : List Chunk
  last : Bytes
  trailers : List Bytes
  chunks_read : ∀ c ∈ chunks, c.Reads w
  last_free : CrlfFree last
  last_size : chunkSize w last = .ok 0
  trailers_free : ∀ t ∈ trailers, t ≠ [] ∧ CrlfFree t

/-- Chunks on the wire. -/
def chunkBytes (chunks : List Chunk) : Bytes := chunks.flatMap Chunk.bytes

/-- Trailer lines on the wire. -/
def trailerBytes (trailers : List Bytes) : Bytes := trailers.flatMap (· ++ crlf)

namespace ChunkedMessage

variable (m : ChunkedMessage w)

/-- The body. -/
def body : Bytes := m.chunks.flatMap Chunk.data

/-- Everything before the trailer section. -/
def start : Bytes := chunkBytes m.chunks ++ (m.last ++ crlf)

/-- The trailer lines and the blank line. -/
def trailerSection : Bytes := trailerBytes m.trailers ++ crlf

/-- The message on the wire. -/
def encode : Bytes := m.start ++ m.trailerSection

theorem length_encode : m.encode.length = m.start.length + m.trailerSection.length :=
  List.length_append

end ChunkedMessage

theorem length_crlf : crlf.length = 2 := rfl

@[simp] theorem chunkBytes_append (a b : List Chunk) :
    chunkBytes (a ++ b) = chunkBytes a ++ chunkBytes b := List.flatMap_append

@[simp] theorem chunkBytes_cons (c : Chunk) (cs : List Chunk) :
    chunkBytes (c :: cs) = c.bytes ++ chunkBytes cs := List.flatMap_cons

@[simp] theorem trailerBytes_append (a b : List Bytes) :
    trailerBytes (a ++ b) = trailerBytes a ++ trailerBytes b := List.flatMap_append

@[simp] theorem trailerBytes_cons (t : Bytes) (ts : List Bytes) :
    trailerBytes (t :: ts) = t ++ crlf ++ trailerBytes ts := List.flatMap_cons

/-- The data of chunks is no longer than the chunks. -/
theorem length_data_le (chunks : List Chunk) :
    (chunks.flatMap Chunk.data).length ≤ (chunkBytes chunks).length := by
  induction chunks with
  | nil => exact Nat.le_refl _
  | cons c chunks ih =>
    rw [List.flatMap_cons, chunkBytes_cons, List.length_append, List.length_append, Chunk.bytes]
    simp only [List.length_append]
    omega

/-! ## Lines at a cursor -/

section Cursor

variable {body stream before line piece after : Bytes}

/-- What lies behind the cursor in all the bytes begins with what lies behind it in the buffer. -/
theorem drop_buffered (hpos : before.length ≤ body.length)
    (hbytes : body ++ stream = before ++ after) : body.drop before.length ++ stream = after := by
  rw [← List.drop_append_of_le_length hpos, hbytes, List.drop_left]

/-- A line that is found in the buffer is the line that lies behind the cursor. -/
theorem line_of_position {rel : ℕ} (hpos : before.length ≤ body.length)
    (hbytes : body ++ stream = before ++ (line ++ crlf ++ after)) (hfree : CrlfFree line)
    (hrel : crlfPosition (body.drop before.length) = some rel) :
    rel = line.length ∧ (body.drop before.length).take rel = line := by
  have hline := drop_buffered hpos hbytes
  have hlong : crlfPosition (body.drop before.length ++ stream) = some rel :=
    Text.position_append hrel stream
  rw [hline, crlfFree_position hfree] at hlong
  obtain rfl := Option.some.inj hlong
  have hle : line.length + 2 ≤ (body.drop before.length).length := Text.position_le hrel
  refine ⟨rfl, ?_⟩
  calc (body.drop before.length).take line.length
      = (body.drop before.length ++ stream).take line.length :=
        (List.take_append_of_le_length (by omega)).symm
    _ = line := by rw [hline, List.append_assoc, List.take_left]

/-- A line that is not found has not been read to its end. -/
theorem short_of_no_position (hpos : before.length ≤ body.length)
    (hbytes : body ++ stream = before ++ (line ++ crlf ++ after)) (hfree : CrlfFree line)
    (hnone : crlfPosition (body.drop before.length) = none) :
    body.length < before.length + line.length + 2 := by
  by_contra hlong
  have hfound := crlfFree_position hfree after
  rw [← drop_buffered hpos hbytes] at hfound
  have hle : line.length + crlf.length ≤ (body.drop before.length).length := by
    rw [length_crlf, List.length_drop]
    omega
  have hhere : crlfPosition (body.drop before.length) = some line.length :=
    Text.position_of_append hfound hle
  rw [hnone] at hhere
  cases hhere

/-- The buffered part of a piece behind the cursor. -/
theorem piece_of_bytes (hpos : before.length + piece.length ≤ body.length)
    (hbytes : body ++ stream = before ++ (piece ++ after)) :
    (body.drop before.length).take piece.length = piece := by
  have hpiece := drop_buffered (by omega) hbytes
  have hle : piece.length ≤ (body.drop before.length).length := by
    rw [List.length_drop]
    omega
  have htake : ((body.drop before.length) ++ stream).take piece.length =
      (body.drop before.length).take piece.length := List.take_append_of_le_length hle
  rw [← htake, hpiece, List.take_left]

/-- The buffered line end behind a piece. -/
theorem crlf_behind (hpos : before.length + piece.length + 2 ≤ body.length)
    (hbytes : body ++ stream = before ++ (piece ++ (crlf ++ after))) :
    (body.drop (before.length + piece.length)).take 2 = crlf := by
  rw [← List.append_assoc] at hbytes
  have hcrlf := piece_of_bytes (by rw [List.length_append]; exact hpos) hbytes
  rwa [List.length_append] at hcrlf

end Cursor

/-! ## Places in a message -/

namespace ChunkedMessage

variable (m : ChunkedMessage w)

/-- The size line in front of the chunks that are left. -/
def sizeLineOf : List Chunk → Bytes
  | [] => m.last
  | c :: _ => c.line

/-- The size on it. -/
def sizeOf : List Chunk → ℕ
  | [] => 0
  | c :: _ => c.data.length

/-- What stands behind it. -/
def behindSizeLine : List Chunk → Bytes
  | [] => m.trailerSection
  | c :: next => c.data ++ (crlf ++ (chunkBytes next ++ (m.last ++ crlf) ++ m.trailerSection))

/-- The trailer line in front of the trailers that are left, or the blank line. -/
def trailerOf : List Bytes → Bytes
  | [] => []
  | t :: _ => t

/-- What stands behind it. -/
def behindTrailer : List Bytes → Bytes
  | [] => []
  | _ :: next => trailerBytes next ++ crlf

variable {m} {past next : List Chunk} {c : Chunk}

theorem encode_at_sizeLine (h : m.chunks = past ++ next) :
    m.encode = chunkBytes past ++ (m.sizeLineOf next ++ crlf ++ m.behindSizeLine next) := by
  rw [encode, start, h]
  cases next <;> simp [sizeLineOf, behindSizeLine, chunkBytes, Chunk.bytes]

theorem encode_at_data (h : m.chunks = past ++ c :: next) :
    ∃ after, m.encode = (chunkBytes past ++ (c.line ++ crlf)) ++ (c.data ++ (crlf ++ after)) := by
  refine ⟨chunkBytes next ++ (m.last ++ crlf) ++ m.trailerSection, ?_⟩
  rw [encode_at_sizeLine h]
  simp [sizeLineOf, behindSizeLine]

theorem encode_at_trailer {past next : List Bytes} (h : m.trailers = past ++ next) :
    m.encode =
      (m.start ++ trailerBytes past) ++ (trailerOf next ++ crlf ++ behindTrailer next) := by
  rw [encode, trailerSection, h]
  cases next <;> simp [trailerOf, behindTrailer, trailerBytes]

theorem sizeLineOf_free (h : m.chunks = past ++ next) : CrlfFree (m.sizeLineOf next) := by
  cases next with
  | nil => exact m.last_free
  | cons c next => exact (m.chunks_read c (by simp [h])).line_free

theorem chunkSize_sizeLineOf (h : m.chunks = past ++ next) :
    chunkSize w (m.sizeLineOf next) = .ok (sizeOf next) := by
  cases next with
  | nil => exact m.last_size
  | cons c next => exact (m.chunks_read c (by simp [h])).size_eq

/-- Zero stands on the last size line only. -/
theorem sizeOf_eq_zero_iff (h : m.chunks = past ++ next) : sizeOf next = 0 ↔ next = [] := by
  cases next with
  | nil => exact ⟨fun _ => rfl, fun _ => rfl⟩
  | cons c next =>
    have hne := (m.chunks_read c (by simp [h])).data_ne
    simp [sizeOf, hne]

theorem sizeOf_le (next : List Chunk) : sizeOf next ≤ (m.behindSizeLine next).length := by
  cases next with
  | nil => exact Nat.zero_le _
  | cons c next =>
    rw [sizeOf, behindSizeLine, List.length_append]
    omega

theorem trailerOf_free {past next : List Bytes} (h : m.trailers = past ++ next) :
    CrlfFree (trailerOf next) := by
  cases next with
  | nil => exact (by decide : CrlfFree [])
  | cons t next => exact (m.trailers_free t (by simp [h])).2

/-- The blank line comes last. -/
theorem trailerOf_eq_nil_iff {past next : List Bytes} (h : m.trailers = past ++ next) :
    trailerOf next = [] ↔ next = [] := by
  cases next with
  | nil => exact ⟨fun _ => rfl, fun _ => rfl⟩
  | cons t next => simp [trailerOf, (m.trailers_free t (by simp [h])).1]

end ChunkedMessage

/-! ## The reader in a message -/

/-- Where a loop head stands in a message. -/
def BodyHead.InMessage (m : ChunkedMessage w) : BodyHead → Prop
  | sizeLine decoded pos => ∃ past next, m.chunks = past ++ next ∧
      decoded = past.flatMap Chunk.data ∧ pos = (chunkBytes past).length
  | data decoded pos size => ∃ past c next, m.chunks = past ++ c :: next ∧
      decoded = past.flatMap Chunk.data ∧
      pos = (chunkBytes past ++ (c.line ++ crlf)).length ∧ size = c.data.length
  | trailer decoded trailerStart pos => decoded = m.body ∧ trailerStart = m.start.length ∧
      ∃ past next, m.trailers = past ++ next ∧ pos = (m.start ++ trailerBytes past).length
  | contentLength _ => False
  | untilEof => False

/-- The reader works through a message `m`, with `rest` behind it. -/
structure OnTrack (m : ChunkedMessage w) (rest : Bytes) (s : BodyState) : Prop where
  bytes_eq : s.body ++ s.reader.stream = m.encode ++ rest
  pos_le : s.head.pos ≤ s.body.length
  head : s.head.InMessage m

section Track

open ChunkedMessage

variable {m : ChunkedMessage w} {rest : Bytes} {s s' : BodyState} {bytes : Bytes}

/-- A line in a message with more bytes behind. -/
theorem append_line {before line after : Bytes}
    (hbytes : bytes = m.encode ++ rest) (h : m.encode = before ++ (line ++ crlf ++ after)) :
    bytes = before ++ (line ++ crlf ++ (after ++ rest)) := by
  rw [hbytes, h]
  simp only [List.append_assoc]

/-- The end of a line in a message. -/
theorem line_le_encode {before line after : Bytes}
    (h : m.encode = before ++ (line ++ crlf ++ after)) :
    before.length + line.length + 2 ≤ m.encode.length := by
  rw [h]
  simp only [List.length_append, length_crlf]
  omega

/-- The end of the data of a chunk in a message. -/
theorem data_le_encode {past next : List Chunk} {c : Chunk} (h : m.chunks = past ++ c :: next) :
    (chunkBytes past ++ (c.line ++ crlf)).length + c.data.length + 2 ≤ m.encode.length := by
  obtain ⟨after, hencode⟩ := encode_at_data h
  have hlen := congrArg List.length hencode
  simp only [List.length_append, length_crlf] at hlen ⊢
  omega

/-- The data of a chunk and the line end behind them in a message with more bytes behind. -/
theorem append_data {past next : List Chunk} {c : Chunk} (hbytes : bytes = m.encode ++ rest)
    (h : m.chunks = past ++ c :: next) :
    ∃ after, bytes = (chunkBytes past ++ (c.line ++ crlf)) ++ (c.data ++ (crlf ++ after)) := by
  obtain ⟨after, hencode⟩ := encode_at_data h
  exact ⟨after ++ rest, by rw [hbytes, hencode]; simp only [List.append_assoc]⟩

/-- Where the reader looks for a line end, the line is one of the message. -/
theorem OnTrack.line_at (hs : OnTrack m rest s)
    (hhead : (∃ d pos, s.head = .sizeLine d pos) ∨ ∃ d t pos, s.head = .trailer d t pos) :
    ∃ before line after, m.encode = before ++ (line ++ crlf ++ after) ∧ CrlfFree line ∧
      s.head.pos = before.length := by
  obtain ⟨r, body, head⟩ := s
  obtain ⟨_, _, hin⟩ := hs
  rcases hhead with ⟨d, pos, rfl⟩ | ⟨d, t, pos, rfl⟩
  · obtain ⟨past, next, hchunks, _, hpos⟩ := hin
    exact ⟨_, _, _, encode_at_sizeLine hchunks, sizeLineOf_free hchunks, hpos⟩
  · obtain ⟨_, _, past, next, htrailers, hpos⟩ := hin
    exact ⟨_, _, _, encode_at_trailer htrailers, trailerOf_free htrailers, hpos⟩

/-- A line end that is missing behind the cursor is a missing part of the message. -/
theorem OnTrack.short_of_no_line (hs : OnTrack m rest s)
    (hhead : (∃ d pos, s.head = .sizeLine d pos) ∨ ∃ d t pos, s.head = .trailer d t pos)
    (hnone : crlfPosition (s.body.drop s.head.pos) = none) : s.body.length < m.encode.length := by
  obtain ⟨before, line, after, hencode, hfree, hpos⟩ := hs.line_at hhead
  have hle := hs.pos_le
  rw [hpos] at hle hnone
  exact Nat.lt_of_lt_of_le
    (short_of_no_position hle (append_line hs.bytes_eq hencode) hfree hnone)
    (line_le_encode hencode)

/-- The end of a line that is found lies within the message. -/
theorem OnTrack.lineEnd_le (hs : OnTrack m rest s)
    (hhead : (∃ d pos, s.head = .sizeLine d pos) ∨ ∃ d t pos, s.head = .trailer d t pos) {rel : ℕ}
    (hrel : crlfPosition (s.body.drop s.head.pos) = some rel) :
    s.head.pos + rel + 2 ≤ m.encode.length := by
  obtain ⟨before, line, after, hencode, hfree, hpos⟩ := hs.line_at hhead
  have hle := hs.pos_le
  rw [hpos] at hle hrel ⊢
  rw [(line_of_position hle (append_line hs.bytes_eq hencode) hfree hrel).1]
  exact line_le_encode hencode

/-- **A pass moves on in the message.** -/
theorem OnTrack.step (hs : OnTrack m rest s) (h : BodyStep w s s') : OnTrack m rest s' := by
  obtain ⟨hbytes, hpos, hhead⟩ := hs
  have hbytes' := h.bytes_eq.trans hbytes
  cases h with
  | read _ _ _ =>
    refine ⟨hbytes', ?_, hhead⟩
    rw [List.length_append]
    exact Nat.le_trans hpos (Nat.le_add_right _ _)
  | line hle hrel hsize hne _ =>
    obtain ⟨past, next, hchunks, rfl, rfl⟩ := hhead
    obtain ⟨hlen, hline⟩ := line_of_position hle
      (append_line hbytes (encode_at_sizeLine hchunks)) (sizeLineOf_free hchunks) hrel
    rw [hline, chunkSize_sizeLineOf hchunks] at hsize
    cases hsize
    cases next with
    | nil => exact absurd rfl hne
    | cons c next =>
      refine ⟨hbytes', TgWsProxy.lineEnd_le hle hrel, past, c, next, hchunks, rfl, ?_, rfl⟩
      rw [List.length_append, List.length_append, length_crlf, hlen]
      rfl
  | lastLine hle hrel hsize =>
    obtain ⟨past, next, hchunks, rfl, rfl⟩ := hhead
    obtain ⟨hlen, hline⟩ := line_of_position hle
      (append_line hbytes (encode_at_sizeLine hchunks)) (sizeLineOf_free hchunks) hrel
    rw [hline, chunkSize_sizeLineOf hchunks] at hsize
    obtain rfl := (sizeOf_eq_zero_iff hchunks).mp (Except.ok.inj hsize)
    have hall : m.chunks = past := by rw [hchunks, List.append_nil]
    have hstart : m.start.length = (chunkBytes past).length + (m.sizeLineOf []).length + 2 := by
      rw [start, hall, List.length_append, List.length_append, length_crlf, ← Nat.add_assoc]
      rfl
    rw [← hlen] at hstart
    refine ⟨hbytes', TgWsProxy.lineEnd_le hle hrel, by rw [body, hall], hstart.symm, [],
      m.trailers, rfl, ?_⟩
    rw [trailerBytes, List.flatMap_nil, List.append_nil, hstart]
  | data hle _ =>
    obtain ⟨past, c, next, hchunks, rfl, rfl, rfl⟩ := hhead
    obtain ⟨after, hat⟩ := append_data hbytes hchunks
    have hpiece := piece_of_bytes (Nat.le_of_add_right_le hle) hat
    refine ⟨hbytes', hle, past ++ [c], next, by rw [hchunks, List.append_assoc]; rfl, ?_, ?_⟩
    · rw [hpiece, List.flatMap_append, List.flatMap_singleton]
    · rw [chunkBytes_append]
      simp only [List.length_append, chunkBytes, List.flatMap_singleton, Chunk.bytes, length_crlf]
      omega
  | trailer hle hrel hne =>
    obtain ⟨rfl, rfl, past, next, htrailers, rfl⟩ := hhead
    obtain ⟨hlen, _⟩ := line_of_position hle
      (append_line hbytes (encode_at_trailer htrailers)) (trailerOf_free htrailers) hrel
    cases next with
    | nil => exact absurd hlen hne
    | cons t next =>
      refine ⟨hbytes', TgWsProxy.lineEnd_le hle hrel, rfl, rfl, past ++ [t], next,
        by rw [htrailers, List.append_assoc]; rfl, ?_⟩
      rw [trailerBytes_append, hlen]
      simp only [List.length_append, trailerBytes, List.flatMap_singleton, length_crlf, trailerOf]
      omega

/-- **What is returned is the body**, and the message has been buffered to its end. -/
theorem OnTrack.done {b : Bytes} (hs : OnTrack m rest s) (h : BodyDone s b) :
    b = m.body ∧ m.encode.length ≤ s.body.length := by
  obtain ⟨hbytes, _, hhead⟩ := hs
  cases h with
  | contentLength _ => exact hhead.elim
  | eof _ _ _ => exact hhead.elim
  | blankLine hpos hrel =>
    obtain ⟨rfl, rfl, past, next, htrailers, rfl⟩ := hhead
    obtain ⟨hlen, _⟩ := line_of_position hpos
      (append_line hbytes (encode_at_trailer htrailers)) (trailerOf_free htrailers) hrel
    obtain rfl := (trailerOf_eq_nil_iff htrailers).mp (List.eq_nil_of_length_eq_zero hlen.symm)
    have hle := TgWsProxy.lineEnd_le hpos hrel
    refine ⟨rfl, ?_⟩
    rw [encode_at_trailer htrailers, List.length_append]
    exact hle

/-- **The reader waits only for a part of the message.** -/
theorem OnTrack.short_of_waits (hs : OnTrack m rest s) (hwaits : s.head.Waits s.body) :
    s.body.length < m.encode.length := by
  obtain ⟨r, body, head⟩ := s
  cases head with
  | contentLength len => exact hs.head.elim
  | untilEof => exact hs.head.elim
  | sizeLine decoded pos => exact hs.short_of_no_line (.inl ⟨_, _, rfl⟩) hwaits.2
  | trailer decoded trailerStart pos =>
    exact hs.short_of_no_line (.inr ⟨_, _, _, rfl⟩) hwaits.2.1
  | data decoded pos size =>
    obtain ⟨past, c, next, hchunks, rfl, rfl, rfl⟩ := hs.head
    exact Nat.lt_of_lt_of_le hwaits (data_le_encode hchunks)

/-- The sums of positions in a message within `MAX_BODY_BYTES` fit. -/
theorem OnTrack.fits (hs : OnTrack m rest s) (hlen : m.encode.length ≤ maxBodyBytes) :
    s.head.Fits w s.body := by
  have hmax := maxBodyBytes_lt_usizeMax w
  obtain ⟨r, body, head⟩ := s
  cases head with
  | contentLength len => exact hs.head.elim
  | untilEof => exact hs.head.elim
  | data decoded pos size =>
    obtain ⟨past, c, next, hchunks, rfl, rfl, rfl⟩ := hs.head
    exact Nat.le_trans (data_le_encode hchunks) (by omega)
  | sizeLine decoded pos =>
    exact ⟨hs.pos_le, fun rel hrel =>
      Nat.le_trans (hs.lineEnd_le (.inl ⟨_, _, rfl⟩) hrel) (by omega)⟩
  | trailer decoded trailerStart pos =>
    exact ⟨hs.pos_le, fun rel hrel =>
      Nat.le_trans (hs.lineEnd_le (.inr ⟨_, _, _, rfl⟩) hrel) (by omega)⟩

/-- **Within `MAX_BODY_BYTES` only the limit on the trailers stops the reader**, before it has
buffered the message to its end. -/
theorem OnTrack.fails (hs : OnTrack m rest s) (hlen : m.encode.length ≤ maxBodyBytes)
    (h : BodyFails w s) :
    (∃ d t pos, s.head = .trailer d t pos) ∧ s.body.length < m.encode.length ∧
      m.start.length + maxHeaderBytes ≤ s.body.length := by
  have htrack := hs
  obtain ⟨hbytes, hpos, hhead⟩ := hs
  cases h with
  | @read r body head _ hwaits hwhy =>
    have hshort : body.length < m.encode.length := htrack.short_of_waits hwaits
    have hover : ¬ head.limit ≤ body.length := by
      cases head with
      | contentLength _ => exact hhead.elim
      | _ => exact fun hle => Nat.lt_irrefl _ (Nat.lt_of_lt_of_le hshort (Nat.le_trans hlen hle))
    rcases hwhy with hlimit | hstream
    · exact absurd hlimit hover
    · have htotal := congrArg List.length hbytes
      dsimp only at htotal
      rw [hstream, List.append_nil, List.length_append] at htotal
      omega
  | badSize hrel hsize =>
    obtain ⟨past, next, hchunks, rfl, rfl⟩ := hhead
    rw [(line_of_position hpos (append_line hbytes (encode_at_sizeLine hchunks))
      (sizeLineOf_free hchunks) hrel).2, chunkSize_sizeLineOf hchunks] at hsize
    cases hsize
  | tooLong hrel hsize hexceeds =>
    obtain ⟨past, next, hchunks, rfl, rfl⟩ := hhead
    rw [(line_of_position hpos (append_line hbytes (encode_at_sizeLine hchunks))
      (sizeLineOf_free hchunks) hrel).2, chunkSize_sizeLineOf hchunks] at hsize
    cases hsize
    have htotal := congrArg List.length (encode_at_sizeLine hchunks)
    simp only [List.length_append] at htotal
    have hdata := length_data_le past
    have hnext := m.sizeOf_le next
    omega
  | noCrlf hle hne =>
    obtain ⟨past, c, next, hchunks, rfl, rfl, rfl⟩ := hhead
    obtain ⟨after, hat⟩ := append_data hbytes hchunks
    exact absurd (crlf_behind hle hat) hne
  | trailerLimit hnone hlimit =>
    have hshort := htrack.short_of_no_line (.inr ⟨_, _, _, rfl⟩) hnone
    obtain ⟨rfl, rfl, past, next, htrailers, rfl⟩ := hhead
    have hmax : 0 < maxHeaderBytes := by decide
    exact ⟨⟨_, _, _, rfl⟩, hshort, by dsimp only; omega⟩
  | untilEofRead _ _ => exact hhead.elim
  | untilEofLimit _ => exact hhead.elim

/-- **A run returns the body of the message** if the limit on the trailers is not met on the way.
`Extra` is what is known about how the bytes arrive. -/
theorem run_of_onTrack (Extra : BodyState → Prop) (hlen : m.encode.length ≤ maxBodyBytes)
    (hstep : ∀ s s', OnTrack m rest s → Extra s → BodyStep w s s' → Extra s')
    (hlimit : ∀ s, OnTrack m rest s → Extra s → (∃ d t pos, s.head = .trailer d t pos) →
      s.body.length < m.encode.length → s.body.length < m.start.length + maxHeaderBytes)
    (hs : OnTrack m rest s) (hextra : Extra s) : (bodyLoop w).run s = .ok m.body := by
  refine Loop.run_rule (fun s => OnTrack m rest s ∧ Extra s) (· = .ok m.body) ?_ ?_ ?_ ⟨hs, hextra⟩
  · rintro s s' ⟨htrack, hextra⟩ hturn
    exact ⟨htrack.step (bodyTurn_again hturn), hstep s s' htrack hextra (bodyTurn_again hturn)⟩
  · rintro s b ⟨htrack, _⟩ hturn
    rw [(htrack.done (bodyTurn_done hturn)).1]
  · rintro s e ⟨htrack, hextra⟩ hturn
    obtain ⟨hhead, hshort, hover⟩ :=
      htrack.fails hlen (bodyTurn_error (htrack.fits hlen) hturn).1
    have hunder := hlimit s htrack hextra hhead hshort
    omega

end Track

/-- The reader starts on the track of the message that the bytes begin with. -/
theorem onTrack_start {m : ChunkedMessage w} {rest init : Bytes} {reader : Reader}
    (hbytes : init ++ reader.stream = m.encode ++ rest) :
    OnTrack m rest ⟨reader, init, .sizeLine [] 0⟩ :=
  ⟨hbytes, Nat.zero_le _, [], m.chunks, rfl, rfl, rfl⟩

end TgWsProxy
