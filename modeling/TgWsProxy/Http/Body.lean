import TgWsProxy.Lib.Loops
import TgWsProxy.Http.Reader

set_option relaxedAutoImplicit false
set_option autoImplicit false

/-!
# Reading the body of a response

The body readers of `default_domains/http.rs` as one loop: a state stands at the head of one of the
loops of the source, nested or not, and a turn is one pass through the body of that loop. Every
access to the buffer and every sum of positions is checked.

## Main definitions

* `TgWsProxy.BodyHead` — the loop heads, with the variables that live there.
* `TgWsProxy.bodyTurn` — one pass.
* `TgWsProxy.BodyStep`, `BodyDone`, `BodyFails` — what a pass can do.
* `TgWsProxy.readContentLengthBody`, `readChunkedBody`, `readChunkTrailers`,
  `readUntilEofLimited` — the functions of the same names.

## Main results

* `TgWsProxy.bodyTurn_again`, `bodyTurn_done`, `bodyTurn_error` — a pass does one of these.
* `TgWsProxy.bodyLoop` — every pass consumes input.
-/

namespace TgWsProxy

open Slices Loops

/-! ## The loops -/

/-- The heads of the loops. In `readChunkedBody` the search for the end of a size line and the wait
for the data are loops inside the loop over the chunks. -/
inductive BodyHead
  /-- `while body.len() < len` in `read_content_length_body`. -/
  | contentLength (len : ℕ)
  /-- The search for the end of a size line in `read_chunked_body`. -/
  | sizeLine (decoded : Bytes) (pos : ℕ)
  /-- `while body.len() < pos + size + 2` in `read_chunked_body`. -/
  | data (decoded : Bytes) (pos size : ℕ)
  /-- The search for the end of a trailer line in `read_chunk_trailers`; `decoded` belongs to the
  caller. -/
  | trailer (decoded : Bytes) (trailerStart pos : ℕ)
  /-- The loop of `read_until_eof_limited`. -/
  | untilEof
  deriving DecidableEq

/-- A reader, the working buffer and the head of a loop. -/
structure BodyState where
  reader : Reader
  body : Bytes
  head : BodyHead
  deriving DecidableEq

namespace BodyState

/-- `read_more(reader, &mut body, limit).await?`, back to the same head. -/
def more (s : BodyState) (limit : ℕ) : Except Halt (BodyState ⊕ Bytes) := do
  let (reader, body) ← readMore s.reader s.body limit
  return .inl { s with reader, body }

/-- A pass of `read_content_length_body`. -/
def contentLengthTurn (s : BodyState) (len : ℕ) : Except Halt (BodyState ⊕ Bytes) :=
  if s.body.length < len then s.more len
  else return .inr (s.body.take len)

/-- A pass of the search for the end of a size line. -/
def sizeLineTurn (w : PointerWidth) (s : BodyState) (decoded : Bytes) (pos : ℕ) :
    Except Halt (BodyState ⊕ Bytes) := do
  match crlfPosition (← access (range s.body pos s.body.length)) with
  | none => s.more maxBodyBytes
  | some rel =>
    let lineEnd ← checkedAdd w pos rel
    let size ← chunkSize w (← access (range s.body pos lineEnd))
    let pos ← checkedAdd w lineEnd 2
    if size = 0 then return .inl { s with head := .trailer decoded pos pos }
    else if maxBodyBytes < min (decoded.length + size) w.usizeMax then
      .error (.failed "HTTP response body exceeds limit")
    else return .inl { s with head := .data decoded pos size }

/-- A pass of the wait for the data of a chunk. -/
def dataTurn (w : PointerWidth) (s : BodyState) (decoded : Bytes) (pos size : ℕ) :
    Except Halt (BodyState ⊕ Bytes) := do
  let dataEnd ← checkedAdd w pos size
  let chunkEnd ← checkedAdd w dataEnd 2
  if s.body.length < chunkEnd then s.more maxBodyBytes
  else
    let piece ← access (range s.body pos dataEnd)
    if (← access (range s.body dataEnd chunkEnd)) ≠ crlf then
      .error (.failed "chunk is missing trailing CRLF")
    else
      let pos ← checkedAdd w pos (← checkedAdd w size 2)
      return .inl { s with head := .sizeLine (decoded ++ piece) pos }

/-- A pass of `read_chunk_trailers`. -/
def trailerTurn (w : PointerWidth) (s : BodyState) (decoded : Bytes) (trailerStart pos : ℕ) :
    Except Halt (BodyState ⊕ Bytes) := do
  match crlfPosition (← access (range s.body pos s.body.length)) with
  | none =>
    if maxHeaderBytes ≤ s.body.length - trailerStart then
      .error (.failed "chunk trailers exceed limit")
    else s.more maxBodyBytes
  | some rel =>
    let lineEnd ← checkedAdd w pos rel
    if lineEnd = pos then return .inr decoded
    else
      let pos ← checkedAdd w lineEnd 2
      return .inl { s with head := .trailer decoded trailerStart pos }

/-- A pass of `read_until_eof_limited`. -/
def untilEofTurn (w : PointerWidth) (s : BodyState) : Except Halt (BodyState ⊕ Bytes) := do
  if maxBodyBytes < s.body.length then .error (.failed "HTTP response body exceeds limit")
  else
    let remaining := maxBodyBytes - s.body.length
    let (chunk, reader) ← s.reader.read (max 1 (min remaining readBytes))
    if chunk = [] then return .inr s.body
    else if maxBodyBytes < min (s.body.length + chunk.length) w.usizeMax then
      .error (.failed "HTTP response body exceeds limit")
    else return .inl { s with reader, body := s.body ++ chunk }

end BodyState

/-- One pass through the body of the loop that a state stands at. -/
def bodyTurn (w : PointerWidth) (s : BodyState) : Except Halt (BodyState ⊕ Bytes) :=
  match s.head with
  | .contentLength len => s.contentLengthTurn len
  | .sizeLine decoded pos => s.sizeLineTurn w decoded pos
  | .data decoded pos size => s.dataTurn w decoded pos size
  | .trailer decoded trailerStart pos => s.trailerTurn w decoded trailerStart pos
  | .untilEof => s.untilEofTurn w

/-! ## What a pass can do -/

/-- How far the buffer has been read at a loop head. -/
def BodyHead.pos : BodyHead → ℕ
  | contentLength _ => 0
  | sizeLine _ pos => pos
  | data _ pos _ => pos
  | trailer _ _ pos => pos
  | untilEof => 0

/-- The buffer does not hold yet what the loop waits for, and more may be read. -/
def BodyHead.Waits (body : Bytes) : BodyHead → Prop
  | contentLength len => body.length < len
  | sizeLine _ pos => pos ≤ body.length ∧ crlfPosition (body.drop pos) = none
  | data _ pos size => body.length < pos + size + 2
  | trailer _ trailerStart pos => pos ≤ body.length ∧ crlfPosition (body.drop pos) = none ∧
      body.length - trailerStart < maxHeaderBytes
  | untilEof => True

/-- What the buffer may grow to at a loop head. -/
def BodyHead.limit : BodyHead → ℕ
  | contentLength len => len
  | _ => maxBodyBytes

/-- How many bytes a read asks for at a loop head. -/
def BodyHead.ask (body : Bytes) (head : BodyHead) : ℕ :=
  max 1 (min (head.limit - body.length) readBytes)

theorem BodyHead.ask_le (body : Bytes) (head : BodyHead) : head.ask body ≤ readBytes := by
  simp [ask, readBytes]

/-- A pass that goes on. -/
inductive BodyStep (w : PointerWidth) : BodyState → BodyState → Prop
  | read {r r' : Reader} {body chunk : Bytes} {head : BodyHead} : head.Waits body →
      r.Gives (head.ask body) chunk r' → body.length + chunk.length ≤ head.limit →
      BodyStep w ⟨r, body, head⟩ ⟨r', body ++ chunk, head⟩
  | line {r : Reader} {body decoded : Bytes} {pos rel size : ℕ} :
      pos ≤ body.length → crlfPosition (body.drop pos) = some rel →
      chunkSize w ((body.drop pos).take rel) = .ok size → size ≠ 0 →
      decoded.length + size ≤ maxBodyBytes →
      BodyStep w ⟨r, body, .sizeLine decoded pos⟩ ⟨r, body, .data decoded (pos + rel + 2) size⟩
  | lastLine {r : Reader} {body decoded : Bytes} {pos rel : ℕ} :
      pos ≤ body.length → crlfPosition (body.drop pos) = some rel →
      chunkSize w ((body.drop pos).take rel) = .ok 0 →
      BodyStep w ⟨r, body, .sizeLine decoded pos⟩
        ⟨r, body, .trailer decoded (pos + rel + 2) (pos + rel + 2)⟩
  | data {r : Reader} {body decoded : Bytes} {pos size : ℕ} :
      pos + size + 2 ≤ body.length → (body.drop (pos + size)).take 2 = crlf →
      BodyStep w ⟨r, body, .data decoded pos size⟩
        ⟨r, body, .sizeLine (decoded ++ (body.drop pos).take size) (pos + size + 2)⟩
  | trailer {r : Reader} {body decoded : Bytes} {trailerStart pos rel : ℕ} :
      pos ≤ body.length → crlfPosition (body.drop pos) = some rel → rel ≠ 0 →
      BodyStep w ⟨r, body, .trailer decoded trailerStart pos⟩
        ⟨r, body, .trailer decoded trailerStart (pos + rel + 2)⟩

/-- A pass that ends the loop with a body. -/
inductive BodyDone : BodyState → Bytes → Prop
  | contentLength {r : Reader} {body : Bytes} {len : ℕ} : len ≤ body.length →
      BodyDone ⟨r, body, .contentLength len⟩ (body.take len)
  | blankLine {r : Reader} {body decoded : Bytes} {trailerStart pos : ℕ} : pos ≤ body.length →
      crlfPosition (body.drop pos) = some 0 →
      BodyDone ⟨r, body, .trailer decoded trailerStart pos⟩ decoded
  | eof {r : Reader} {body : Bytes} : body.length ≤ maxBodyBytes → r.stream = [] →
      r.ending = .eof → BodyDone ⟨r, body, .untilEof⟩ body

/-- The sums of positions at a loop head stay within `usize`, and the cursor within the buffer. -/
def BodyHead.Fits (w : PointerWidth) (body : Bytes) : BodyHead → Prop
  | contentLength _ => True
  | sizeLine _ pos => pos ≤ body.length ∧
      ∀ rel, crlfPosition (body.drop pos) = some rel → pos + rel + 2 ≤ w.usizeMax
  | data _ pos size => pos + size + 2 ≤ w.usizeMax
  | trailer _ _ pos => pos ≤ body.length ∧
      ∀ rel, crlfPosition (body.drop pos) = some rel → pos + rel + 2 ≤ w.usizeMax
  | untilEof => True

/-- A pass that fails although its sums fit. -/
inductive BodyFails (w : PointerWidth) : BodyState → Prop
  | read {r : Reader} {body : Bytes} {head : BodyHead} : head ≠ .untilEof → head.Waits body →
      head.limit ≤ body.length ∨ r.stream = [] → BodyFails w ⟨r, body, head⟩
  | badSize {r : Reader} {body decoded : Bytes} {pos rel : ℕ} {e : Halt} :
      crlfPosition (body.drop pos) = some rel → chunkSize w ((body.drop pos).take rel) = .error e →
      BodyFails w ⟨r, body, .sizeLine decoded pos⟩
  | tooLong {r : Reader} {body decoded : Bytes} {pos rel size : ℕ} :
      crlfPosition (body.drop pos) = some rel →
      chunkSize w ((body.drop pos).take rel) = .ok size → maxBodyBytes < decoded.length + size →
      BodyFails w ⟨r, body, .sizeLine decoded pos⟩
  | noCrlf {r : Reader} {body decoded : Bytes} {pos size : ℕ} : pos + size + 2 ≤ body.length →
      (body.drop (pos + size)).take 2 ≠ crlf → BodyFails w ⟨r, body, .data decoded pos size⟩
  | trailerLimit {r : Reader} {body decoded : Bytes} {trailerStart pos : ℕ} :
      crlfPosition (body.drop pos) = none → maxHeaderBytes ≤ body.length - trailerStart →
      BodyFails w ⟨r, body, .trailer decoded trailerStart pos⟩
  | untilEofRead {r : Reader} {body : Bytes} : r.stream = [] → r.ending ≠ .eof →
      BodyFails w ⟨r, body, .untilEof⟩
  | untilEofLimit {r : Reader} {body : Bytes} : maxBodyBytes < body.length + r.stream.length →
      BodyFails w ⟨r, body, .untilEof⟩

/-! ### From the passes to the relations -/

section Inversion

variable {w : PointerWidth} {s s' : BodyState} {b : Bytes}

theorem bind_eq_ok {α β : Type} {x : Except Halt α} {f : α → Except Halt β} {b : β} :
    (x >>= f) = .ok b ↔ ∃ a, x = .ok a ∧ f a = .ok b := by
  cases x with
  | error e => exact ⟨nofun, fun ⟨_, h, _⟩ => nomatch h⟩
  | ok a => exact ⟨fun h => ⟨a, rfl, h⟩, fun ⟨_, ha, h⟩ => Except.ok.inj ha ▸ h⟩

theorem access_range_ok {l r : Bytes} {i j : ℕ} (h : access (range l i j) = .ok r) :
    i ≤ j ∧ j ≤ l.length ∧ r = (l.drop i).take (j - i) := by
  unfold range at h
  split_ifs at h with hij
  · cases h
    exact ⟨hij.1, hij.2, rfl⟩
  · cases h

theorem access_tail_ok {l r : Bytes} {i : ℕ} (h : access (range l i l.length) = .ok r) :
    i ≤ l.length ∧ r = l.drop i := by
  obtain ⟨hi, _, rfl⟩ := access_range_ok h
  exact ⟨hi, List.take_of_length_le (by rw [List.length_drop])⟩

/-- The first line end behind a cursor lies in the buffer. -/
theorem lineEnd_le {body : Bytes} {pos rel : ℕ} (hpos : pos ≤ body.length)
    (h : crlfPosition (body.drop pos) = some rel) : pos + rel + 2 ≤ body.length := by
  have hle : rel + 2 ≤ (body.drop pos).length := Text.position_le h
  rw [List.length_drop] at hle
  omega

theorem checkedAdd_ok {a b n : ℕ} (h : checkedAdd w a b = .ok n) :
    a + b ≤ w.usizeMax ∧ n = a + b := by
  unfold checkedAdd at h
  split_ifs at h with hfits
  · cases h
    exact ⟨hfits, rfl⟩

theorem maxBodyBytes_lt_usizeMax (w : PointerWidth) : maxBodyBytes < w.usizeMax :=
  Nat.lt_of_lt_of_le (by decide) w.le_usizeMax

/-- A saturated sum is compared as the sum is. -/
theorem exceeds_iff {n : ℕ} : maxBodyBytes < min n w.usizeMax ↔ maxBodyBytes < n := by
  have hmax := maxBodyBytes_lt_usizeMax w
  omega

/-- More is read at a head that waits. -/
theorem BodyState.more_again {limit : ℕ} (hwaits : s.head.Waits s.body)
    (hlimit : limit = s.head.limit) (h : s.more limit = .ok (.inl s')) : BodyStep w s s' := by
  obtain ⟨⟨r, body⟩, hread, hs'⟩ := bind_eq_ok.mp h
  obtain ⟨hlt, chunk, rfl, hgives⟩ := readMore_ok hread
  cases hs'
  have hle := hgives.length_le
  have hpos := ask_pos hlt
  have hask : s.head.ask s.body = min (limit - s.body.length) readBytes := by
    rw [BodyHead.ask, ← hlimit]
    omega
  exact BodyStep.read hwaits (hask ▸ hgives) (by omega)

theorem BodyState.more_not_done {limit : ℕ} (h : s.more limit = .ok (.inr b)) : False := by
  obtain ⟨_, _, h⟩ := bind_eq_ok.mp h
  cases h

theorem contentLengthTurn_ok {r : Reader} {body : Bytes} {len : ℕ} {next : BodyState ⊕ Bytes}
    (h : BodyState.contentLengthTurn ⟨r, body, .contentLength len⟩ len = .ok next) :
    next.elim (BodyStep w ⟨r, body, .contentLength len⟩)
      (BodyDone ⟨r, body, .contentLength len⟩) := by
  unfold BodyState.contentLengthTurn at h
  split_ifs at h with hlt
  · cases next with
    | inl s' => exact BodyState.more_again hlt rfl h
    | inr b => exact (BodyState.more_not_done h).elim
  · cases h
    exact BodyDone.contentLength (Nat.le_of_not_lt hlt)

theorem sizeLineTurn_ok {r : Reader} {body decoded : Bytes} {pos : ℕ} {next : BodyState ⊕ Bytes}
    (h : BodyState.sizeLineTurn w ⟨r, body, .sizeLine decoded pos⟩ decoded pos = .ok next) :
    next.elim (BodyStep w ⟨r, body, .sizeLine decoded pos⟩)
      (BodyDone ⟨r, body, .sizeLine decoded pos⟩) := by
  obtain ⟨tail, htail, h⟩ := bind_eq_ok.mp h
  obtain ⟨hpos, rfl⟩ := access_tail_ok htail
  cases hrel : crlfPosition (body.drop pos) with
  | none =>
    rw [hrel] at h
    cases next with
    | inl s' => exact BodyState.more_again ⟨hpos, hrel⟩ rfl h
    | inr b => exact (BodyState.more_not_done h).elim
  | some rel =>
    rw [hrel] at h
    obtain ⟨lineEnd, hend, h⟩ := bind_eq_ok.mp h
    obtain ⟨_, rfl⟩ := checkedAdd_ok hend
    obtain ⟨line, hline, h⟩ := bind_eq_ok.mp h
    obtain ⟨_, _, rfl⟩ := access_range_ok hline
    rw [Nat.add_sub_cancel_left] at h
    obtain ⟨size, hsize, h⟩ := bind_eq_ok.mp h
    obtain ⟨pos', hpos', h⟩ := bind_eq_ok.mp h
    obtain ⟨_, rfl⟩ := checkedAdd_ok hpos'
    split_ifs at h with hzero hexceeds
    · cases h
      exact BodyStep.lastLine hpos hrel (hzero ▸ hsize)
    · cases h
      exact BodyStep.line hpos hrel hsize hzero (Nat.le_of_not_lt fun hlt =>
        hexceeds (exceeds_iff.mpr hlt))

theorem dataTurn_ok {r : Reader} {body decoded : Bytes} {pos size : ℕ}
    {next : BodyState ⊕ Bytes}
    (h : BodyState.dataTurn w ⟨r, body, .data decoded pos size⟩ decoded pos size = .ok next) :
    next.elim (BodyStep w ⟨r, body, .data decoded pos size⟩)
      (BodyDone ⟨r, body, .data decoded pos size⟩) := by
  obtain ⟨dataEnd, hdata, h⟩ := bind_eq_ok.mp h
  obtain ⟨_, rfl⟩ := checkedAdd_ok hdata
  obtain ⟨chunkEnd, hchunk, h⟩ := bind_eq_ok.mp h
  obtain ⟨_, rfl⟩ := checkedAdd_ok hchunk
  split_ifs at h with hlt
  · cases next with
    | inl s' => exact BodyState.more_again hlt rfl h
    | inr b => exact (BodyState.more_not_done h).elim
  · obtain ⟨piece, hpiece, h⟩ := bind_eq_ok.mp h
    obtain ⟨_, _, rfl⟩ := access_range_ok hpiece
    obtain ⟨tail, htail, h⟩ := bind_eq_ok.mp h
    obtain ⟨_, hle, rfl⟩ := access_range_ok htail
    rw [Nat.add_sub_cancel_left] at h
    split_ifs at h with hcrlf
    rw [Nat.add_sub_cancel_left] at h
    obtain ⟨n, hn, h⟩ := bind_eq_ok.mp h
    obtain ⟨_, rfl⟩ := checkedAdd_ok hn
    obtain ⟨pos', hpos', h⟩ := bind_eq_ok.mp h
    obtain ⟨_, rfl⟩ := checkedAdd_ok hpos'
    cases h
    rw [← Nat.add_assoc]
    exact BodyStep.data hle (not_not.mp hcrlf)

theorem trailerTurn_ok {r : Reader} {body decoded : Bytes} {trailerStart pos : ℕ}
    {next : BodyState ⊕ Bytes}
    (h : BodyState.trailerTurn w ⟨r, body, .trailer decoded trailerStart pos⟩ decoded
      trailerStart pos = .ok next) :
    next.elim (BodyStep w ⟨r, body, .trailer decoded trailerStart pos⟩)
      (BodyDone ⟨r, body, .trailer decoded trailerStart pos⟩) := by
  obtain ⟨tail, htail, h⟩ := bind_eq_ok.mp h
  obtain ⟨hpos, rfl⟩ := access_tail_ok htail
  cases hrel : crlfPosition (body.drop pos) with
  | none =>
    rw [hrel] at h
    dsimp only at h
    split_ifs at h with hlimit
    cases next with
    | inl s' => exact BodyState.more_again ⟨hpos, hrel, Nat.lt_of_not_le hlimit⟩ rfl h
    | inr b => exact (BodyState.more_not_done h).elim
  | some rel =>
    rw [hrel] at h
    obtain ⟨lineEnd, hend, h⟩ := bind_eq_ok.mp h
    obtain ⟨_, rfl⟩ := checkedAdd_ok hend
    split_ifs at h with hblank
    · cases h
      exact BodyDone.blankLine hpos (by rw [hrel, show rel = 0 by omega])
    · obtain ⟨pos', hpos', h⟩ := bind_eq_ok.mp h
      obtain ⟨_, rfl⟩ := checkedAdd_ok hpos'
      cases h
      exact BodyStep.trailer hpos hrel (by omega)

theorem untilEofTurn_ok {r : Reader} {body : Bytes} {next : BodyState ⊕ Bytes}
    (h : BodyState.untilEofTurn w ⟨r, body, .untilEof⟩ = .ok next) :
    next.elim (BodyStep w ⟨r, body, .untilEof⟩) (BodyDone ⟨r, body, .untilEof⟩) := by
  unfold BodyState.untilEofTurn at h
  split_ifs at h with hover
  dsimp only at h hover
  have hcap : 0 < max 1 (min (maxBodyBytes - body.length) readBytes) := by omega
  rcases r.read_cases hcap with ⟨chunk, r', hread, hgives⟩ | ⟨hs, he, hread⟩ |
    ⟨_, _, e, hread, _⟩
  · rw [hread, halt_ok_bind] at h
    dsimp only at h
    rw [if_neg hgives.chunk_ne] at h
    split_ifs at h with hexceeds
    cases h
    exact BodyStep.read trivial hgives (Nat.le_of_not_lt fun hlt =>
      hexceeds (exceeds_iff.mpr hlt))
  · rw [hread] at h
    cases h
    exact BodyDone.eof (Nat.le_of_not_lt hover) hs he
  · rw [hread] at h
    cases h

/-- **A pass that succeeds** goes on by a step or ends the loop. -/
theorem bodyTurn_ok {next : BodyState ⊕ Bytes} (h : bodyTurn w s = .ok next) :
    next.elim (BodyStep w s) (BodyDone s) := by
  obtain ⟨r, body, head⟩ := s
  cases head with
  | contentLength len => exact contentLengthTurn_ok h
  | sizeLine decoded pos => exact sizeLineTurn_ok h
  | data decoded pos size => exact dataTurn_ok h
  | trailer decoded trailerStart pos => exact trailerTurn_ok h
  | untilEof => exact untilEofTurn_ok h

theorem bodyTurn_again (h : bodyTurn w s = .ok (.inl s')) : BodyStep w s s' := bodyTurn_ok h

theorem bodyTurn_done (h : bodyTurn w s = .ok (.inr b)) : BodyDone s b := bodyTurn_ok h

/-- A `read_more` at a head that waits fails in an orderly way. -/
theorem BodyState.more_error {limit : ℕ} {e : Halt} (hhead : s.head ≠ .untilEof)
    (hwaits : s.head.Waits s.body) (hlimit : limit = s.head.limit) (h : s.more limit = .error e) :
    BodyFails w s ∧ e.Orderly ∧ (s.reader.ending = .eof → ∃ m, e = .failed m) := by
  cases hread : readMore s.reader s.body limit with
  | ok next =>
    rw [BodyState.more, hread] at h
    cases h
  | error e' =>
    rw [BodyState.more, hread] at h
    cases h
    obtain ⟨horderly, hwhy, hfailed⟩ := readMore_error hread
    exact ⟨BodyFails.read hhead hwaits (hlimit ▸ hwhy), horderly, hfailed⟩

theorem chunkSize_error {line : Bytes} {e : Halt} (h : chunkSize w line = .error e) :
    ∃ m, e = .failed m := by
  unfold chunkSize at h
  split at h
  · cases h
    exact ⟨_, rfl⟩
  · dsimp only at h
    split at h
    · cases h
      exact ⟨_, rfl⟩
    · cases h

theorem access_tail {l : Bytes} {i : ℕ} (h : i ≤ l.length) :
    access (range l i l.length) = .ok (l.drop i) := by rw [range_from_eq h, access_ok]

theorem access_range {l : Bytes} {i j n : ℕ} (hn : i + n = j) (h : j ≤ l.length) :
    access (range l i j) = .ok ((l.drop i).take n) := by
  rw [range_eq (by omega) h, access_ok, show j - i = n by omega]

theorem sizeLineTurn_error {r : Reader} {body decoded : Bytes} {pos : ℕ} {e : Halt}
    (hfits : BodyHead.Fits w body (.sizeLine decoded pos))
    (h : BodyState.sizeLineTurn w ⟨r, body, .sizeLine decoded pos⟩ decoded pos = .error e) :
    BodyFails w ⟨r, body, .sizeLine decoded pos⟩ ∧ e.Orderly ∧
      (r.ending = .eof → ∃ m, e = .failed m) := by
  obtain ⟨hpos, hsum⟩ := hfits
  rw [BodyState.sizeLineTurn, access_tail hpos, halt_ok_bind] at h
  dsimp only at h
  cases hrel : crlfPosition (body.drop pos) with
  | none =>
    rw [hrel] at h
    exact BodyState.more_error nofun ⟨hpos, hrel⟩ rfl h
  | some rel =>
    have hline := lineEnd_le hpos hrel
    have hfits := hsum rel hrel
    rw [hrel] at h
    dsimp only at h
    rw [checkedAdd_eq (by omega), halt_ok_bind, access_range rfl (by omega),
      halt_ok_bind] at h
    cases hsize : chunkSize w ((body.drop pos).take rel) with
    | error e' =>
      rw [hsize] at h
      cases h
      obtain ⟨m, rfl⟩ := chunkSize_error hsize
      exact ⟨BodyFails.badSize hrel hsize, trivial, fun _ => ⟨m, rfl⟩⟩
    | ok size =>
      rw [hsize, halt_ok_bind, checkedAdd_eq hfits, halt_ok_bind] at h
      split_ifs at h with hzero hexceeds
      · cases h
      · cases h
        exact ⟨BodyFails.tooLong hrel hsize (exceeds_iff.mp hexceeds), trivial, fun _ => ⟨_, rfl⟩⟩
      · cases h

theorem dataTurn_error {r : Reader} {body decoded : Bytes} {pos size : ℕ} {e : Halt}
    (hfits : BodyHead.Fits w body (.data decoded pos size))
    (h : BodyState.dataTurn w ⟨r, body, .data decoded pos size⟩ decoded pos size = .error e) :
    BodyFails w ⟨r, body, .data decoded pos size⟩ ∧ e.Orderly ∧
      (r.ending = .eof → ∃ m, e = .failed m) := by
  have hsum : pos + size + 2 ≤ w.usizeMax := hfits
  rw [BodyState.dataTurn, checkedAdd_eq (by omega), halt_ok_bind, checkedAdd_eq hsum,
    halt_ok_bind] at h
  split_ifs at h with hlt
  · exact BodyState.more_error nofun hlt rfl h
  · have hle : pos + size + 2 ≤ body.length := Nat.le_of_not_lt hlt
    dsimp only at h
    rw [access_range rfl (by omega), halt_ok_bind, access_range rfl hle, halt_ok_bind] at h
    split_ifs at h with hcrlf
    · cases h
      exact ⟨BodyFails.noCrlf hle hcrlf, trivial, fun _ => ⟨_, rfl⟩⟩
    · rw [checkedAdd_eq (by omega), halt_ok_bind, checkedAdd_eq (by omega)] at h
      cases h

theorem trailerTurn_error {r : Reader} {body decoded : Bytes} {trailerStart pos : ℕ} {e : Halt}
    (hfits : BodyHead.Fits w body (.trailer decoded trailerStart pos))
    (h : BodyState.trailerTurn w ⟨r, body, .trailer decoded trailerStart pos⟩ decoded
      trailerStart pos = .error e) :
    BodyFails w ⟨r, body, .trailer decoded trailerStart pos⟩ ∧ e.Orderly ∧
      (r.ending = .eof → ∃ m, e = .failed m) := by
  obtain ⟨hpos, hsum⟩ := hfits
  rw [BodyState.trailerTurn, access_tail hpos, halt_ok_bind] at h
  dsimp only at h
  cases hrel : crlfPosition (body.drop pos) with
  | none =>
    rw [hrel] at h
    dsimp only at h
    split_ifs at h with hlimit
    · cases h
      exact ⟨BodyFails.trailerLimit hrel hlimit, trivial, fun _ => ⟨_, rfl⟩⟩
    · exact BodyState.more_error nofun ⟨hpos, hrel, Nat.lt_of_not_le hlimit⟩ rfl h
  | some rel =>
    have hfits := hsum rel hrel
    rw [hrel] at h
    dsimp only at h
    rw [checkedAdd_eq (by omega), halt_ok_bind] at h
    split_ifs at h with hblank
    · cases h
    · rw [checkedAdd_eq hfits, halt_ok_bind] at h
      cases h

theorem untilEofTurn_error {r : Reader} {body : Bytes} {e : Halt}
    (h : BodyState.untilEofTurn w ⟨r, body, .untilEof⟩ = .error e) :
    BodyFails w ⟨r, body, .untilEof⟩ ∧ e.Orderly ∧ (r.ending = .eof → ∃ m, e = .failed m) := by
  unfold BodyState.untilEofTurn at h
  split_ifs at h with hover
  · cases h
    dsimp only at hover
    exact ⟨BodyFails.untilEofLimit (by omega), trivial, fun _ => ⟨_, rfl⟩⟩
  · dsimp only at h
    have hcap : 0 < max 1 (min (maxBodyBytes - body.length) readBytes) := by omega
    rcases r.read_cases hcap with ⟨chunk, r', hread, hgives⟩ | ⟨_, _, hread⟩ |
      ⟨hs, he, e', hread, horderly⟩
    · rw [hread, halt_ok_bind] at h
      dsimp only at h
      rw [if_neg hgives.chunk_ne] at h
      split_ifs at h with hexceeds
      · cases h
        have hstream := hgives.length_stream
        have hlong := exceeds_iff.mp hexceeds
        exact ⟨BodyFails.untilEofLimit (by omega), trivial, fun _ => ⟨_, rfl⟩⟩
      · cases h
    · rw [hread] at h
      cases h
    · rw [hread] at h
      cases h
      exact ⟨BodyFails.untilEofRead hs he, horderly, fun heof => absurd heof he⟩

/-- **A pass that fails.** Where the sums of positions fit it fails in an orderly way. -/
theorem bodyTurn_error {e : Halt} (hfits : s.head.Fits w s.body) (h : bodyTurn w s = .error e) :
    BodyFails w s ∧ e.Orderly ∧ (s.reader.ending = .eof → ∃ m, e = .failed m) := by
  obtain ⟨r, body, head⟩ := s
  cases head with
  | contentLength len =>
    have hturn : BodyState.contentLengthTurn ⟨r, body, .contentLength len⟩ len = .error e := h
    unfold BodyState.contentLengthTurn at hturn
    split_ifs at hturn with hlt
    · exact BodyState.more_error nofun hlt rfl hturn
    · cases hturn
  | sizeLine decoded pos => exact sizeLineTurn_error hfits h
  | data decoded pos size => exact dataTurn_error hfits h
  | trailer decoded trailerStart pos => exact trailerTurn_error hfits h
  | untilEof => exact untilEofTurn_error h

end Inversion

/-! ## The readers -/

/-- What is left to read, and what is buffered behind the cursor. A byte that is read moves from the
one to the other. -/
def bodyMeasure (s : BodyState) : ℕ :=
  2 * s.reader.stream.length + (s.body.length - s.head.pos)

/-- **Every pass that goes on consumes input**, from the stream or from the buffer. -/
theorem BodyStep.measure_lt {w : PointerWidth} {s s' : BodyState} (h : BodyStep w s s') :
    bodyMeasure s' < bodyMeasure s := by
  cases h with
  | read _ hgives _ =>
    have hstream := hgives.length_stream
    have hpos := hgives.pos
    simp only [bodyMeasure, List.length_append]
    omega
  | line hpos hrel _ _ _ | lastLine hpos hrel _ | trailer hpos hrel _ =>
    have hle := lineEnd_le hpos hrel
    simp only [bodyMeasure, BodyHead.pos]
    omega
  | data hle _ =>
    simp only [bodyMeasure, BodyHead.pos]
    omega

/-- The body readers of the source. -/
def bodyLoop (w : PointerWidth) : Loop BodyState Halt Bytes where
  turn := bodyTurn w
  measure := bodyMeasure
  falls h := (bodyTurn_again h).measure_lt

/-- `read_content_length_body`. -/
def readContentLengthBody (w : PointerWidth) (reader : Reader) (body : Bytes) (len : ℕ) :
    Except Halt Bytes :=
  if maxBodyBytes < len then .error (.failed "HTTP response body exceeds limit")
  else (bodyLoop w).run ⟨reader, body, .contentLength len⟩

/-- `read_chunked_body`. -/
def readChunkedBody (w : PointerWidth) (reader : Reader) (body : Bytes) : Except Halt Bytes :=
  (bodyLoop w).run ⟨reader, body, .sizeLine [] 0⟩

/-- `read_chunk_trailers`, for a caller that has decoded nothing. -/
def readChunkTrailers (w : PointerWidth) (reader : Reader) (body : Bytes) (pos : ℕ) :
    Except Halt Bytes :=
  (bodyLoop w).run ⟨reader, body, .trailer [] pos pos⟩

/-- `read_until_eof_limited`. -/
def readUntilEofLimited (w : PointerWidth) (reader : Reader) (body : Bytes) : Except Halt Bytes :=
  (bodyLoop w).run ⟨reader, body, .untilEof⟩

end TgWsProxy
