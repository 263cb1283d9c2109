import TgWsProxy.Http.Syntax

set_option relaxedAutoImplicit false
set_option autoImplicit false

/-!
# Reads of a byte stream

What a peer sends is a finite stream and what follows it; how it arrives is a list of read sizes.
Every read that the transport can make is one of these: it returns at least one byte and at most as
many as were asked for.

## Main definitions

* `TgWsProxy.Reader` — the bytes still to come and the sizes of the reads that bring them.
* `TgWsProxy.readMore` — `read_more` of `default_domains/http.rs`.

## Main results

* `TgWsProxy.Reader.read_cases`, `TgWsProxy.readMore_cases` — what a read does.
* `TgWsProxy.readMore_succeeds` — below its limit and before the end of the stream it succeeds.
-/

namespace TgWsProxy

/-- `MAX_HEADER_BYTES`. -/
def maxHeaderBytes : ℕ := 64 * 1024
/-- `MAX_BODY_BYTES`. -/
def maxBodyBytes : ℕ := 256 * 1024
/-- The most bytes that one read asks for. -/
def readBytes : ℕ := 8192

/-- What follows the last byte of a stream: its end, an error, or a peer that stays silent. -/
inductive Ending
  | eof
  | error (e : String)
  | silent
  deriving DecidableEq

/-- The bytes still to come, the sizes of the next reads, and what follows the last byte. A size is
cut down to what is asked for; behind the last one every read gets all it asks for. -/
structure Reader where
  stream : Bytes
  sizes : List ℕ
  ending : Ending
  deriving DecidableEq

/-- `reader.read(&mut chunk)` for a chunk of `cap` bytes: the bytes read, none at the end of the
stream. -/
def Reader.read (r : Reader) (cap : ℕ) : Except Halt (Bytes × Reader) :=
  if r.stream = [] then
    match r.ending with
    | .eof => .ok ([], r)
    | .error e => .error (.failed ("read: " ++ e))
    | .silent => .error .pending
  else
    let n := min cap (max 1 (r.sizes.headD cap))
    .ok (r.stream.take n, { r with stream := r.stream.drop n, sizes := r.sizes.tail })

/-- `read_more`: another piece of the stream behind what is buffered. -/
def readMore (r : Reader) (buf : Bytes) (limit : ℕ) : Except Halt (Reader × Bytes) := do
  if limit ≤ buf.length then .error (.failed "HTTP response exceeds limit")
  else
    let (chunk, r) ← r.read (min (limit - buf.length) readBytes)
    if chunk = [] then .error (.failed "unexpected EOF while reading HTTP response")
    else return (r, buf ++ chunk)

/-- A computation that stops here has met neither an access out of range nor an overflow. -/
def Halt.Orderly : Halt → Prop
  | panic _ => False
  | overflow => False
  | pending => True
  | failed _ => True

namespace Reader

/-- Asked for `cap` bytes, reader `r` gives a piece of the stream and goes on as `r'`. -/
structure Gives (r : Reader) (cap : ℕ) (chunk : Bytes) (r' : Reader) : Prop where
  stream_eq : r.stream = chunk ++ r'.stream
  length_eq : chunk.length = min (min cap (max 1 (r.sizes.headD cap))) r.stream.length
  ending_eq : r'.ending = r.ending
  sizes_eq : r'.sizes = r.sizes.tail
  pos : 0 < chunk.length

theorem Gives.length_le {r r' : Reader} {cap : ℕ} {chunk : Bytes} (h : r.Gives cap chunk r') :
    chunk.length ≤ cap := by
  rw [h.length_eq]
  omega

theorem Gives.chunk_ne {r r' : Reader} {cap : ℕ} {chunk : Bytes} (h : r.Gives cap chunk r') :
    chunk ≠ [] := List.length_pos_iff.mp h.pos

/-- A read takes what it gives from the stream. -/
theorem Gives.length_stream {r r' : Reader} {cap : ℕ} {chunk : Bytes} (h : r.Gives cap chunk r') :
    r.stream.length = chunk.length + r'.stream.length := by
  rw [h.stream_eq, List.length_append]

/-- Before the end of the stream a read gives a piece of it. -/
theorem read_gives {r : Reader} {cap : ℕ} (hcap : 0 < cap) (hs : r.stream ≠ []) :
    ∃ chunk r', r.read cap = .ok (chunk, r') ∧ r.Gives cap chunk r' := by
  have hlen := List.length_pos_iff.mpr hs
  have hread : r.read cap = .ok (r.stream.take (min cap (max 1 (r.sizes.headD cap))),
      { r with
        stream := r.stream.drop (min cap (max 1 (r.sizes.headD cap)))
        sizes := r.sizes.tail }) := by
    rw [read, if_neg hs]
  have hchunk := List.length_take (i := min cap (max 1 (r.sizes.headD cap))) (l := r.stream)
  exact ⟨_, _, hread, (List.take_append_drop _ _).symm, hchunk, rfl, rfl, by rw [hchunk]; omega⟩

/-- **What a read does.** It gives a piece of the stream, or the stream is at its end. -/
theorem read_cases (r : Reader) {cap : ℕ} (hcap : 0 < cap) :
    (∃ chunk r', r.read cap = .ok (chunk, r') ∧ r.Gives cap chunk r') ∨
      (r.stream = [] ∧ r.ending = .eof ∧ r.read cap = .ok ([], r)) ∨
      (r.stream = [] ∧ r.ending ≠ .eof ∧ ∃ h : Halt, r.read cap = .error h ∧ h.Orderly) := by
  by_cases hs : r.stream = []
  · right
    cases he : r.ending with
    | eof => exact .inl ⟨hs, rfl, by rw [read, if_pos hs, he]⟩
    | error e =>
      exact .inr ⟨hs, nofun, .failed ("read: " ++ e), by rw [read, if_pos hs, he], trivial⟩
    | silent => exact .inr ⟨hs, nofun, .pending, by rw [read, if_pos hs, he], trivial⟩
  · exact .inl (read_gives hcap hs)

end Reader

/-- Below a limit there is something to ask for. -/
theorem ask_pos {n limit : ℕ} (h : n < limit) : 0 < min (limit - n) readBytes := by
  simp [readBytes]
  omega

/-- What a successful `read_more` does. -/
theorem readMore_ok {r r' : Reader} {buf buf' : Bytes} {limit : ℕ}
    (h : readMore r buf limit = .ok (r', buf')) :
    buf.length < limit ∧
      ∃ chunk, buf' = buf ++ chunk ∧ r.Gives (min (limit - buf.length) readBytes) chunk r' := by
  unfold readMore at h
  split_ifs at h with hlimit
  have hlt : buf.length < limit := by omega
  rcases r.read_cases (ask_pos hlt) with ⟨chunk, r'', hread, hgives⟩ | ⟨_, _, hread⟩ |
    ⟨_, _, e, hread, _⟩
  · rw [hread, halt_ok_bind] at h
    dsimp only at h
    rw [if_neg hgives.chunk_ne] at h
    cases h
    exact ⟨hlt, chunk, rfl, hgives⟩
  · rw [hread] at h
    cases h
  · rw [hread] at h
    cases h

/-- Below its limit and before the end of the stream `read_more` succeeds. -/
theorem readMore_succeeds {r : Reader} {buf : Bytes} {limit : ℕ} (hlimit : buf.length < limit)
    (hs : r.stream ≠ []) : ∃ r' buf', readMore r buf limit = .ok (r', buf') := by
  obtain ⟨chunk, r', hread, hgives⟩ := Reader.read_gives (ask_pos hlimit) hs
  refine ⟨r', buf ++ chunk, ?_⟩
  rw [readMore, if_neg (by omega), hread, halt_ok_bind]
  dsimp only
  rw [if_neg hgives.chunk_ne]
  rfl

/-- A `read_more` that fails has reached its limit or the end of the stream. -/
theorem readMore_error {r : Reader} {buf : Bytes} {limit : ℕ} {e : Halt}
    (h : readMore r buf limit = .error e) :
    e.Orderly ∧ (limit ≤ buf.length ∨ r.stream = []) ∧ (r.ending = .eof → ∃ m, e = .failed m) := by
  by_cases hlimit : limit ≤ buf.length
  · rw [readMore, if_pos hlimit] at h
    cases h
    exact ⟨trivial, .inl hlimit, fun _ => ⟨_, rfl⟩⟩
  by_cases hs : r.stream = []
  · refine ⟨?_, .inr hs, ?_⟩
    all_goals
      rw [readMore, if_neg hlimit, Reader.read, if_pos hs] at h
      cases he : r.ending <;> rw [he] at h <;> cases h
    · trivial
    · trivial
    · trivial
    · exact fun _ => ⟨_, rfl⟩
    · exact fun h => nomatch h
    · exact fun h => nomatch h
  · obtain ⟨r', buf', hok⟩ := readMore_succeeds (by omega : buf.length < limit) hs
    rw [hok] at h
    cases h

end TgWsProxy
