import TgWsProxy.Http.Body

set_option relaxedAutoImplicit false
set_option autoImplicit false

/-!
# The body readers on a hostile stream

The peer chooses the sizes, the lines and the moments at which the bytes arrive. At every loop head
the cursor stays within the buffer, the buffer and what has been decoded stay within
`MAX_BODY_BYTES`, and so the sums of positions fit `usize`.

## Main definitions

* `TgWsProxy.BodyBounds` — what holds at every loop head.
* `TgWsProxy.SafeFrom` — every pass from here on is safe and the run gets nowhere else.

## Main results

* `TgWsProxy.BodyStep.bounds` — a pass keeps the bounds.
* `TgWsProxy.safeFrom_of_bounds` — and is safe because of them.
* `TgWsProxy.body_readers_safe` — the body readers are safe on every stream.
-/

namespace TgWsProxy

open Slices Loops

variable {w : PointerWidth}

/-! ## The invariant -/

/-- What holds of the cursor and of what has been decoded. -/
def BodyHead.Bounds (body : Bytes) : BodyHead → Prop
  | contentLength len => len ≤ maxBodyBytes
  | sizeLine decoded pos => pos ≤ body.length ∧ decoded.length ≤ maxBodyBytes
  | data decoded pos size => pos ≤ body.length ∧ decoded.length + size ≤ maxBodyBytes
  | trailer decoded _ pos => pos ≤ body.length ∧ decoded.length ≤ maxBodyBytes
  | untilEof => True

/-- What holds at every loop head. -/
structure BodyBounds (s : BodyState) : Prop where
  body_le : s.body.length ≤ maxBodyBytes
  head : s.head.Bounds s.body

/-- A buffer that grows keeps the bounds of its cursor. -/
theorem BodyHead.Bounds.append {body : Bytes} {head : BodyHead} (h : head.Bounds body)
    (chunk : Bytes) : head.Bounds (body ++ chunk) := by
  have hle : body.length ≤ (body ++ chunk).length := by simp
  cases head with
  | contentLength len => exact h
  | untilEof => trivial
  | sizeLine decoded pos => exact ⟨Nat.le_trans h.1 hle, h.2⟩
  | data decoded pos size => exact ⟨Nat.le_trans h.1 hle, h.2⟩
  | trailer decoded trailerStart pos => exact ⟨Nat.le_trans h.1 hle, h.2⟩

/-- What a loop may read up to is within `MAX_BODY_BYTES`. -/
theorem BodyHead.Bounds.limit_le {body : Bytes} {head : BodyHead} (h : head.Bounds body) :
    head.limit ≤ maxBodyBytes := by
  cases head with
  | contentLength len => exact h
  | _ => exact Nat.le_refl _

/-- **A pass keeps the bounds.** -/
theorem BodyStep.bounds {s s' : BodyState} (h : BodyStep w s s') (hs : BodyBounds s) :
    BodyBounds s' := by
  obtain ⟨hbody, hhead⟩ := hs
  cases h with
  | read _ _ hle =>
    refine ⟨?_, hhead.append _⟩
    rw [List.length_append]
    exact Nat.le_trans hle hhead.limit_le
  | line hpos hrel _ _ hsize =>
    exact ⟨hbody, lineEnd_le hpos hrel, hsize⟩
  | lastLine hpos hrel _ =>
    exact ⟨hbody, lineEnd_le hpos hrel, hhead.2⟩
  | data hle _ =>
    obtain ⟨_, hsize⟩ := hhead
    refine ⟨hbody, hle, ?_⟩
    rw [List.length_append, List.length_take, List.length_drop]
    omega
  | trailer hpos hrel _ =>
    exact ⟨hbody, lineEnd_le hpos hrel, hhead.2⟩

/-- Within the bounds every sum of positions fits. -/
theorem BodyBounds.fits {s : BodyState} (h : BodyBounds s) : s.head.Fits w s.body := by
  obtain ⟨r, body, head⟩ := s
  obtain ⟨hbody, hhead⟩ := h
  have hmax := Nat.le_trans (by decide : 2 * maxBodyBytes + 2 ≤ 2 ^ 32 - 1) w.le_usizeMax
  dsimp only at hbody hhead ⊢
  -- the first line end behind the cursor lies in the buffer
  have hline : ∀ pos ≤ body.length, ∀ rel, crlfPosition (body.drop pos) = some rel →
      pos + rel + 2 ≤ w.usizeMax := by
    intro pos hpos rel hrel
    have hle := lineEnd_le hpos hrel
    omega
  cases head with
  | contentLength len => trivial
  | untilEof => trivial
  | sizeLine decoded pos => exact ⟨hhead.1, hline pos hhead.1⟩
  | trailer decoded trailerStart pos => exact ⟨hhead.1, hline pos hhead.1⟩
  | data decoded pos size =>
    obtain ⟨hpos, hsize⟩ := hhead
    exact (by omega : pos + size + 2 ≤ w.usizeMax)

/-- A body that a pass returns is within `MAX_BODY_BYTES`. -/
theorem BodyDone.length_le {s : BodyState} {b : Bytes} (h : BodyDone s b) (hs : BodyBounds s) :
    b.length ≤ maxBodyBytes := by
  obtain ⟨hbody, hhead⟩ := hs
  cases h with
  | contentLength _ =>
    have hlen : _ ≤ maxBodyBytes := hhead
    rw [List.length_take]
    omega
  | blankLine _ _ => exact hhead.2
  | eof hle _ _ => exact hle

/-! ## Safety -/

/-- A pass takes bytes from the stream, or moves the cursor on within the buffer. -/
def Consumes (s s' : BodyState) : Prop :=
  s'.reader.stream.length < s.reader.stream.length ∨
    s'.reader = s.reader ∧ s'.body = s.body ∧ s.head.pos < s'.head.pos ∧
      s'.head.pos ≤ s.body.length

theorem BodyStep.consumes {s s' : BodyState} (h : BodyStep w s s') : Consumes s s' := by
  cases h with
  | read _ hgives _ =>
    have hstream := hgives.length_stream
    have hpos := hgives.pos
    exact .inl (by dsimp only; omega)
  | line hpos hrel _ _ _ | lastLine hpos hrel _ | trailer hpos hrel _ =>
    have hle := lineEnd_le hpos hrel
    exact .inr ⟨rfl, rfl, by simp only [BodyHead.pos]; omega, hle⟩
  | data hle _ =>
    exact .inr ⟨rfl, rfl, by simp only [BodyHead.pos]; omega, hle⟩

/-- At every loop head of a run from `s₀` the working buffer is within `MAX_BODY_BYTES`, no more
bytes than that have been taken from the stream, and the next pass meets neither an access out of
range nor an overflow: it consumes input, ends with a body within `MAX_BODY_BYTES`, or fails with an
error. -/
def SafeFrom (w : PointerWidth) (s₀ : BodyState) : Prop :=
  ∀ s, (bodyLoop w).Reaches s₀ s →
    s.body.length ≤ maxBodyBytes ∧
      s₀.reader.stream.length ≤ s.reader.stream.length + maxBodyBytes ∧
      match bodyTurn w s with
      | .ok (.inl s') => Consumes s s'
      | .ok (.inr b) => b.length ≤ maxBodyBytes
      | .error e => e.Orderly

/-- A result is a body within `MAX_BODY_BYTES`, or an error. -/
def SafeResult : Except Halt Bytes → Prop
  | .ok b => b.length ≤ maxBodyBytes
  | .error e => e.Orderly

/-- What is buffered and what is still to come make up the same bytes at every head. -/
theorem BodyStep.bytes_eq {s s' : BodyState} (h : BodyStep w s s') :
    s'.body ++ s'.reader.stream = s.body ++ s.reader.stream := by
  cases h with
  | read _ hgives _ => simp [hgives.stream_eq]
  | _ => rfl

theorem bytes_of_reaches {s₀ s : BodyState} (h : (bodyLoop w).Reaches s₀ s) :
    s.body ++ s.reader.stream = s₀.body ++ s₀.reader.stream :=
  Loop.invariant (fun s => s.body ++ s.reader.stream = s₀.body ++ s₀.reader.stream)
    (fun _ _ hs hturn => (bodyTurn_again hturn).bytes_eq.trans hs) h rfl

theorem bounds_of_reaches {s₀ s : BodyState} (h : (bodyLoop w).Reaches s₀ s) (hs : BodyBounds s₀) :
    BodyBounds s :=
  Loop.invariant BodyBounds (fun _ _ hs hturn => (bodyTurn_again hturn).bounds hs) h hs

/-- **Safety.** Every pass from bounds is safe. -/
theorem safeFrom_of_bounds {s₀ : BodyState} (h₀ : BodyBounds s₀) : SafeFrom w s₀ := by
  intro s hreach
  have hs := bounds_of_reaches hreach h₀
  refine ⟨hs.body_le, ?_, ?_⟩
  · have hlen := congrArg List.length (bytes_of_reaches hreach)
    rw [List.length_append, List.length_append] at hlen
    have hbody := hs.body_le
    omega
  · split
    · rename_i hturn
      exact (bodyTurn_again hturn).consumes
    · rename_i hturn
      exact (bodyTurn_done hturn).length_le hs
    · rename_i hturn
      exact (bodyTurn_error hs.fits hturn).2.1

theorem safeResult_of_bounds {s₀ : BodyState} (h₀ : BodyBounds s₀) :
    SafeResult ((bodyLoop w).run s₀) :=
  Loop.run_rule BodyBounds SafeResult (fun _ _ hs hturn => (bodyTurn_again hturn).bounds hs)
    (fun _ _ hs hturn => (bodyTurn_done hturn).length_le hs)
    (fun _ _ hs hturn => (bodyTurn_error hs.fits hturn).2.1) h₀

/-- **The body readers are safe on every stream.** For every buffer that the header reader can leave
and every way in which the bytes arrive, every pass of every body reader is safe, and so is the
result.
**Proof sketch.** The bounds hold where each reader starts; every pass keeps them. -/
theorem body_readers_safe (w : PointerWidth) (reader : Reader) (init : Bytes)
    (hinit : init.length ≤ maxHeaderBytes) :
    (SafeFrom w ⟨reader, init, .sizeLine [] 0⟩ ∧ SafeResult (readChunkedBody w reader init)) ∧
      (∀ pos ≤ init.length, SafeFrom w ⟨reader, init, .trailer [] pos pos⟩ ∧
        SafeResult (readChunkTrailers w reader init pos)) ∧
      (∀ len, (len ≤ maxBodyBytes → SafeFrom w ⟨reader, init, .contentLength len⟩) ∧
        SafeResult (readContentLengthBody w reader init len)) ∧
      SafeFrom w ⟨reader, init, .untilEof⟩ ∧ SafeResult (readUntilEofLimited w reader init) := by
  have hbody : init.length ≤ maxBodyBytes := Nat.le_trans hinit (by decide)
  have hchunked : BodyBounds ⟨reader, init, .sizeLine [] 0⟩ :=
    ⟨hbody, Nat.zero_le _, Nat.zero_le _⟩
  have htrailers : ∀ pos ≤ init.length, BodyBounds ⟨reader, init, .trailer [] pos pos⟩ :=
    fun pos hpos => ⟨hbody, hpos, Nat.zero_le _⟩
  have hlength : ∀ len ≤ maxBodyBytes, BodyBounds ⟨reader, init, .contentLength len⟩ :=
    fun len hlen => ⟨hbody, hlen⟩
  have heof : BodyBounds ⟨reader, init, .untilEof⟩ := ⟨hbody, trivial⟩
  refine ⟨⟨safeFrom_of_bounds hchunked, safeResult_of_bounds hchunked⟩, fun pos hpos =>
    ⟨safeFrom_of_bounds (htrailers pos hpos), safeResult_of_bounds (htrailers pos hpos)⟩,
    fun len => ⟨fun hlen => safeFrom_of_bounds (hlength len hlen), ?_⟩, safeFrom_of_bounds heof,
    safeResult_of_bounds heof⟩
  unfold readContentLengthBody
  split_ifs with hlen
  · trivial
  · exact safeResult_of_bounds (hlength len (Nat.le_of_not_lt hlen))

/-- A chunk size close to `usize::MAX` in a buffer of a few bytes. -/
theorem body_readers_safe_huge_chunk :
    ([70, 70, 70, 70, 70, 70, 70, 70, 13, 10] : Bytes).length ≤ maxHeaderBytes ∧
      SafeResult (readChunkedBody .bits32 ⟨[65], [1], .silent⟩
        [70, 70, 70, 70, 70, 70, 70, 70, 13, 10]) :=
  ⟨by decide, (body_readers_safe .bits32 ⟨[65], [1], .silent⟩ _ (by decide)).1.2⟩

end TgWsProxy
