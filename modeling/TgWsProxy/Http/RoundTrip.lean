import TgWsProxy.Http.Chunked

set_option relaxedAutoImplicit false
set_option autoImplicit false

/-!
# Chunked encoding and its decoding

An encoder is free in many ways: how it cuts the body into chunks, in which case it writes the
digits of a size and how many zeros it puts before them, what extensions it adds to the size lines
and what trailers behind the last of them. The reader undoes all of it, and needs no byte behind the
blank line at the end.

## Main definitions

* `TgWsProxy.SizeLine` — a size line as an encoder writes it.
* `TgWsProxy.ChunkedEncoding` — an encoding of a body.

## Main results

* `TgWsProxy.SizeLine.chunkSize_bytes` — the reader takes the size from the line.
* `TgWsProxy.chunked_round_trip` — decoding undoes encoding.
-/

namespace TgWsProxy

open Slices Loops

variable {w : PointerWidth}

/-! ## Size lines -/

/-- A size line: hexadecimal digits in either letter case, with any number of zeros before them, and
possibly a `;` and an extension. -/
structure SizeLine where
  digits : Host
  ext : Option Host
  digits_ne : digits ≠ []
  digits_hex : ∀ c ∈ digits, (Hex.digit c).isSome
  ext_free : ∀ e ∈ ext, CrlfFree (asBytes e)

namespace SizeLine

variable (line : SizeLine)

/-- The size that the line states. -/
def size : ℕ := hexValue line.digits

/-- The text of the line. -/
def text : Host := line.digits ++ (line.ext.map (';' :: ·)).getD []

/-- The line on the wire. -/
def bytes : Bytes := asBytes line.text

end SizeLine

/-- A text in front of another. -/
theorem asBytes_append (a b : Host) : asBytes (a ++ b) = asBytes a ++ asBytes b :=
  List.flatMap_append

/-- What hexadecimal digits have to do with the other characters of a size line. -/
theorem hexDigit_plain {c : Char} (h : (Hex.digit c).isSome) :
    c ≠ ';' ∧ Text.isWhitespace c = false ∧ 13 ∉ String.utf8EncodeChar c := by
  have hlt : c.toNat < 128 := by
    unfold Hex.digit at h
    simp only [Char.le_def, UInt32.le_iff_toNat_le, Char.reduceVal, UInt32.reduceToNat] at h
    have hval : c.val.toNat = c.toNat := rfl
    split_ifs at h <;> simp_all <;> omega
  have hall : ∀ n < 128, (Hex.digit (Char.ofNat n)).isSome → Char.ofNat n ≠ ';' ∧
      Text.isWhitespace (Char.ofNat n) = false ∧ 13 ∉ String.utf8EncodeChar (Char.ofNat n) := by
    decide +kernel
  have hc := hall c.toNat hlt
  rw [Char.ofNat_toNat] at hc
  exact hc h

/-- A piece without a carriage return does not take part in a line end. -/
theorem CrlfFree.append {a b : Bytes} (ha : 13 ∉ a) (hb : CrlfFree b) : CrlfFree (a ++ b) := by
  induction a with
  | nil => exact hb
  | cons x a ih =>
    obtain ⟨hx, ha⟩ : 13 ≠ x ∧ 13 ∉ a := by simpa using ha
    intro hin
    rw [List.cons_append, List.infix_cons_iff] at hin
    rcases hin with hpre | hin
    · obtain ⟨_, heq⟩ := hpre
      exact hx (List.cons.inj heq).1
    · exact ih ha hin

namespace SizeLine

variable (line : SizeLine)

/-- A size line has no line end inside. -/
theorem bytes_free : CrlfFree line.bytes := by
  have hdigits : 13 ∉ asBytes line.digits := by
    intro hin
    obtain ⟨c, hc, hin⟩ := List.mem_flatMap.mp hin
    exact (hexDigit_plain (line.digits_hex c hc)).2.2 hin
  rw [bytes, text, asBytes_append]
  refine CrlfFree.append hdigits ?_
  cases hext : line.ext with
  | none => exact (by decide : CrlfFree [])
  | some e =>
    have he : asBytes (';' :: e) = [59] ++ asBytes e := rfl
    rw [Option.map_some, Option.getD_some, he]
    exact CrlfFree.append (by decide) (line.ext_free e hext)

/-- The digits stand before the first `;`. -/
theorem split_text :
    ((Text.splitFirst [';'] line.text).map Prod.fst).getD line.text = line.digits := by
  have hdigits : ';' ∉ line.digits := fun hin => (hexDigit_plain (line.digits_hex _ hin)).1 rfl
  cases hext : line.ext with
  | none =>
    have hnone : Text.splitFirst [';'] line.digits = none := by
      rw [Text.splitFirst_eq_none_iff]
      exact fun hin => hdigits (hin.subset List.mem_cons_self)
    rw [text, hext, Option.map_none, Option.getD_none, List.append_nil, hnone]
    rfl
  | some e =>
    have hself : Text.splitFirst [';'] (';' :: e) = some ([], e) :=
      Text.splitFirst_self_append e (by simp)
    rw [text, hext, Option.map_some, Option.getD_some, Text.splitFirst_append hdigits, hself]
    simp

/-- **The reader takes the size from the line.** -/
theorem chunkSize_bytes (hfits : line.size ≤ w.usizeMax) :
    chunkSize w line.bytes = .ok line.size := by
  have htrim : Text.trim line.digits = line.digits :=
    Text.trim_eq_self fun c hc => (hexDigit_plain (line.digits_hex c hc)).2.1
  have hnum := fromStrRadix_hex line.digits_ne line.digits_hex hfits
  rw [chunkSize, bytes, fromUtf8_asBytes]
  simp only [split_text, htrim, hnum]
  rfl

end SizeLine

/-! ## Encodings -/

/-- A piece of a body under a size line that states its length. -/
structure EncodedChunk where
  line : SizeLine
  data : Bytes
  data_ne : data ≠ []
  size_eq : line.size = data.length

/-- An encoding of a body: its pieces in order, the last size line and the trailer lines. -/
structure ChunkedEncoding where
  chunks : List EncodedChunk
  last : SizeLine
  trailers : List Bytes
  last_size : last.size = 0
  trailers_free : ∀ t ∈ trailers, t ≠ [] ∧ CrlfFree t

namespace ChunkedEncoding

variable (e : ChunkedEncoding)

/-- The body that is encoded: its pieces, put together. -/
def body : Bytes := (e.chunks.map EncodedChunk.data).flatten

/-- The trailer lines and the blank line at the end. -/
def trailerSection : Bytes := (e.trailers.map (· ++ crlf)).flatten ++ crlf

/-- The encoding on the wire. -/
def bytes : Bytes :=
  (e.chunks.map fun c => c.line.bytes ++ crlf ++ c.data ++ crlf).flatten ++
    e.last.bytes ++ crlf ++ e.trailerSection

/-- A chunk as the reader takes it. -/
def toChunk (c : EncodedChunk) : Chunk := ⟨c.line.bytes, c.data⟩

theorem length_chunk_le {c : EncodedChunk} (hc : c ∈ e.chunks) :
    c.data.length ≤ e.bytes.length := by
  obtain ⟨past, next, hchunks⟩ := List.append_of_mem hc
  rw [bytes, hchunks]
  simp only [List.map_append, List.map_cons, List.flatten_append, List.flatten_cons,
    List.length_append]
  omega

/-- The encoding is a message to the reader. -/
def toMessage (w : PointerWidth) (hlen : e.bytes.length ≤ maxBodyBytes) : ChunkedMessage w where
  chunks := e.chunks.map toChunk
  last := e.last.bytes
  trailers := e.trailers
  chunks_read := by
    intro chunk hchunk
    obtain ⟨c, hc, rfl⟩ := List.mem_map.mp hchunk
    have hmax := maxBodyBytes_lt_usizeMax w
    have hle := e.length_chunk_le hc
    have hsize := c.line.chunkSize_bytes (w := w) (by rw [c.size_eq]; omega)
    exact ⟨c.line.bytes_free, by rw [toChunk, hsize, c.size_eq], c.data_ne⟩
  last_free := e.last.bytes_free
  last_size := by
    rw [e.last.chunkSize_bytes (by rw [e.last_size]; exact Nat.zero_le _), e.last_size]
  trailers_free := e.trailers_free

variable {e} (hlen : e.bytes.length ≤ maxBodyBytes)

theorem body_toMessage : (e.toMessage w hlen).body = e.body := by
  rw [ChunkedMessage.body, toMessage, body, List.flatMap_map]
  rfl

theorem trailerSection_toMessage : (e.toMessage w hlen).trailerSection = e.trailerSection := rfl

theorem encode_toMessage : (e.toMessage w hlen).encode = e.bytes := by
  rw [ChunkedMessage.encode, trailerSection_toMessage, ChunkedMessage.start, bytes, chunkBytes,
    toMessage, List.flatMap_map, List.flatMap_def]
  simp only [Chunk.bytes, toChunk, List.append_assoc]

end ChunkedEncoding

/-- **Decoding undoes encoding.** For every encoding of a body within `MAX_BODY_BYTES` whose trailer
section is shorter than `MAX_HEADER_BYTES`, wherever it is cut between the initial buffer and the
reads, however long these are and whatever follows: `read_chunked_body` returns the body, and it
asks for more only while a part of the encoding is still missing.
**Proof sketch.** The reader keeps on the track of the message that the encoding is; the one limit
that could stop it there, on the trailers, is tested only before the blank line has been buffered.
-/
theorem chunked_round_trip (w : PointerWidth) (e : ChunkedEncoding)
    (hlen : e.bytes.length ≤ maxBodyBytes) (htrailers : e.trailerSection.length < maxHeaderBytes)
    (init : Bytes) (reader : Reader) (following : Bytes)
    (hsplit : init ++ reader.stream = e.bytes ++ following) :
    readChunkedBody w reader init = .ok e.body ∧
      ∀ s, (bodyLoop w).Reaches ⟨reader, init, .sizeLine [] 0⟩ s → s.head.Waits s.body →
        s.body.length < e.bytes.length := by
  have hencode := ChunkedEncoding.encode_toMessage (w := w) hlen
  rw [← hencode] at hsplit
  have htrack := onTrack_start hsplit
  have hmessage : (e.toMessage w hlen).encode.length ≤ maxBodyBytes := by rw [hencode]; exact hlen
  refine ⟨?_, fun s hreach hwaits => ?_⟩
  · have hrun := run_of_onTrack (fun _ => True) hmessage (fun _ _ _ _ _ => trivial)
      (fun s _ _ _ hshort => ?_) htrack trivial
    · rwa [ChunkedEncoding.body_toMessage] at hrun
    · have htotal := (e.toMessage w hlen).length_encode
      rw [ChunkedEncoding.trailerSection_toMessage] at htotal
      omega
  · have hs := Loop.invariant (OnTrack (e.toMessage w hlen) following)
      (fun _ _ hs hturn => hs.step (bodyTurn_again hturn)) hreach htrack
    rw [← hencode]
    exact hs.short_of_waits hwaits

/-- A size line of two zeros, a digit and an extension. -/
def exampleLine : SizeLine where
  digits := ['0', '0', 'b']
  ext := some ['x', '=', '1']
  digits_ne := by simp
  digits_hex := List.all_eq_true.mp (by decide)
  ext_free := by
    intro e he
    cases he
    decide

/-- The last size line in its shortest form. -/
def zeroLine : SizeLine := ⟨['0'], none, by simp, List.all_eq_true.mp (by decide), nofun⟩

theorem size_zeroLine : zeroLine.size = 0 := by decide

/-- One chunk whose data look like a line of a chunked body, and one trailer. -/
def exampleEncoding : ChunkedEncoding where
  chunks := [⟨exampleLine, [13, 10, 48, 13, 10, 13, 10, 65, 66, 67, 68], by simp, by decide⟩]
  last := zeroLine
  trailers := [[88, 58, 89]]
  last_size := size_zeroLine
  trailers_free := by decide

theorem chunked_round_trip_example :
    readChunkedBody .bits32 ⟨exampleEncoding.bytes.drop 9, [1, 1, 3], .silent⟩
        (exampleEncoding.bytes.take 9) = .ok exampleEncoding.body :=
  (chunked_round_trip .bits32 exampleEncoding (by decide) (by decide)
    (exampleEncoding.bytes.take 9) ⟨exampleEncoding.bytes.drop 9, [1, 1, 3], .silent⟩ []
    (by rw [List.take_append_drop, List.append_nil])).1

end TgWsProxy
