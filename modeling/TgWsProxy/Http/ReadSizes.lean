import TgWsProxy.Http.Decoding
import TgWsProxy.Http.RoundTrip

set_option relaxedAutoImplicit false
set_option autoImplicit false

/-!
# Read sizes and the answer

The same stream can arrive in reads of many sizes. The limits on headers and body are tested
against a buffer that never outgrows them, so they do not depend on the sizes. The limit on the
trailers is tested against whatever has been read ahead, and a trailer section a little over
`MAX_HEADER_BYTES` is refused or accepted as the last read before the limit is short or long.

## Main definitions

* `TgWsProxy.Agree` — the same text, or an error in both.
* `TgWsProxy.OverlongTrailers` — the streams on which the answer depends on the sizes.
* `TgWsProxy.Paced` — one byte at a time, and everything at once for the last bytes.

## Main results

* `TgWsProxy.readBody_same` — what one delivery gets out of any other stream, every one does.
* `TgWsProxy.refuses_of_paced`, `TgWsProxy.reads_of_paced` — two deliveries that differ.
* `TgWsProxy.reads_agree_iff` — the answer is the same for all sizes exactly on the other streams.
-/

namespace TgWsProxy

open Slices Loops

variable {w : PointerWidth} {httparse : Httparse}

/-! ## What has to agree -/

/-- Two answers are the same text, or both are errors. -/
def Agree (a b : Except Halt Host) : Prop :=
  (∃ text, a = .ok text ∧ b = .ok text) ∨
    (∃ m, a = .error (.failed m)) ∧ ∃ m, b = .error (.failed m)

/-- A chunked response that is well formed and within the other limits, with a trailer section that
exceeds `MAX_HEADER_BYTES` by less than one read. -/
def OverlongTrailers (w : PointerWidth) (httparse : Httparse) (stream : Bytes) : Prop :=
  ∃ (head : Bytes) (m : ChunkedMessage w) (rest : Bytes), stream = head ++ (m.encode ++ rest) ∧
    headerEnd stream = some head.length ∧ head.length ≤ maxHeaderBytes ∧
    responseFraming w httparse head = .ok .chunked ∧ m.encode.length ≤ maxBodyBytes ∧
    (fromUtf8 m.body).isSome ∧ maxHeaderBytes < m.trailerSection.length ∧
    m.trailerSection.length < maxHeaderBytes + readBytes

/-! ## The answer, step by step -/

theorem textOf_eq_ok {body : Bytes} {text : Host} :
    textOf body = .ok text ↔ fromUtf8 body = some text := by
  unfold textOf
  split
  · rename_i text' htext
    rw [htext]
    exact ⟨fun h => congrArg some (Except.ok.inj h),
      fun h => congrArg Except.ok (Option.some.inj h)⟩
  · rename_i hnone
    rw [hnone]
    exact ⟨nofun, nofun⟩

/-- The answer once the headers have been read. -/
theorem readHttpResponseBody_eq {reader : Reader} {h : ℕ} {s : HeaderState}
    (hread : readUntilHeaders reader [] = .ok (h, s)) (hle : h ≤ s.buf.length) :
    readHttpResponseBody w httparse reader =
      (responseFraming w httparse (s.buf.take h) >>= fun framing =>
        readBody w s.reader (s.buf.drop h) framing >>= textOf) := by
  have hhead : access (range s.buf 0 h) = .ok (s.buf.take h) := by
    rw [range_to_eq hle, access_ok]
  have hrest := access_tail hle
  rw [readHttpResponseBody, hread, halt_ok_bind]
  simp only [hhead, hrest, halt_ok_bind]

theorem contentLengthTurn_error {length : Option ℕ} {header : HttpHeader} {e : Halt}
    (h : contentLengthTurn w length header = .error e) : ∃ m, e = .failed m := by
  unfold contentLengthTurn at h
  split at h
  · cases h
    exact ⟨_, rfl⟩
  · split at h
    · cases h
      exact ⟨_, rfl⟩
    · split_ifs at h
      cases h
      exact ⟨_, rfl⟩

theorem contentLength_error {headers : List HttpHeader} {e : Halt}
    (h : contentLength w headers = .error e) : ∃ m, e = .failed m := by
  unfold contentLength at h
  generalize (none : Option ℕ) = length at h
  generalize List.filter _ headers = fields at h
  induction fields generalizing length with
  | nil => cases h
  | cons header fields ih =>
    rw [List.foldlM_cons] at h
    cases hfirst : contentLengthTurn w length header with
    | ok length' =>
      rw [hfirst] at h
      exact ih _ h
    | error e' =>
      rw [hfirst] at h
      cases h
      exact contentLengthTurn_error hfirst

/-- A response is refused with an error. -/
theorem responseFraming_error {head : Bytes} {e : Halt}
    (h : responseFraming w httparse head = .error e) : ∃ m, e = .failed m := by
  unfold responseFraming at h
  cases hparse : httparse (httpHeaderCount head) head with
  | error e' =>
    rw [hparse] at h
    cases h
    exact ⟨_, rfl⟩
  | ok response =>
    rw [hparse] at h
    dsimp only at h
    by_cases hcomplete : response.complete
    · rw [if_neg (not_not.mpr hcomplete)] at h
      cases hcode : response.code with
      | none =>
        rw [hcode] at h
        cases h
        exact ⟨_, rfl⟩
      | some code =>
        rw [hcode] at h
        dsimp only at h
        by_cases hok : code ≠ 200
        · rw [if_pos hok] at h
          cases h
          exact ⟨_, rfl⟩
        · rw [if_neg hok] at h
          cases hlen : contentLength w response.headers with
          | error e' =>
            rw [hlen] at h
            cases h
            exact contentLength_error hlen
          | ok declaredLen =>
            rw [hlen, halt_ok_bind] at h
            split_ifs at h
            · cases h
            · cases declaredLen <;> cases h
    · rw [if_pos hcomplete] at h
      cases h
      exact ⟨_, rfl⟩

/-- At the end of the stream a body reader fails with an error. -/
theorem readBody_error {r : Reader} {init : Bytes} {framing : Framing} {e : Halt}
    (hinit : init.length ≤ maxHeaderBytes) (hending : r.ending = .eof)
    (h : readBody w r init framing = .error e) : ∃ m, e = .failed m := by
  have hbody : init.length ≤ maxBodyBytes := Nat.le_trans hinit (by decide)
  cases framing with
  | chunked =>
    have hs : BodyBounds ⟨r, init, .sizeLine [] 0⟩ := ⟨hbody, Nat.zero_le _, Nat.zero_le _⟩
    exact bodyLoop_failed hs hending h
  | untilEof =>
    have hs : BodyBounds ⟨r, init, .untilEof⟩ := ⟨hbody, trivial⟩
    exact bodyLoop_failed hs hending h
  | length len =>
    rw [readBody, readContentLengthBody] at h
    split_ifs at h with hmax
    · cases h
      exact ⟨_, rfl⟩
    · have hs : BodyBounds ⟨r, init, .contentLength len⟩ := ⟨hbody, Nat.le_of_not_lt hmax⟩
      exact bodyLoop_failed hs hending h

/-- What is known about the headers however they arrive. -/
theorem headers_of_end {stream : Bytes} {h : ℕ} (hend : headerEnd stream = some h)
    (hle : h ≤ maxHeaderBytes) (sizes : List ℕ) :
    ∃ s, readUntilHeaders ⟨stream, sizes, .eof⟩ [] = .ok (h, s) ∧ h ≤ s.buf.length ∧
      s.buf.take h = stream.take h ∧ s.buf.drop h ++ s.reader.stream = stream.drop h ∧
      (s.buf.drop h).length ≤ maxHeaderBytes ∧ s.reader.ending = .eof := by
  have hstream : (⟨stream, sizes, .eof⟩ : Reader).stream = stream := rfl
  obtain ⟨s, hread, hbytes, hlen, hmax, hending, _⟩ := readUntilHeaders_spec (fun _ => True)
    hend hle hstream (fun _ _ _ _ _ _ _ _ => trivial) trivial
  refine ⟨s, hread, hlen, ?_, ?_, ?_, hending⟩
  · rw [← hbytes, List.take_append_of_le_length hlen]
  · rw [← hbytes, List.drop_append_of_le_length hlen]
  · rw [List.length_drop]
    omega

/-- An answer that is not a text is an error. -/
theorem answer_cases (w : PointerWidth) (httparse : Httparse) (stream : Bytes) (sizes : List ℕ) :
    (∃ text, readHttpResponseBody w httparse ⟨stream, sizes, .eof⟩ = .ok text) ∨
      ∃ m, readHttpResponseBody w httparse ⟨stream, sizes, .eof⟩ = .error (.failed m) := by
  by_cases hheaders : ∃ h, headerEnd stream = some h ∧ h ≤ maxHeaderBytes
  · obtain ⟨h, hend, hle⟩ := hheaders
    obtain ⟨s, hread, hlen, _, _, hinit, hending⟩ := headers_of_end hend hle sizes
    rw [readHttpResponseBody_eq hread hlen]
    cases hframing : responseFraming w httparse (s.buf.take h) with
    | error e =>
      obtain ⟨m, rfl⟩ := responseFraming_error hframing
      exact .inr ⟨m, rfl⟩
    | ok framing =>
      rw [halt_ok_bind]
      cases hbody : readBody w s.reader (s.buf.drop h) framing with
      | error e =>
        obtain ⟨m, rfl⟩ := readBody_error hinit hending hbody
        exact .inr ⟨m, rfl⟩
      | ok body =>
        rw [halt_ok_bind, textOf]
        split
        · exact .inl ⟨_, rfl⟩
        · exact .inr ⟨_, rfl⟩
  · have heof : (⟨stream, sizes, .eof⟩ : Reader).ending = .eof := rfl
    obtain ⟨m, hrefused⟩ := readUntilHeaders_refuses heof
      fun h hend => Nat.lt_of_not_le fun hle => hheaders ⟨h, hend, hle⟩
    exact .inr ⟨m, by rw [readHttpResponseBody, hrefused]; rfl⟩

/-! ## Deliveries that agree -/

/-- **A body that one delivery gives, every delivery gives**, unless the trailers are overlong. -/
theorem readBody_same {r r' : Reader} {init init' b : Bytes} {framing : Framing}
    (hinit : init.length ≤ maxHeaderBytes) (hending : r.ending = .eof)
    (hending' : r'.ending = .eof) (hsame : init ++ r.stream = init' ++ r'.stream)
    (hshort : framing = .chunked → ∀ (m : ChunkedMessage w) (rest : Bytes),
      init ++ r.stream = m.encode ++ rest → m.encode.length ≤ maxBodyBytes → m.body = b →
      m.trailerSection.length < maxHeaderBytes + readBytes →
      m.trailerSection.length ≤ maxHeaderBytes)
    (h : readBody w r init framing = .ok b) : readBody w r' init' framing = .ok b := by
  cases framing with
  | length len =>
    have hb := (readContentLengthBody_spec len b).mp h
    rw [hsame] at hb
    exact (readContentLengthBody_spec len b).mpr hb
  | untilEof =>
    have hb := (readUntilEofLimited_spec hending b).mp h
    rw [hsame] at hb
    exact (readUntilEofLimited_spec hending' b).mpr hb
  | chunked =>
    obtain ⟨m, rest, hbytes, rfl, hlen, hahead⟩ := message_of_readChunkedBody hinit h
    have hle := hshort rfl m rest hbytes hlen rfl hahead
    refine run_of_onTrack (fun _ => True) hlen (fun _ _ _ _ _ => trivial) (fun s _ _ _ hs => ?_)
      (onTrack_start (hsame.symm.trans hbytes)) trivial
    have htotal := m.length_encode
    omega

/-- Without overlong trailers a text that one delivery gives, every delivery gives. -/
theorem answer_same {stream : Bytes} (hshort : ¬ OverlongTrailers w httparse stream)
    {sizes : List ℕ} (sizes' : List ℕ) {text : Host}
    (h : readHttpResponseBody w httparse ⟨stream, sizes, .eof⟩ = .ok text) :
    readHttpResponseBody w httparse ⟨stream, sizes', .eof⟩ = .ok text := by
  by_cases hheaders : ∃ n, headerEnd stream = some n ∧ n ≤ maxHeaderBytes
  · obtain ⟨n, hend, hle⟩ := hheaders
    obtain ⟨s, hread, hlen, hhead, hrest, hinit, hending⟩ := headers_of_end hend hle sizes
    obtain ⟨s', hread', hlen', hhead', hrest', _, hending'⟩ := headers_of_end hend hle sizes'
    rw [readHttpResponseBody_eq hread hlen, hhead] at h
    rw [readHttpResponseBody_eq hread' hlen', hhead']
    obtain ⟨framing, hframing, h⟩ := bind_eq_ok.mp h
    obtain ⟨b, hbody, h⟩ := bind_eq_ok.mp h
    have hbody' := readBody_same hinit hending hending' (hrest.trans hrest'.symm)
      (fun hchunked m rest hbytes hmax hmb hahead => ?_) hbody
    · rw [hframing, halt_ok_bind, hbody', halt_ok_bind, h]
    · by_contra hover
      have htake : (stream.take n).length = n := by
        rw [List.length_take]
        have hn := headerEnd_le hend
        omega
      refine hshort ⟨stream.take n, m, rest, ?_, by rw [htake]; exact hend, by omega,
        hchunked ▸ hframing, hmax, ?_, by omega, hahead⟩
      · rw [← hbytes, hrest, List.take_append_drop]
      · rw [hmb, textOf_eq_ok.mp h]
        rfl
  · have heof : (⟨stream, sizes, .eof⟩ : Reader).ending = .eof := rfl
    obtain ⟨m, hrefused⟩ := readUntilHeaders_refuses heof
      fun n hend => Nat.lt_of_not_le fun hle => hheaders ⟨n, hend, hle⟩
    rw [readHttpResponseBody, hrefused] at h
    cases h

/-! ## Deliveries that differ -/

/-- One byte at a time, and as much as is asked for once only `k` bytes are left. -/
def Paced (k : ℕ) (r : Reader) : Prop := r.sizes = List.replicate (r.stream.length - k) 1

section Paced

variable {k cap : ℕ} {r r' : Reader} {chunk : Bytes}

theorem Reader.Gives.paced (h : r.Gives cap chunk r') (hr : Paced k r) :
    Paced k r' ∧ (k < r.stream.length → chunk.length = 1) ∧
      (r.stream.length ≤ k → chunk.length = min cap r.stream.length) := by
  have hstream := h.length_stream
  have hpos := h.pos
  have hlen := h.length_eq
  unfold Paced at hr ⊢
  rw [h.sizes_eq]
  rcases Nat.lt_or_ge k r.stream.length with hlt | hge
  · obtain ⟨n, hn⟩ : ∃ n, r.stream.length - k = n + 1 := ⟨r.stream.length - k - 1, by omega⟩
    rw [hr, hn, List.replicate_succ, List.headD_cons] at hlen
    have hone : chunk.length = 1 := by omega
    refine ⟨?_, fun _ => hone, fun hge => absurd hlt (by omega)⟩
    rw [hr, hn, List.replicate_succ, List.tail_cons]
    congr 1
    omega
  · have hnil : r.stream.length - k = 0 := by omega
    rw [hr, hnil, List.replicate_zero, List.headD_nil] at hlen
    refine ⟨?_, fun hlt => absurd hge (by omega), fun _ => by omega⟩
    rw [hr, hnil, show r'.stream.length - k = 0 by omega]
    rfl

/-- Headers that arrive byte by byte leave nothing read ahead. -/
theorem headers_of_paced {head tail : Bytes} (hend : headerEnd (head ++ tail) = some head.length)
    (hle : head.length ≤ maxHeaderBytes) (hk : k ≤ tail.length)
    {reader : Reader} (hstream : reader.stream = head ++ tail) (hpaced : Paced k reader) :
    ∃ r, readUntilHeaders reader [] = .ok (head.length, ⟨r, head⟩) ∧ r.stream = tail ∧
      Paced k r ∧ r.ending = reader.ending := by
  -- a byte is read only before the headers end
  have hstep : ∀ (s s' : HeaderState) (chunk : Bytes), s.buf ++ s.reader.stream = head ++ tail →
      s.buf.length < head.length → Paced k s.reader ∧ s.buf.length ≤ head.length →
      s.reader.Gives (min (maxHeaderBytes - s.buf.length) readBytes) chunk s'.reader →
      s'.buf = s.buf ++ chunk → Paced k s'.reader ∧ s'.buf.length ≤ head.length := by
    rintro s s' chunk hbytes hshort ⟨hs, _⟩ hgives hbuf
    obtain ⟨hs', hone, _⟩ := hgives.paced hs
    have htotal := congrArg List.length hbytes
    rw [List.length_append, List.length_append] at htotal
    refine ⟨hs', ?_⟩
    rw [hbuf, List.length_append, hone (by omega)]
    exact hshort
  obtain ⟨⟨r, buf⟩, hread, hbytes, hlen, _, hending, hs⟩ :=
    readUntilHeaders_spec (fun s => Paced k s.reader ∧ s.buf.length ≤ head.length) hend hle hstream
      hstep ⟨hpaced, Nat.zero_le _⟩
  obtain ⟨rfl, rfl⟩ := List.append_inj hbytes (Nat.le_antisymm hs.2 hlen)
  exact ⟨r, hread, rfl, hs.1, hending⟩

variable {m : ChunkedMessage w} {rest : Bytes}

/-- The buffer stays within the limit on the trailers. -/
def BodyHead.Within (body : Bytes) : BodyHead → Prop
  | trailer _ trailerStart _ => body.length ≤ trailerStart + maxHeaderBytes
  | _ => True

/-- Byte by byte the buffer reaches the limit on the trailers but does not pass it. -/
theorem BodyStep.within {s s' : BodyState} (h : BodyStep w s s') (hpaced : Paced 0 s.reader)
    (hahead : s.head.Ahead s.body) (hs : s.head.Within s.body) : s'.head.Within s'.body := by
  cases h with
  | @read r r' body chunk head hwaits hgives _ =>
    cases head with
    | trailer decoded trailerStart pos =>
      have hunder : body.length - trailerStart < maxHeaderBytes := hwaits.2.2
      have hstream := hgives.length_stream
      have hpos := hgives.pos
      have hone := (hgives.paced hpaced).2.1 (by omega)
      have hlen : (body ++ chunk).length ≤ trailerStart + maxHeaderBytes := by
        rw [List.length_append]
        omega
      exact hlen
    | _ => trivial
  | @lastLine _ body _ pos rel _ hrel _ =>
    have hread : readBytes ≤ maxHeaderBytes := by decide
    have hle : body.length ≤ pos + rel + 2 + maxHeaderBytes := by
      rcases hahead _ hrel with hlt | hle
      · exact Nat.le_trans (Nat.le_of_lt hlt) (by omega)
      · exact Nat.le_trans hle (by omega)
    exact hle
  | line _ _ _ _ _ => trivial
  | data _ _ => trivial
  | trailer _ _ _ => exact hs

/-- **Byte by byte**, trailers over the limit are refused. -/
theorem refuses_of_paced (hover : maxHeaderBytes < m.trailerSection.length)
    (hstream : r.stream = m.encode ++ rest) (hpaced : Paced 0 r) (b : Bytes) :
    readChunkedBody w r [] ≠ .ok b := by
  have hrun := Loop.run_rule (l := bodyLoop w)
    (fun s => OnTrack m rest s ∧ Paced 0 s.reader ∧ s.head.Ahead s.body ∧ s.head.Within s.body)
    (fun res => ∀ b, res ≠ .ok b) ?_ ?_ ?_
    (⟨onTrack_start hstream, hpaced, fun _ _ => .inr (Nat.zero_le _), trivial⟩ :
      OnTrack m rest ⟨r, [], .sizeLine [] 0⟩ ∧ _ ∧ BodyHead.Ahead [] (.sizeLine [] 0) ∧ _)
  · exact hrun b
  · rintro s s' ⟨htrack, hs, hahead, hwithin⟩ hturn
    have hstep := bodyTurn_again hturn
    refine ⟨htrack.step hstep, ?_, hstep.ahead hahead, hstep.within hs hahead hwithin⟩
    cases hstep with
    | read _ hgives _ => exact (hgives.paced hs).1
    | _ => exact hs
  · rintro s b' ⟨htrack, _, _, hwithin⟩ hturn
    have hdone := bodyTurn_done hturn
    have hall := (htrack.done hdone).2
    have htotal := m.length_encode
    cases hdone with
    | contentLength _ => exact htrack.head.elim
    | eof _ _ _ => exact htrack.head.elim
    | @blankLine r body _ _ _ _ _ =>
      have hstart := htrack.head.2.1
      have hle : body.length ≤ _ + maxHeaderBytes := hwithin
      dsimp only at hall
      omega
  · exact fun s e _ _ b => nofun

/-- A read that reaches beyond the trailers saves them. -/
theorem reads_of_paced (hover : maxHeaderBytes < m.trailerSection.length)
    (hunder : m.trailerSection.length < maxHeaderBytes + readBytes)
    (hlen : m.encode.length ≤ maxBodyBytes) (hstream : r.stream = m.encode ++ rest)
    (hk : k + (m.start.length + maxHeaderBytes) = (m.encode ++ rest).length + 1)
    (hpaced : Paced k r) : readChunkedBody w r [] = .ok m.body := by
  have htotal := m.length_encode
  have hall : (m.encode ++ rest).length = m.encode.length + rest.length := List.length_append
  -- before the long read the limit is not reached, and behind it nothing is missing
  refine run_of_onTrack
    (fun s => Paced k s.reader ∧ (k ≤ s.reader.stream.length ∨ m.encode.length ≤ s.body.length))
    hlen ?_ ?_ (onTrack_start hstream) ⟨hpaced, .inl ?_⟩
  · rintro s s' htrack ⟨hs, hwhere⟩ hstep
    cases hstep with
    | @read r r' body chunk head hwaits hgives _ =>
      have hshort : body.length < m.encode.length := htrack.short_of_waits hwaits
      have hbytes := congrArg List.length htrack.bytes_eq
      rw [List.length_append, hall] at hbytes
      dsimp only at hbytes hwhere hs
      obtain ⟨hs', hone, hmany⟩ := hgives.paced hs
      have hstream' := hgives.length_stream
      refine ⟨hs', ?_⟩
      dsimp only
      rw [List.length_append]
      rcases Nat.lt_or_ge k r.stream.length with hlt | hge
      · have hchunk := hone hlt
        exact .inl (by omega)
      · right
        have hchunk := hmany hge
        have hlimit : head.limit = maxBodyBytes := by
          cases head with
          | contentLength _ => exact htrack.head.elim
          | _ => rfl
        rw [BodyHead.ask, hlimit] at hchunk
        omega
    | _ => exact ⟨hs, hwhere⟩
  · rintro s htrack ⟨_, hwhere⟩ _ hshort
    have hbytes := congrArg List.length htrack.bytes_eq
    rw [List.length_append, hall] at hbytes
    have hmax : 0 < maxHeaderBytes := by decide
    omega
  · dsimp only
    rw [hstream]
    have hmax : 0 < maxHeaderBytes := by decide
    omega

end Paced

/-- On a stream with overlong trailers two deliveries differ. -/
theorem not_agree_of_overlong {stream : Bytes} (h : OverlongTrailers w httparse stream) :
    ∃ sizes sizes', ¬ Agree (readHttpResponseBody w httparse ⟨stream, sizes, .eof⟩)
      (readHttpResponseBody w httparse ⟨stream, sizes', .eof⟩) := by
  obtain ⟨head, m, rest, rfl, hend, hle, hframing, hlen, htext, hover, hunder⟩ := h
  obtain ⟨text, htext⟩ := Option.isSome_iff_exists.mp htext
  have htotal := m.length_encode
  have hall : (m.encode ++ rest).length = m.encode.length + rest.length := List.length_append
  have hmax : 0 < maxHeaderBytes := by decide
  -- the answer to a delivery that is paced over the headers
  have hanswer : ∀ k ≤ (m.encode ++ rest).length, ∃ (sizes : List ℕ) (r : Reader),
      r.stream = m.encode ++ rest ∧ Paced k r ∧
        readHttpResponseBody w httparse ⟨head ++ (m.encode ++ rest), sizes, .eof⟩ =
          (readChunkedBody w r [] >>= textOf) := by
    intro k hk
    let sizes := List.replicate ((head ++ (m.encode ++ rest)).length - k) 1
    have hreader : Paced k ⟨head ++ (m.encode ++ rest), sizes, .eof⟩ := rfl
    obtain ⟨r, hread, hstream, hpaced, _⟩ := headers_of_paced hend hle hk rfl hreader
    refine ⟨sizes, r, hstream, hpaced, ?_⟩
    rw [readHttpResponseBody_eq hread (Nat.le_refl _), List.take_length, hframing, halt_ok_bind,
      List.drop_length]
    rfl
  obtain ⟨slowSizes, slow, hslow, hslowPaced, hslowAnswer⟩ := hanswer 0 (Nat.zero_le _)
  obtain ⟨fastSizes, fast, hfast, hfastPaced, hfastAnswer⟩ :=
    hanswer ((m.encode ++ rest).length + 1 - (m.start.length + maxHeaderBytes)) (by omega)
  refine ⟨slowSizes, fastSizes, ?_⟩
  rw [hslowAnswer, hfastAnswer, reads_of_paced hover hunder hlen hfast (by omega) hfastPaced,
    halt_ok_bind, textOf_eq_ok.mpr htext]
  rintro (⟨text', hok, _⟩ | ⟨_, m', herror⟩)
  · obtain ⟨b, hb, _⟩ := bind_eq_ok.mp hok
    exact refuses_of_paced hover hslow hslowPaced b hb
  · cases herror

/-- **Read sizes and the answer.** The answer to a stream is the same for all ways of delivering it
exactly if its trailers are not overlong.
**Proof sketch.** A text that one delivery gives is that of a message whose trailers exceed the
limit by less than a read; if they do not exceed it at all, every delivery gives it. If they do,
byte by byte the limit is met, and a long read just before it gets past. -/
theorem reads_agree_iff (w : PointerWidth) (httparse : Httparse) (stream : Bytes) :
    (∀ sizes sizes', Agree (readHttpResponseBody w httparse ⟨stream, sizes, .eof⟩)
      (readHttpResponseBody w httparse ⟨stream, sizes', .eof⟩)) ↔
      ¬ OverlongTrailers w httparse stream := by
  refine ⟨fun hagree hover => ?_, fun hshort sizes sizes' => ?_⟩
  · obtain ⟨sizes, sizes', hne⟩ := not_agree_of_overlong hover
    exact hne (hagree sizes sizes')
  · rcases answer_cases w httparse stream sizes with ⟨text, htext⟩ | ⟨m, hm⟩
    · exact .inl ⟨text, htext, answer_same hshort sizes' htext⟩
    · rcases answer_cases w httparse stream sizes' with ⟨text, htext⟩ | hm'
      · rw [answer_same hshort sizes htext] at hm
        cases hm
      · exact .inr ⟨⟨m, hm⟩, hm'⟩

/-- The headers of a chunked response. -/
def chunkedHead : Host := "HTTP/1.1 200 OK\r\nTransfer-Encoding: chunked\r\n\r\n".toList

/-- What `httparse` makes of them. -/
def chunkedHttparse : Httparse := fun _ head =>
  if head = asBytes chunkedHead then
    .ok ⟨true, some 200, [⟨"Transfer-Encoding".toList, asBytes "chunked".toList⟩]⟩
  else .error "invalid token"

/-- A trailer line of one letter, any number of times. -/
theorem free_replicate {n : ℕ} (hn : 0 < n) :
    List.replicate n (97 : UInt8) ≠ [] ∧ CrlfFree (List.replicate n 97) := by
  refine ⟨List.length_pos_iff.mp (by rwa [List.length_replicate]), fun hin => ?_⟩
  have hten := hin.subset (List.mem_cons_of_mem 13 List.mem_cons_self)
  exact absurd (List.eq_of_mem_replicate hten) (by decide)

/-- No body, and one trailer line of `MAX_HEADER_BYTES` bytes. -/
def overlongEncoding : ChunkedEncoding where
  chunks := []
  last := zeroLine
  trailers := [List.replicate maxHeaderBytes 97]
  last_size := size_zeroLine
  trailers_free := List.forall_mem_singleton.mpr (free_replicate (by decide))

theorem length_overlongEncoding :
    overlongEncoding.trailerSection.length = maxHeaderBytes + 4 ∧
      overlongEncoding.bytes.length = maxHeaderBytes + 7 := by
  have hlast : overlongEncoding.last.bytes.length = 1 := by decide
  have htrailers : overlongEncoding.trailerSection.length = maxHeaderBytes + 4 := by
    simp [ChunkedEncoding.trailerSection, overlongEncoding, length_crlf]
  refine ⟨htrailers, ?_⟩
  rw [ChunkedEncoding.bytes, List.length_append, List.length_append, List.length_append, hlast,
    htrailers, length_crlf]
  simp [overlongEncoding]
  omega

theorem overlongTrailers_example :
    OverlongTrailers .bits64 chunkedHttparse (asBytes chunkedHead ++ overlongEncoding.bytes) := by
  obtain ⟨hsection, hbytes⟩ := length_overlongEncoding
  have hlen : overlongEncoding.bytes.length ≤ maxBodyBytes := by
    rw [hbytes]
    decide
  have hend : headerEnd (asBytes chunkedHead) = some (asBytes chunkedHead).length := by decide
  have hframing : responseFraming .bits64 chunkedHttparse (asBytes chunkedHead) = .ok .chunked := by
    have hparse : chunkedHttparse (httpHeaderCount (asBytes chunkedHead)) (asBytes chunkedHead) =
        .ok ⟨true, some 200, [⟨"Transfer-Encoding".toList, asBytes "chunked".toList⟩]⟩ := if_pos rfl
    have hchunked : isChunked [⟨"Transfer-Encoding".toList, asBytes "chunked".toList⟩] = true := by
      rw [isChunked, List.filter_cons_of_pos (by decide), List.filterMap_cons, fromUtf8_asBytes]
      decide
    rw [responseFraming, hparse]
    simp only [hchunked]
    decide
  refine ⟨asBytes chunkedHead, overlongEncoding.toMessage .bits64 hlen, [], ?_,
    headerEnd_append hend _, by decide, hframing, ?_, ?_, ?_, ?_⟩
  · rw [ChunkedEncoding.encode_toMessage, List.append_nil]
  · rw [ChunkedEncoding.encode_toMessage]
    exact hlen
  · rw [ChunkedEncoding.body_toMessage]
    exact congrArg Option.isSome (fromUtf8_asBytes [])
  · rw [ChunkedEncoding.trailerSection_toMessage, hsection]
    omega
  · rw [ChunkedEncoding.trailerSection_toMessage, hsection]
    decide

/-- A response whose answer depends on the sizes of the reads. -/
theorem overlong_trailers_disagree :
    ¬ ∀ sizes sizes',
      Agree (readHttpResponseBody .bits64 chunkedHttparse
          ⟨asBytes chunkedHead ++ overlongEncoding.bytes, sizes, .eof⟩)
        (readHttpResponseBody .bits64 chunkedHttparse
          ⟨asBytes chunkedHead ++ overlongEncoding.bytes, sizes', .eof⟩) := by
  intro hagree
  obtain ⟨sizes, sizes', hne⟩ := not_agree_of_overlong overlongTrailers_example
  exact hne (hagree sizes sizes')

end TgWsProxy
