import TgWsProxy.Http.Chunked

set_option relaxedAutoImplicit false
set_option autoImplicit false

/-!
# Reading a response

`read_http_response_body` of `default_domains/http.rs`: the headers are read up to their blank line,
what they say about the body picks a body reader, and the body must be text.

## Main definitions

* `TgWsProxy.readUntilHeaders` — `read_until_headers`.
* `TgWsProxy.Framing`, `responseFraming` — how the body is delimited, or why the response is
  refused.
* `TgWsProxy.readHttpResponseBody` — `read_http_response_body`.

## Main results

* `TgWsProxy.readUntilHeaders_spec` — headers within `MAX_HEADER_BYTES` are found however they
  arrive.
* `TgWsProxy.readContentLengthBody_spec`, `readUntilEofLimited_spec` — so are the other two kinds
  of body.
-/

namespace TgWsProxy

open Slices Loops

variable {w : PointerWidth}

/-! ## Headers -/

/-- A reader and what it has buffered. -/
structure HeaderState where
  reader : Reader
  buf : Bytes
  deriving DecidableEq

/-- A pass of `read_until_headers`; it ends with the length of the headers. -/
def headerTurn (s : HeaderState) : Except Halt (HeaderState ⊕ (ℕ × HeaderState)) := do
  match headerEnd s.buf with
  | some pos => return .inr (pos, s)
  | none =>
    if maxHeaderBytes ≤ s.buf.length then .error (.failed "HTTP response headers exceed limit")
    else
      let (reader, buf) ← readMore s.reader s.buf maxHeaderBytes
      return .inl { reader, buf }

/-- A pass that goes on has read more. -/
theorem headerTurn_again {s s' : HeaderState} (h : headerTurn s = .ok (.inl s')) :
    headerEnd s.buf = none ∧ s.buf.length < maxHeaderBytes ∧ ∃ chunk, s'.buf = s.buf ++ chunk ∧
      s.reader.Gives (min (maxHeaderBytes - s.buf.length) readBytes) chunk s'.reader := by
  unfold headerTurn at h
  split at h
  · cases h
  · rename_i hnone
    split_ifs at h with hlimit
    obtain ⟨⟨r, buf⟩, hread, hs'⟩ := bind_eq_ok.mp h
    obtain ⟨hlt, chunk, rfl, hgives⟩ := readMore_ok hread
    cases hs'
    exact ⟨hnone, hlt, chunk, rfl, hgives⟩

theorem headerTurn_done {s : HeaderState} {res : ℕ × HeaderState}
    (h : headerTurn s = .ok (.inr res)) : headerEnd s.buf = some res.1 ∧ res.2 = s := by
  unfold headerTurn at h
  split at h
  · rename_i pos hpos
    cases h
    exact ⟨hpos, rfl⟩
  · split_ifs at h with hlimit
    obtain ⟨_, _, h⟩ := bind_eq_ok.mp h
    cases h

theorem headerTurn_error {s : HeaderState} {e : Halt} (h : headerTurn s = .error e) :
    headerEnd s.buf = none ∧ (maxHeaderBytes ≤ s.buf.length ∨ s.reader.stream = []) ∧
      (s.reader.ending = .eof → ∃ m, e = .failed m) := by
  unfold headerTurn at h
  split at h
  · cases h
  · rename_i hnone
    split_ifs at h with hlimit
    · cases h
      exact ⟨hnone, .inl hlimit, fun _ => ⟨_, rfl⟩⟩
    · cases hread : readMore s.reader s.buf maxHeaderBytes with
      | ok next =>
        rw [hread] at h
        cases h
      | error e' =>
        rw [hread] at h
        cases h
        obtain ⟨_, hwhy, hfailed⟩ := readMore_error hread
        exact ⟨hnone, hwhy, hfailed⟩

/-- The loop of `read_until_headers`. -/
def headerLoop : Loop HeaderState Halt (ℕ × HeaderState) where
  turn := headerTurn
  measure s := s.reader.stream.length
  falls h := by
    obtain ⟨_, _, chunk, _, hgives⟩ := headerTurn_again h
    have hstream := hgives.length_stream
    have hpos := hgives.pos
    omega

/-- `read_until_headers`: the length of the headers, and what has been read. -/
def readUntilHeaders (reader : Reader) (buf : Bytes) : Except Halt (ℕ × HeaderState) :=
  headerLoop.run ⟨reader, buf⟩

/-! ## The response -/

/-- How a body is delimited. -/
inductive Framing
  | chunked
  | length (len : ℕ)
  | untilEof
  deriving DecidableEq

/-- What the headers of a response say about its body (`read_http_response_body`). -/
def responseFraming (w : PointerWidth) (httparse : Httparse) (head : Bytes) :
    Except Halt Framing := do
  match httparse (httpHeaderCount head) head with
  | .error e => .error (.failed ("HTTP parse error: " ++ e))
  | .ok response =>
    if ¬ response.complete then .error (.failed "incomplete HTTP response headers")
    else
      match response.code with
      | none => .error (.failed "response status line has no status code")
      | some code =>
        if code ≠ 200 then .error (.failed ("HTTP status " ++ toString code))
        else
          let declaredLen ← contentLength w response.headers
          if isChunked response.headers then return .chunked
          else
            match declaredLen with
            | some len => return .length len
            | none => return .untilEof

/-- The body reader for a way of delimiting. -/
def readBody (w : PointerWidth) (reader : Reader) (body : Bytes) : Framing → Except Halt Bytes
  | .chunked => readChunkedBody w reader body
  | .length len => readContentLengthBody w reader body len
  | .untilEof => readUntilEofLimited w reader body

/-- `String::from_utf8`, as `read_http_response_body` ends. -/
def textOf (body : Bytes) : Except Halt Host :=
  match fromUtf8 body with
  | some text => .ok text
  | none => .error (.failed "response body is not valid UTF-8")

/-- `read_http_response_body`. -/
def readHttpResponseBody (w : PointerWidth) (httparse : Httparse) (reader : Reader) :
    Except Halt Host := do
  let (headerLen, s) ← readUntilHeaders reader []
  let framing ← responseFraming w httparse (← access (range s.buf 0 headerLen))
  let body ← readBody w s.reader (← access (range s.buf headerLen s.buf.length)) framing
  textOf body

/-! ## Finding the headers -/

section Headers

variable {bytes more : Bytes} {h : ℕ}

theorem headerEnd_eq_some_iff :
    headerEnd bytes = some h ↔ ∃ p, Text.position (crlf ++ crlf) bytes = some p ∧ p + 4 = h := by
  simp [headerEnd]

theorem headerEnd_le (hend : headerEnd bytes = some h) : h ≤ bytes.length := by
  obtain ⟨p, hp, rfl⟩ := headerEnd_eq_some_iff.mp hend
  exact Text.position_le hp

theorem headerEnd_append (hend : headerEnd bytes = some h) (more : Bytes) :
    headerEnd (bytes ++ more) = some h := by
  obtain ⟨p, hp, rfl⟩ := headerEnd_eq_some_iff.mp hend
  exact headerEnd_eq_some_iff.mpr ⟨p, Text.position_append hp more, rfl⟩

/-- Headers that are buffered to their end are found. -/
theorem headerEnd_of_append (hend : headerEnd (bytes ++ more) = some h) (hle : h ≤ bytes.length) :
    headerEnd bytes = some h := by
  obtain ⟨p, hp, rfl⟩ := headerEnd_eq_some_iff.mp hend
  exact headerEnd_eq_some_iff.mpr ⟨p, Text.position_of_append hp hle, rfl⟩

/-- **Finding the headers.** Headers within `MAX_HEADER_BYTES` are found, and what has been read
behind them depends on how they arrive; `Extra` is what is known about that. -/
theorem readUntilHeaders_spec (Extra : HeaderState → Prop) {reader : Reader} {stream : Bytes}
    (hend : headerEnd stream = some h) (hle : h ≤ maxHeaderBytes) (hstream : reader.stream = stream)
    (hstep : ∀ s s' chunk, s.buf ++ s.reader.stream = stream → s.buf.length < h → Extra s →
      s.reader.Gives (min (maxHeaderBytes - s.buf.length) readBytes) chunk s'.reader →
      s'.buf = s.buf ++ chunk → Extra s')
    (hextra : Extra ⟨reader, []⟩) :
    ∃ s, readUntilHeaders reader [] = .ok (h, s) ∧ s.buf ++ s.reader.stream = stream ∧
      h ≤ s.buf.length ∧ s.buf.length ≤ maxHeaderBytes ∧ s.reader.ending = reader.ending ∧
      Extra s := by
  refine headerLoop.run_rule
    (fun s => s.buf ++ s.reader.stream = stream ∧ s.buf.length ≤ maxHeaderBytes ∧
      s.reader.ending = reader.ending ∧ Extra s)
    (fun res => ∃ s, res = .ok (h, s) ∧ s.buf ++ s.reader.stream = stream ∧ h ≤ s.buf.length ∧
      s.buf.length ≤ maxHeaderBytes ∧ s.reader.ending = reader.ending ∧ Extra s)
    ?_ ?_ ?_ ⟨hstream, Nat.zero_le _, rfl, hextra⟩
  · rintro s s' ⟨hbytes, hmax, hending, hs⟩ hturn
    obtain ⟨hnone, hlt, chunk, hbuf, hgives⟩ := headerTurn_again hturn
    have hchunk := hgives.length_le
    have hshort : s.buf.length < h := by
      by_contra hlong
      rw [← hbytes] at hend
      rw [headerEnd_of_append hend (Nat.le_of_not_lt hlong)] at hnone
      cases hnone
    refine ⟨?_, ?_, hgives.ending_eq.trans hending, hstep s s' chunk hbytes hshort hs hgives hbuf⟩
    · rw [hbuf, List.append_assoc, ← hgives.stream_eq, hbytes]
    · rw [hbuf, List.length_append]
      omega
  · rintro s ⟨pos, s'⟩ ⟨hbytes, hmax, hending, hs⟩ hturn
    obtain ⟨hpos, rfl⟩ := headerTurn_done hturn
    have hsame := headerEnd_append hpos s'.reader.stream
    rw [hbytes, hend] at hsame
    cases hsame
    exact ⟨s', rfl, hbytes, headerEnd_le hpos, hmax, hending, hs⟩
  · rintro s e ⟨hbytes, hmax, _, _⟩ hturn
    obtain ⟨hnone, hwhy, _⟩ := headerTurn_error hturn
    have hfound : h ≤ s.buf.length → headerEnd s.buf = some h := fun hlong =>
      headerEnd_of_append (by rw [hbytes]; exact hend) hlong
    have hall : h ≤ s.buf.length := by
      rcases hwhy with hlimit | hnil
      · omega
      · rw [hnil, List.append_nil] at hbytes
        rw [hbytes]
        exact headerEnd_le hend
    rw [hfound hall] at hnone
    cases hnone

/-- Without headers within `MAX_HEADER_BYTES` the response is refused. -/
theorem readUntilHeaders_refuses {reader : Reader} (hending : reader.ending = .eof)
    (hnone : ∀ h, headerEnd reader.stream = some h → maxHeaderBytes < h) :
    ∃ m, readUntilHeaders reader [] = .error (.failed m) := by
  refine headerLoop.run_rule
    (fun s => s.buf ++ s.reader.stream = reader.stream ∧ s.buf.length ≤ maxHeaderBytes ∧
      s.reader.ending = .eof)
    (fun res => ∃ m, res = .error (.failed m)) ?_ ?_ ?_ ⟨rfl, Nat.zero_le _, hending⟩
  · rintro s s' ⟨hbytes, _, hs⟩ hturn
    obtain ⟨_, hlt, chunk, hbuf, hgives⟩ := headerTurn_again hturn
    have hchunk := hgives.length_le
    refine ⟨?_, ?_, hgives.ending_eq.trans hs⟩
    · rw [hbuf, List.append_assoc, ← hgives.stream_eq, hbytes]
    · rw [hbuf, List.length_append]
      omega
  · rintro s ⟨pos, s'⟩ ⟨hbytes, hmax, _⟩ hturn
    obtain ⟨hpos, rfl⟩ := headerTurn_done hturn
    have hle := headerEnd_le hpos
    have hsame := headerEnd_append hpos s'.reader.stream
    rw [hbytes] at hsame
    have hover := hnone pos hsame
    omega
  · rintro s e ⟨_, _, hs⟩ hturn
    obtain ⟨m, rfl⟩ := (headerTurn_error hturn).2.2 hs
    exact ⟨m, rfl⟩

end Headers

/-! ## The body -/

section Body

variable {reader : Reader} {init : Bytes}

theorem BodyStep.ending_eq {s s' : BodyState} (h : BodyStep w s s') :
    s'.reader.ending = s.reader.ending := by
  cases h with
  | read _ hgives _ => exact hgives.ending_eq
  | _ => rfl

/-- At the end of the stream a body reader fails with an error. -/
theorem bodyLoop_failed {s : BodyState} (hs : BodyBounds s) (hending : s.reader.ending = .eof)
    {e : Halt} (h : (bodyLoop w).run s = .error e) : ∃ m, e = .failed m := by
  have hrun := Loop.run_rule (l := bodyLoop w)
    (fun s => BodyBounds s ∧ s.reader.ending = .eof)
    (fun res => ∀ e, res = .error e → ∃ m, e = .failed m)
    (fun s s' hs hturn => ⟨(bodyTurn_again hturn).bounds hs.1,
      (bodyTurn_again hturn).ending_eq.trans hs.2⟩)
    (fun s b _ _ => nofun)
    (fun s e hs hturn e' he => by
      cases he
      exact (bodyTurn_error hs.1.fits hturn).2.2 hs.2) ⟨hs, hending⟩
  exact hrun e h

/-- **A body of a declared length** is read if it is within `MAX_BODY_BYTES` and arrives whole. -/
theorem readContentLengthBody_spec (len : ℕ) (b : Bytes) :
    readContentLengthBody w reader init len = .ok b ↔
      len ≤ maxBodyBytes ∧ len ≤ (init ++ reader.stream).length ∧
        b = (init ++ reader.stream).take len := by
  unfold readContentLengthBody
  split_ifs with hmax
  · exact ⟨nofun, fun h => absurd h.1 (by omega)⟩
  have hrun := Loop.run_rule (l := bodyLoop w)
    (fun s => s.head = .contentLength len ∧ s.body ++ s.reader.stream = init ++ reader.stream)
    (fun res => (res = .ok ((init ++ reader.stream).take len) ∧
      len ≤ (init ++ reader.stream).length) ∨
      (∃ e, res = .error e) ∧ (init ++ reader.stream).length < len)
    ?_ ?_ ?_ (⟨rfl, rfl⟩ : BodyState.head ⟨reader, init, .contentLength len⟩ = _ ∧ _)
  · rcases hrun with ⟨hok, hlen⟩ | ⟨⟨e, he⟩, hlen⟩
    · rw [hok]
      exact ⟨fun h => ⟨by omega, hlen, (Except.ok.inj h).symm⟩, fun h => by rw [h.2.2]⟩
    · rw [he]
      exact ⟨nofun, fun h => absurd h.2.1 (by omega)⟩
  · rintro s s' ⟨hhead, hbytes⟩ hturn
    have hstep := bodyTurn_again hturn
    refine ⟨?_, hstep.bytes_eq.trans hbytes⟩
    cases hstep <;> first | exact hhead | cases hhead
  · rintro s b' ⟨hhead, hbytes⟩ hturn
    cases bodyTurn_done hturn with
    | contentLength hle =>
      cases hhead
      refine .inl ⟨?_, ?_⟩
      · rw [← hbytes, List.take_append_of_le_length hle]
      · rw [← hbytes, List.length_append]
        exact Nat.le_trans hle (Nat.le_add_right _ _)
    | blankLine _ _ => cases hhead
    | eof _ _ _ => cases hhead
  · rintro s e ⟨hhead, hbytes⟩ hturn
    refine .inr ⟨⟨e, rfl⟩, ?_⟩
    have hfails := (bodyTurn_error (by rw [hhead]; trivial) hturn).1
    cases hfails with
    | @read r body head _ hwaits hwhy =>
      cases hhead
      have hshort : body.length < len := hwaits
      have hstream : r.stream = [] := by
        refine hwhy.resolve_left fun hlimit => ?_
        have hlen : len ≤ body.length := hlimit
        omega
      rw [← hbytes, hstream, List.append_nil]
      exact hshort
    | _ => cases hhead

/-- **A body up to the end of the stream** is read if it is within `MAX_BODY_BYTES`. -/
theorem readUntilEofLimited_spec (hending : reader.ending = .eof) (b : Bytes) :
    readUntilEofLimited w reader init = .ok b ↔
      (init ++ reader.stream).length ≤ maxBodyBytes ∧ b = init ++ reader.stream := by
  have hrun := Loop.run_rule (l := bodyLoop w)
    (fun s => s.head = .untilEof ∧ s.body ++ s.reader.stream = init ++ reader.stream ∧
      s.reader.ending = .eof)
    (fun res => (res = .ok (init ++ reader.stream) ∧
      (init ++ reader.stream).length ≤ maxBodyBytes) ∨
      (∃ e, res = .error e) ∧ maxBodyBytes < (init ++ reader.stream).length)
    ?_ ?_ ?_ (⟨rfl, rfl, hending⟩ : BodyState.head ⟨reader, init, .untilEof⟩ = _ ∧ _)
  · unfold readUntilEofLimited
    rcases hrun with ⟨hok, hlen⟩ | ⟨⟨e, he⟩, hlen⟩
    · rw [hok]
      exact ⟨fun h => ⟨hlen, (Except.ok.inj h).symm⟩, fun h => by rw [h.2]⟩
    · rw [he]
      exact ⟨nofun, fun h => absurd h.1 (by omega)⟩
  · rintro s s' ⟨hhead, hbytes, hs⟩ hturn
    have hstep := bodyTurn_again hturn
    refine ⟨?_, hstep.bytes_eq.trans hbytes, hstep.ending_eq.trans hs⟩
    cases hstep <;> first | exact hhead | cases hhead
  · rintro s b' ⟨hhead, hbytes, _⟩ hturn
    cases bodyTurn_done hturn with
    | contentLength hle => cases hhead
    | blankLine _ _ => cases hhead
    | eof hle hstream _ =>
      dsimp only at hbytes
      rw [hstream, List.append_nil] at hbytes
      exact .inl ⟨by rw [hbytes], hbytes ▸ hle⟩
  · rintro s e ⟨hhead, hbytes, hs⟩ hturn
    refine .inr ⟨⟨e, rfl⟩, ?_⟩
    have hfails := (bodyTurn_error (by rw [hhead]; trivial) hturn).1
    cases hfails with
    | read hne _ _ => exact absurd hhead hne
    | untilEofRead _ hne => exact absurd hs hne
    | untilEofLimit hlong =>
      rw [← hbytes, List.length_append]
      exact hlong
    | _ => cases hhead

end Body

end TgWsProxy
