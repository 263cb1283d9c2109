import TgWsProxy.FakeTls.Layout

set_option relaxedAutoImplicit false
set_option autoImplicit false

/-!
# Parsing a ClientHello from a hostile client

`parse_faketls_client_hello` and `parse_sni_extension` once more, access by access: an index or a
slice out of range stops the program. The guards of the source keep every access in range, so this
is the parser of `Inbound`.

## Main definitions

* `TgWsProxy.sniTurn`, `parseSniExtensionChecked` — `parse_sni_extension`.
* `TgWsProxy.parseHelloBodyChecked`, `parseFaketlsClientHelloChecked` —
  `parse_faketls_client_hello`.
* `TgWsProxy.AcceptedHello` — what an accepted ClientHello has been checked for.

## Main results

* `TgWsProxy.parseSniExtensionChecked_eq`, `parseHelloBodyChecked_eq` — no access is out of range.
* `TgWsProxy.clientHello_parse_safe` — the parser is safe on every input, and what it accepts is
  authenticated and well formed.
-/

namespace TgWsProxy

open Slices

/-- `u16::from_be_bytes([bytes[i], bytes[i + 1]])`. -/
def u16Checked (bytes : Bytes) (i : ℕ) : Except Panic ℕ := do
  return fromBeBytes (← index bytes i) (← index bytes (i + 1))

theorem u16Checked_eq {bytes : Bytes} {i : ℕ} (h : i + 2 ≤ bytes.length) :
    u16Checked bytes i = .ok (u16At bytes i) := by
  rw [u16Checked, index_eq (by omega) 0, index_eq (by omega) 0]
  rfl

/-! ## The server name -/

/-- How a turn of the loop of `parse_sni_extension` ends: with a result or with another turn. -/
inductive SniTurn
  | done (host : Option Host)
  | again (extensions : Bytes)

/-- One turn: the next extension. -/
def sniTurn (extensions : Bytes) : Except Panic SniTurn :=
  if extensions.length < 4 then return .done none
  else do
    let extType ← u16Checked extensions 0
    let extLen ← u16Checked extensions 2
    let extensions ← range extensions 4 extensions.length
    if extensions.length < extLen then return .done none
    else
      let ext ← range extensions 0 extLen
      let extensions ← range extensions extLen extensions.length
      if extType ≠ 0 ∨ ext.length < 5 then return .again extensions
      else
        let listLen ← u16Checked ext 0
        if ext.length < 2 + listLen ∨ listLen < 3 then return .done none
        else if (← index ext 2) ≠ 0 then return .done none
        else
          let hostLen ← u16Checked ext 3
          if ext.length < 5 + hostLen then return .done none
          else return .done (fromUtf8 (← range ext 5 (5 + hostLen)))

/-- A turn is what the parser does first. -/
def SniTurn.Begins (extensions : Bytes) : SniTurn → Prop
  | .done host => parseSniExtension extensions = host
  | .again rest =>
    parseSniExtension extensions = parseSniExtension rest ∧ rest.length < extensions.length

/-- A turn makes no access out of range, and does what the parser does. -/
theorem sniTurn_eq (extensions : Bytes) :
    ∃ turn : SniTurn, sniTurn extensions = .ok turn ∧ turn.Begins extensions := by
  rw [sniTurn]
  by_cases hshort : extensions.length < 4
  · refine ⟨.done none, by rw [if_pos hshort]; rfl, ?_⟩
    rw [SniTurn.Begins, parseSniExtension, dif_pos hshort]
  rw [if_neg hshort, u16Checked_eq (by omega), u16Checked_eq (by omega), range_from_eq (by omega)]
  simp only [ok_bind]
  have hparse := parseSniExtension.eq_def extensions
  rw [dif_neg hshort] at hparse
  set rest := extensions.drop 4
  set extLen := u16At extensions 2
  by_cases hcut : rest.length < extLen
  · rw [if_pos hcut] at hparse ⊢
    exact ⟨.done none, rfl, hparse⟩
  rw [if_neg hcut] at hparse ⊢
  rw [range_to_eq (by omega), range_from_eq (by omega)]
  simp only [ok_bind]
  set ext := rest.take extLen
  by_cases hskip : u16At extensions 0 ≠ 0 ∨ ext.length < 5
  · rw [if_pos hskip] at hparse ⊢
    refine ⟨.again (rest.drop extLen), rfl, hparse, ?_⟩
    simp only [rest, List.length_drop]
    omega
  rw [if_neg hskip] at hparse ⊢
  obtain ⟨-, hlong⟩ := not_or.mp hskip
  rw [u16Checked_eq (by omega), index_eq (by omega) 0, u16Checked_eq (by omega)]
  simp only [ok_bind]
  by_cases hlist : ext.length < 2 + u16At ext 0 ∨ u16At ext 0 < 3
  · rw [if_pos (by tauto)] at hparse
    rw [if_pos hlist]
    exact ⟨.done none, rfl, hparse⟩
  rw [if_neg hlist]
  by_cases hkind : ext.getD 2 0 ≠ 0
  · rw [if_pos (by tauto)] at hparse
    rw [if_pos hkind]
    exact ⟨.done none, rfl, hparse⟩
  have hentry : ¬ (ext.length < 2 + u16At ext 0 ∨ u16At ext 0 < 3 ∨ ext.getD 2 0 ≠ 0) := by tauto
  rw [if_neg hentry] at hparse
  rw [if_neg hkind]
  by_cases hname : ext.length < 5 + u16At ext 3
  · rw [if_pos hname] at hparse ⊢
    exact ⟨.done none, rfl, hparse⟩
  rw [if_neg hname] at hparse ⊢
  rw [range_eq (by omega) (by omega), Nat.add_sub_cancel_left]
  exact ⟨.done _, rfl, hparse⟩

theorem SniTurn.begins_of_eq {extensions : Bytes} {turn : SniTurn}
    (h : sniTurn extensions = .ok turn) : turn.Begins extensions := by
  obtain ⟨turn', hturn, hbegins⟩ := sniTurn_eq extensions
  rw [h] at hturn
  cases hturn
  exact hbegins

/-- `parse_sni_extension`, with checked accesses. -/
def parseSniExtensionChecked (extensions : Bytes) : Except Panic (Option Host) :=
  match _hturn : sniTurn extensions with
  | .error panic => .error panic
  | .ok (.done host) => .ok host
  | .ok (.again rest) => parseSniExtensionChecked rest
termination_by extensions.length
decreasing_by exact (SniTurn.begins_of_eq _hturn).2

/-- No access of `parse_sni_extension` is out of range. -/
theorem parseSniExtensionChecked_eq (extensions : Bytes) :
    parseSniExtensionChecked extensions = .ok (parseSniExtension extensions) := by
  fun_induction parseSniExtensionChecked extensions with
  | case1 extensions panic hturn =>
    obtain ⟨turn, hok, -⟩ := sniTurn_eq extensions
    rw [hturn] at hok
    cases hok
  | case2 extensions host hturn => rw [SniTurn.begins_of_eq hturn]
  | case3 extensions rest hturn ih => rw [ih, (SniTurn.begins_of_eq hturn).1]

/-! ## The body -/

/-- The part of `parse_faketls_client_hello` behind the digest, with checked accesses. -/
def parseHelloBodyChecked (random body : Bytes) : Except Panic (Option FakeTlsClientHello) :=
  if body.length < 2 + 32 + 1 then return none
  else do
    let sessionIdLen ← index body 34
    let sessionStart := 35
    let sessionEnd := sessionStart + sessionIdLen.toNat
    if body.length < sessionEnd + 2 then return none
    else
      let sessionId ← range body sessionStart sessionEnd
      let cipherSuitesLen ← u16Checked body sessionEnd
      if cipherSuitesLen < 2 ∨ body.length < sessionEnd + 2 + cipherSuitesLen + 1 then return none
      else
        let cipherSuite := [← index body (sessionEnd + 2), ← index body (sessionEnd + 3)]
        let p := sessionEnd + 2 + cipherSuitesLen
        match body[p]? with
        | none => return none
        | some compressionLen =>
          let p := p + 1 + compressionLen.toNat
          if body.length < p + 2 then return none
          else
            let extensionsLen ← u16Checked body p
            let p := p + 2
            if body.length < p + extensionsLen then return none
            else
              let hostname ← parseSniExtensionChecked (← range body p (p + extensionsLen))
              return some { random, sessionId, cipherSuite, hostname }

/-- No access to the body is out of range. -/
theorem parseHelloBodyChecked_eq (random body : Bytes) :
    parseHelloBodyChecked random body = .ok (parseHelloBody random body) := by
  rw [parseHelloBodyChecked, parseHelloBody]
  by_cases hshort : body.length < 2 + 32 + 1
  · rw [if_pos hshort, if_pos hshort]
    rfl
  rw [if_neg hshort, if_neg hshort, index_eq (by omega) 0]
  simp only [ok_bind]
  set sessionEnd := 35 + (body.getD 34 0).toNat
  by_cases hsession : body.length < sessionEnd + 2
  · rw [if_pos hsession, if_pos hsession]
    rfl
  rw [if_neg hsession, if_neg hsession, range_eq (by omega) (by omega), u16Checked_eq (by omega)]
  simp only [ok_bind]
  set n := u16At body sessionEnd
  by_cases hsuites : n < 2 ∨ body.length < sessionEnd + 2 + n + 1
  · rw [if_pos hsuites, if_pos hsuites]
    rfl
  rw [if_neg hsuites, if_neg hsuites, index_eq (by omega) 0, index_eq (by omega) 0]
  simp only [ok_bind]
  -- the two bytes of the first suite
  have hsuite : [body.getD (sessionEnd + 2) 0, body.getD (sessionEnd + 3) 0] =
      (body.drop (sessionEnd + 2)).take 2 := by
    rw [drop_eq_getD_cons (by omega) 0, drop_eq_getD_cons (show _ < body.length by omega) 0]
    rfl
  rw [hsuite]
  cases hcomp : body[sessionEnd + 2 + n]? with
  | none => rfl
  | some compressionLen =>
    simp only [Option.bind_eq_bind, Option.bind_some]
    set p := sessionEnd + 2 + n + 1 + compressionLen.toNat
    by_cases hcompression : body.length < p + 2
    · rw [if_pos hcompression, if_pos hcompression]
      rfl
    rw [if_neg hcompression, if_neg hcompression, u16Checked_eq (by omega)]
    simp only [ok_bind]
    by_cases hextensions : body.length < p + 2 + u16At body p
    · rw [if_pos hextensions, if_pos hextensions]
      rfl
    rw [if_neg hextensions, if_neg hextensions, range_eq (by omega) (by omega), ok_bind,
      parseSniExtensionChecked_eq, Nat.add_sub_cancel_left]
    rfl

/-! ## The record -/

/-- `parse_faketls_client_hello`, with checked accesses. -/
def parseFaketlsClientHelloChecked (hmac : Hmac) (record secret : Bytes) :
    Except Panic (Option FakeTlsClientHello) :=
  if record.length < 5 + 4 + tlsClientRandomOffsetInHandshake + tlsDigestLen then return none
  else do
    if (← index record 0) ≠ tlsRecordHandshake then return none
    else
      let recordLen ← u16Checked record 3
      if record.length ≠ 5 + recordLen then return none
      else
        let handshake ← range record 5 record.length
        if handshake.length < 4 then return none
        else if (← index handshake 0) ≠ tlsHandshakeClientHello then return none
        else
          let handshakeLen := 65536 * (← index handshake 1).toNat + (← u16Checked handshake 2)
          if handshake.length ≠ 4 + handshakeLen then return none
          else
            let randomOffset := 5 + tlsClientRandomOffsetInHandshake
            let clientRandom ← copy tlsDigestLen
              (← range record randomOffset (randomOffset + tlsDigestLen))
            let signed ← fill record randomOffset (randomOffset + tlsDigestLen) 0
            let computed := (hmac secret signed).bytes
            let xored ← (List.range tlsDigestLen).mapM fun i => do
              return (← index computed i) ^^^ (← index clientRandom i)
            if (← range xored 0 28).any (· != 0) then return none
            else parseHelloBodyChecked clientRandom (← range handshake 4 handshake.length)

/-- The loop that compares the digests. -/
theorem mapM_index_xor {a b : Bytes} {n : ℕ} (ha : a.length = n) (hb : b.length = n) :
    ((List.range n).mapM fun i => do return (← index a i) ^^^ (← index b i)) =
      .ok (List.zipWith (· ^^^ ·) a b) := by
  have hturn : ∀ i ∈ List.range n, (do return (← index a i) ^^^ (← index b i)) =
      (.ok (a.getD i 0 ^^^ b.getD i 0) : Except Panic UInt8) := by
    intro i hi
    have hlt := List.mem_range.mp hi
    rw [index_eq (by omega) 0, index_eq (by omega) 0]
    rfl
  rw [mapM_ok hturn]
  congr 1
  apply List.ext_getElem
  · simp [ha, hb]
  · intro i hi _
    have hlt : i < n := by simpa using hi
    simp [List.getD_eq_getElem?_getD, ha, hb, hlt]

/-- No access to the record is out of range. -/
theorem parseFaketlsClientHelloChecked_eq (hmac : Hmac) (record secret : Bytes) :
    parseFaketlsClientHelloChecked hmac record secret =
      .ok (parseFaketlsClientHello hmac record secret) := by
  rw [parseFaketlsClientHelloChecked, parseFaketlsClientHello]
  by_cases hshort : record.length < 5 + 4 + tlsClientRandomOffsetInHandshake + tlsDigestLen
  · rw [if_pos hshort, if_pos hshort]
    rfl
  have hlen : 47 ≤ record.length := Nat.le_of_not_lt hshort
  rw [if_neg hshort, if_neg hshort, index_eq (by omega) 0, ok_bind]
  by_cases htype : record.getD 0 0 ≠ tlsRecordHandshake
  · rw [if_pos htype, if_pos htype]
    rfl
  rw [if_neg htype, if_neg htype, u16Checked_eq (by omega), ok_bind]
  by_cases hrecord : record.length ≠ 5 + u16At record 3
  · rw [if_pos hrecord, if_pos hrecord]
    rfl
  rw [if_neg hrecord, if_neg hrecord, range_from_eq (by omega), ok_bind]
  dsimp only
  have hhandshake : (record.drop 5).length = record.length - 5 := List.length_drop
  set handshake := record.drop 5
  have hfour : ¬ handshake.length < 4 := by omega
  rw [if_neg hfour, index_eq (by omega) 0, ok_bind]
  by_cases hkind : handshake.getD 0 0 ≠ tlsHandshakeClientHello
  · rw [if_pos hkind, if_pos (.inr hkind)]
    rfl
  rw [if_neg hkind, if_neg (by tauto), index_eq (by omega) 0, u16Checked_eq (by omega)]
  simp only [ok_bind]
  by_cases hlength : handshake.length ≠
      4 + (65536 * (handshake.getD 1 0).toNat + u16At handshake 2)
  · rw [if_pos hlength, if_pos hlength]
    rfl
  rw [if_neg hlength, if_neg hlength]
  have hfield : 5 + tlsClientRandomOffsetInHandshake + tlsDigestLen ≤ record.length := by
    change 43 ≤ record.length
    omega
  rw [range_eq (Nat.le_add_right _ _) hfield, ok_bind, Nat.add_sub_cancel_left]
  set randomOffset := 5 + tlsClientRandomOffsetInHandshake
  have hrandom : ((record.drop randomOffset).take tlsDigestLen).length = tlsDigestLen := by
    rw [List.length_take, List.length_drop]
    omega
  rw [copy_eq hrandom, ok_bind, fill_eq (Nat.le_add_right _ _) hfield, ok_bind,
    Nat.add_sub_cancel_left]
  set signed := record.take randomOffset ++ List.replicate tlsDigestLen 0 ++
    record.drop (randomOffset + tlsDigestLen)
  have hcomputed : (hmac secret signed).bytes.length = tlsDigestLen := Block.length_bytes _
  rw [mapM_index_xor hcomputed hrandom, ok_bind, range_to_eq, ok_bind]
  · by_cases hdigest : ((List.zipWith (· ^^^ ·) (hmac secret signed).bytes
        ((record.drop randomOffset).take tlsDigestLen)).take 28).any (· != 0) = true
    · rw [if_pos hdigest, if_pos hdigest]
      rfl
    · rw [if_neg hdigest, if_neg hdigest, range_from_eq (by omega), ok_bind,
        parseHelloBodyChecked_eq]
  · rw [List.length_zipWith, hcomputed, hrandom]
    decide

/-! ## What is accepted -/

/-- What an accepted ClientHello has been checked for: the lengths, the digest, and the layout of
the body. -/
structure AcceptedHello (hmac : Hmac) (record secret : Bytes) (hello : FakeTlsClientHello) :
    Prop where
  record_len : record.length = 5 + u16At record 3
  handshake_len : record.length = 9 + u24At record 6
  digest : (record.drop 11).take 28 = (hmac secret (zeroedRandom record)).bytes.take 28
  random : hello.random = (record.drop 11).take 32
  length_random : hello.random.length = 32
  layout : ∃ p : HelloParts, record.drop 9 = p.bytes ∧ hello.sessionId = p.sessionId ∧
    2 ≤ p.suites.length ∧ hello.cipherSuite = p.suites.take 2

theorem acceptedHello_of_parse {hmac : Hmac} {record secret : Bytes} {hello : FakeTlsClientHello}
    (h : parseFaketlsClientHello hmac record secret = some hello) :
    AcceptedHello hmac record secret hello := by
  rw [parseFaketlsClientHello_eq_some_iff] at h
  obtain ⟨hlen, -, hrecord, -, hhandshake, hdigest, hbody⟩ := h
  obtain ⟨p, hbytes, hsuites, hhello⟩ := parts_of_parseHelloBody hbody
  subst hhello
  refine ⟨hrecord, hhandshake, hdigest, rfl, ?_, p, hbytes, rfl, hsuites, rfl⟩
  rw [HelloParts.hello, List.length_take, List.length_drop]
  omega

/-- **A hostile ClientHello.** Whatever the record and the secret, no access of the parser is out
of range. It accepts a record only if both length fields match its length, the digest verifies,
and session id, cipher suites, compression methods and extensions lie one behind the other in the
body. -/
theorem clientHello_parse_safe (hmac : Hmac) (record secret : Bytes) :
    parseFaketlsClientHelloChecked hmac record secret =
        .ok (parseFaketlsClientHello hmac record secret) ∧
      ∀ hello, parseFaketlsClientHello hmac record secret = some hello →
        AcceptedHello hmac record secret hello :=
  ⟨parseFaketlsClientHelloChecked_eq hmac record secret, fun _ => acceptedHello_of_parse⟩

end TgWsProxy
