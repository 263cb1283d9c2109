import TgWsProxy.Outbound.Phases

set_option relaxedAutoImplicit false
set_option autoImplicit false

/-!
# What a failed dial says

The Cloudflare connectors take a name for missing from DNS if the text of the failure says so. The
text comes a long way: from the resolver through the connector, the proxy, TLS or HTTP. This module
traces it back.

## Main definitions

* `TgWsProxy.PlainTexts` — what the texts of the WebSocket library do not look like.

## Main results

* `TgWsProxy.dial_notFound` — a name that is reported missing was looked up here, for a connection
  past the proxy.
-/

namespace TgWsProxy

open Process NetProg Text

/-- The start of the texts of `connect_tcp`. -/
def tcpPrefix : Host := "TCP connect:".toList

/-- The texts of `tungstenite::Error` start with the kind of the error, never as those of
`connect_tcp` do. -/
def PlainTexts (net : Network NetOp NetOp.Resp) : Prop :=
  (∀ before tls request text,
    (net before (.clientAsync tls request)).1 = .error (.other text) → ¬ tcpPrefix <+: text) ∧
  ∀ before stream request skipVerify text,
    (net before (.clientAsyncTls stream request skipVerify)).1 = .error (.other text) →
      ¬ tcpPrefix <+: text

theorem tcpPrefix_of_isDnsNotFound {reason : Host} (h : isDnsNotFound reason = true) :
    tcpPrefix <+: reason := by
  unfold isDnsNotFound at h
  rw [Bool.and_eq_true] at h
  exact List.isPrefixOf_iff_prefix.mp h.1

/-- Two prefixes of a text agree where they both reach. -/
theorem not_tcpPrefix_of_ne {c : Char} {rest : Host} (h : c ≠ 'T') : ¬ tcpPrefix <+: c :: rest := by
  rintro ⟨t, ht⟩
  have hhead : some 'T' = some c := congrArg List.head? ht
  exact h (Option.some.inj hhead).symm

variable {crates : ClientCrates} {c : OutboundConnector} {net : Network NetOp NetOp.Resp}
  {before now : List NetOp} {r : DialRequest} {reason : Host}

theorem answer_connectTcp (host : Host) (port : ℕ) :
    answer net before (connectTcp host port) =
      (net before (.tcpConnect (authority host port))).1.mapError
        fun e => "TCP connect: ".toList ++ e := by
  unfold connectTcp tcpConnect
  simp only [Prog.perform_bind, answer]
  cases (net before (.tcpConnect (authority host port))).1 <;> rfl

/-- The texts of a proxy connection start with the kind of the proxy. -/
theorem answer_connectViaProxy {proxy : ProxyConfig} {host : Host} {port : ℕ}
    (h : answer net before (connectViaProxy crates.toAddressCrates proxy host port) =
      .error reason) : ¬ tcpPrefix <+: reason := by
  have hnamed : ∀ (name : Host) (answer : Except Host ℕ),
      viaProxy name proxy answer = .error reason →
      ∃ rest, reason = name ++ rest := by
    intro name answer hanswer
    cases answer with
    | ok stream => cases hanswer
    | error e =>
      simp only [viaProxy, Except.mapError, Except.error.injEq] at hanswer
      exact ⟨_, by rw [← hanswer, List.append_assoc, List.append_assoc, List.append_assoc]⟩
  unfold connectViaProxy at h
  cases hkind : proxy.kind with
  | http =>
    simp only [hkind] at h
    obtain ⟨rest, rfl⟩ := hnamed _ _ ((answer_map before).symm.trans h)
    exact not_tcpPrefix_of_ne (by decide)
  | socks5 remoteDns =>
    simp only [hkind] at h
    obtain ⟨rest, rfl⟩ := hnamed _ _ ((answer_map before).symm.trans h)
    exact not_tcpPrefix_of_ne (by decide)

/-- The texts of the second phase are those of the WebSocket library. -/
theorem answer_handshake (hplain : PlainTexts net) {stream : ℕ} {text : Host}
    (h : answer net now (handshake crates r stream) = .error (.other text)) :
    ¬ tcpPrefix <+: text := by
  unfold handshake tlsHandshakeAndUpgrade at h
  cases hsni : r.sniOverride with
  | some sni =>
    simp only [hsni] at h
    split_ifs at h
    · have htext : text = "URL error: No host name in the URL".toList := by
        cases h
        rfl
      rw [htext]
      exact not_tcpPrefix_of_ne (by decide)
    · simp only [tlsConnect, Prog.perform_bind, answer] at h
      cases htls : (net now (.tlsConnect stream sni)).1 with
      | error e =>
        simp only [htls, answer, Prog.pure_eq] at h
        have htext : text = "IO error: ".toList ++ e := by
          cases h
          rfl
        rw [htext]
        exact not_tcpPrefix_of_ne (by decide)
      | ok tls =>
        simp only [htls] at h
        exact hplain.1 _ tls _ text h
  | none =>
    simp only [hsni] at h
    exact hplain.2 now stream _ _ text h

/-- The texts that are made of a response do not speak of TCP. -/
theorem handshakeResult_failed {x : Option (Except WsError (ℕ × ℕ))}
    (h : handshakeResult r x = .failed reason) :
    ¬ tcpPrefix <+: reason ∨ x = some (.error (.other reason)) := by
  unfold handshakeResult at h
  split at h
  · cases h
  · split_ifs at h
    cases h
    exact .inl (not_tcpPrefix_of_ne (by decide))
  · split_ifs at h
    cases h
    exact .inl (not_tcpPrefix_of_ne (by decide))
  · cases h
    exact .inr rfl

/-- **Missing names.** A dial fails for a name that is not in DNS exactly if its connection goes
past the proxy and the TCP connect fails, in time, with a resolver's message. Nothing that a proxy,
TLS or an HTTP server says is taken for it.

**Proof sketch.** The text has to start as those of `connect_tcp` do. A proxy puts its own kind in
front, and the library the kind of its error. -/
theorem dial_notFound (net : Network NetOp NetOp.Resp) (crates : ClientCrates)
    (c : OutboundConnector) (r : DialRequest) (before : List NetOp) (reason : Host)
    (hplain : PlainTexts net) :
    (connectWsWithPath net crates c r before).value = .failed reason ∧
        isDnsNotFound reason = true ↔
      c.Direct crates r.host 443 ∧
        (net before (.tcpConnect (authority r.host 443))).2 ≤ r.timeout ∧
        ∃ e, (net before (.tcpConnect (authority r.host 443))).1 = .error e ∧
          reason = "TCP connect: ".toList ++ e ∧ isDnsNotFound reason = true := by
  have hcases : DialCases net crates c r before (connectWsWithPath net crates c r before) :=
    connectWsWithPath_cases
  have htime : ∀ host port, duration net before (connectTcp host port) =
      (net before (.tcpConnect (authority host port))).2 := by
    intro host port
    unfold connectTcp tcpConnect
    rw [Prog.perform_bind, duration_act]
    cases (net before (.tcpConnect (authority host port))).1 <;> rfl
  constructor
  · rintro ⟨hvalue, hdns⟩
    have hprefix := tcpPrefix_of_isDnsNotFound hdns
    generalize connectWsWithPath net crates c r before = out at hcases hvalue
    cases hcases with
    | late => cases hvalue
    | badUrl =>
      cases hvalue
      exact absurd hprefix (not_tcpPrefix_of_ne (by decide))
    | shaken =>
      rcases handshakeResult_failed hvalue with hother | hother
      · exact absurd hprefix hother
      · exact absurd hprefix (answer_handshake hplain (timeout_eq_some_iff.mp hother).2)
    | @refused reason' hin hanswer =>
      cases hvalue
      by_cases hdirect : c.Direct crates r.host 443
      · rw [OutboundConnector.opening_of_direct hdirect, htime] at hin
        rw [OutboundConnector.opening_of_direct hdirect, answer_connectTcp] at hanswer
        cases hconnect : (net before (.tcpConnect (authority r.host 443))).1 with
        | ok stream => simp [hconnect, Except.mapError] at hanswer
        | error e =>
          simp only [hconnect, Except.mapError, Except.error.injEq] at hanswer
          exact ⟨hdirect, hin, e, rfl, hanswer.symm, hdns⟩
      · obtain ⟨proxy, -, heq⟩ := OutboundConnector.exists_proxy hdirect
        rw [heq] at hanswer
        exact absurd hprefix (answer_connectViaProxy hanswer)
  · rintro ⟨hdirect, hin, e, hconnect, rfl, hdns⟩
    refine ⟨?_, hdns⟩
    have hanswer : answer net before (c.opening crates r.host 443) =
        .error ("TCP connect: ".toList ++ e) := by
      rw [OutboundConnector.opening_of_direct hdirect, answer_connectTcp, hconnect]
      rfl
    have hduration : duration net before (c.opening crates r.host 443) ≤ r.timeout := by
      rw [OutboundConnector.opening_of_direct hdirect, htime]
      exact hin
    generalize connectWsWithPath net crates c r before = out at hcases
    cases hcases with
    | late hlate => omega
    | refused _ hanswer' =>
      rw [hanswer] at hanswer'
      cases hanswer'
      rfl
    | badUrl hopens =>
      rw [hopens.2.1] at hanswer
      cases hanswer
    | shaken hopens =>
      rw [hopens.2.1] at hanswer
      cases hanswer

/-- A host whose resolver finds no name; nothing else is asked of it here. -/
def noNames : Network NetOp NetOp.Resp
  | _, .tcpConnect _ =>
    (Except.error "failed to lookup address information: Name or service not known".toList, 1)
  | _, .lookupHost .. =>
    (Except.error "failed to lookup address information: Name or service not known".toList, 1)
  | _, .httpConnect .. => (Except.error "unexpected end of file".toList, 1)
  | _, .socks5Connect .. => (Except.error "Connection refused".toList, 1)
  | _, .tlsConnect .. => (Except.error "unexpected end of file".toList, 1)
  | _, .clientAsync .. => (Except.error (.other "IO error: unexpected end of file".toList), 1)
  | _, .clientAsyncTls .. => (Except.error (.other "IO error: unexpected end of file".toList), 1)

/-- Crates that accept every name and URL, and nothing as an address. -/
def sampleCrates : ClientCrates where
  parseUrl _ := none
  percentDecode := asBytes
  isIpNet _ := false
  isIpv6Addr _ := false
  parseIpAddr _ := none
  noProxyMatches _ _ := false
  isServerName _ := true
  requestError _ := none

/-- `OutboundConnector::direct`. -/
def OutboundConnector.direct : OutboundConnector := ⟨⟨none, none⟩⟩

theorem noNames_plain : PlainTexts noNames := by
  constructor
  · intro before tls request text h
    cases h
    exact not_tcpPrefix_of_ne (by decide)
  · intro before stream request skipVerify text h
    cases h
    exact not_tcpPrefix_of_ne (by decide)

/-- A `-1` record that the zone does not have. -/
theorem dial_notFound_missing :
    (connectWsWithPath noNames sampleCrates OutboundConnector.direct
        (apiwsRequest "kws2-1.example.dev".toList "kws2-1.example.dev".toList false 10 none)
        []).value = .failed ("TCP connect: failed to lookup address information: " ++
          "Name or service not known").toList ∧
      isDnsNotFound ("TCP connect: failed to lookup address information: " ++
        "Name or service not known").toList = true := by
  apply (dial_notFound noNames sampleCrates OutboundConnector.direct _ [] _ noNames_plain).mpr
  exact ⟨.inl rfl, by decide, _, rfl, rfl, rfl⟩

end TgWsProxy
