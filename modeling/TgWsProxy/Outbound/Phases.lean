import TgWsProxy.Outbound.Connector

set_option relaxedAutoImplicit false
set_option autoImplicit false

/-!
# The two phases of a dial

A dial opens a stream and then does a handshake over it, each phase with the time limit of the
request. What the routing ladder is told depends on which of them it was that took too long, and
what goes out depends on the outbound settings.

## Main definitions

* `TgWsProxy.OutboundConnector.opening`, `Opens` — the first phase, and that it ends well.
* `TgWsProxy.NetOp.Reaches`, `Permitted` — what a connect and a dial may ask of the network.
* `TgWsProxy.DialBehaves` — what holds of a dial on any network.

## Main results

* `TgWsProxy.connect_started` — nothing goes past the proxy.
* `TgWsProxy.connectWsWithPath_cases` — the ways a dial can go.
* `TgWsProxy.dial_behaves` — where a dial goes, how long it takes and what its outcome means.
-/

namespace TgWsProxy

open Process NetProg

variable (crates : ClientCrates) (c : OutboundConnector)

/-! ## Phases -/

/-- A connection that does not use the proxy: there is none, or the target is an exception. -/
def OutboundConnector.Direct (host : Host) (port : ℕ) : Prop :=
  c.config.proxy = none ∨ c.shouldBypass crates.toAddressCrates host port = true

instance (host : Host) (port : ℕ) : Decidable (c.Direct crates host port) :=
  inferInstanceAs (Decidable (_ ∨ _))

/-- The program that `connect` runs against the clock. -/
def OutboundConnector.opening (host : Host) (port : ℕ) : NetProg (Except Host ℕ) :=
  match c.config.proxy with
  | none => connectTcp host port
  | some proxy =>
    if c.shouldBypass crates.toAddressCrates host port then connectTcp host port
    else connectViaProxy crates.toAddressCrates proxy host port

/-- What `connect` reports when the program is cut off. -/
def OutboundConnector.lateText (host : Host) (port : ℕ) : Host :=
  match c.config.proxy with
  | none => "TCP connect timed out".toList
  | some proxy =>
    if c.shouldBypass crates.toAddressCrates host port then "TCP connect timed out".toList
    else "proxy ".toList ++ proxy.summary ++ " handshake timed out".toList

/-- `tls_handshake_and_upgrade` for a dial. -/
def handshake (r : DialRequest) (stream : ℕ) : NetProg (Except WsError (ℕ × ℕ)) :=
  tlsHandshakeAndUpgrade crates stream (upgradeRequest r) r.skipTlsVerify r.sniOverride

variable {crates c} {net : Network NetOp NetOp.Resp} {before : List NetOp} {r : DialRequest}

theorem OutboundConnector.connect_eq (host : Host) (port limit : ℕ) :
    c.connect net crates host port limit =
      withTimeout net limit (c.lateText crates host port) (c.opening crates host port) := by
  unfold OutboundConnector.connect OutboundConnector.lateText OutboundConnector.opening
  cases c.config.proxy with
  | none => rfl
  | some proxy =>
    simp only
    split_ifs <;> rfl

theorem OutboundConnector.opening_of_direct {host : Host} {port : ℕ}
    (h : c.Direct crates host port) : c.opening crates host port = connectTcp host port := by
  unfold OutboundConnector.opening
  cases hproxy : c.config.proxy with
  | none => rfl
  | some proxy =>
    have hbypass := h.resolve_left (by simp [hproxy])
    simp only [hbypass, if_true]

theorem OutboundConnector.exists_proxy {host : Host} {port : ℕ}
    (h : ¬ c.Direct crates host port) : ∃ proxy, c.config.proxy = some proxy ∧
      c.opening crates host port = connectViaProxy crates.toAddressCrates proxy host port := by
  unfold OutboundConnector.opening
  obtain ⟨hproxy, hbypass⟩ := not_or.mp h
  obtain ⟨proxy, hproxy⟩ := Option.ne_none_iff_exists'.mp hproxy
  exact ⟨proxy, hproxy, by simp [hproxy, hbypass]⟩

/-! ## What goes out -/

/-- What reaching a host may ask of the network: the host, or the proxy unless the host is an
exception. -/
inductive NetOp.Reaches (crates : ClientCrates) (c : OutboundConnector) (host : Host) (port : ℕ) :
    NetOp → Prop
  | direct : c.Direct crates host port →
      Reaches crates c host port (.tcpConnect (authority host port))
  | httpProxy {proxy : ProxyConfig} : ¬ c.Direct crates host port →
      c.config.proxy = some proxy → proxy.kind = .http →
      Reaches crates c host port (.tcpConnect (authority proxy.host proxy.port))
  | tunnel {proxy : ProxyConfig} {stream : ℕ} : ¬ c.Direct crates host port →
      c.config.proxy = some proxy → proxy.kind = .http →
      Reaches crates c host port (.httpConnect stream (httpHost host) port proxy.auth)
  /-- A name is looked up here only for a proxy that is to be given addresses. -/
  | lookup {proxy : ProxyConfig} : ¬ c.Direct crates host port →
      c.config.proxy = some proxy → proxy.kind = .socks5 false →
      Reaches crates c host port (.lookupHost host port)
  | socks5 {proxy : ProxyConfig} {remoteDns : Bool} {target : TargetAddr} :
      ¬ c.Direct crates host port → c.config.proxy = some proxy →
      proxy.kind = .socks5 remoteDns →
      (remoteDns = true → target = .domain host port ∨
        ∃ ip, crates.parseIpAddr host = some ip ∧ target = .ip (ip, port)) →
      Reaches crates c host port
        (.socks5Connect (authority proxy.host proxy.port) target proxy.auth)

/-- What a dial may ask of the network: to reach its host, and to say who it is to TLS and HTTP. -/
inductive NetOp.Permitted (crates : ClientCrates) (c : OutboundConnector) (r : DialRequest) :
    NetOp → Prop
  | reach {op : NetOp} : op.Reaches crates c r.host 443 → Permitted crates c r op
  /-- The checks of the certificate are left out for a fronting name, which it cannot match. -/
  | fronted {stream : ℕ} {sni : Host} : r.sniOverride = some sni →
      Permitted crates c r (.tlsConnect stream sni)
  | frontedUpgrade {tls : ℕ} : r.sniOverride.isSome = true →
      Permitted crates c r (.clientAsync tls (upgradeRequest r))
  | upgrade {stream : ℕ} : r.sniOverride = none →
      Permitted crates c r (.clientAsyncTls stream (upgradeRequest r) r.skipTlsVerify)

/-- Nothing is assumed of the answers. -/
abbrev NetOp.Any (op : NetOp) (_ : op.Resp) : Prop := True

theorem connectTcp_safe {guar : NetOp → Prop} {host : Host} {port : ℕ}
    (h : guar (.tcpConnect (authority host port))) :
    Safe guar NetOp.Any (fun _ => True) (connectTcp host port) := by
  refine safe_op h fun (answer : Except Host ℕ) _ => ?_
  cases answer <;> trivial

/-- **The first phase** goes to the proxy, or to the host if it is an exception. -/
theorem opening_safe (host : Host) (port : ℕ) :
    Safe (NetOp.Reaches crates c host port) NetOp.Any (fun _ => True)
      (c.opening crates host port) := by
  by_cases hdirect : c.Direct crates host port
  · rw [OutboundConnector.opening_of_direct hdirect]
    exact connectTcp_safe (.direct hdirect)
  obtain ⟨proxy, hproxy, heq⟩ := OutboundConnector.exists_proxy hdirect
  rw [heq]
  unfold connectViaProxy
  cases hkind : proxy.kind with
  | http =>
    have hconnect : Safe (NetOp.Reaches crates c host port) NetOp.Any (fun _ => True)
        (connectHttpProxy proxy host port) := by
      refine safe_bind (connectTcp_safe (.httpProxy hdirect hproxy hkind)) fun opened _ => ?_
      cases opened with
      | error e => trivial
      | ok stream =>
        refine safe_op (.tunnel hdirect hproxy hkind) fun (answer : Except Host Unit) _ => ?_
        cases answer <;> trivial
    exact safe_bind hconnect fun _ _ => trivial
  | socks5 remoteDns =>
    -- a target found here is an address; one left to the proxy is the host of the dial
    have htarget : Safe (NetOp.Reaches crates c host port) NetOp.Any
        (fun answer => ∀ target, answer = .ok target → remoteDns = true →
          target = .domain host port ∨
            ∃ ip, crates.parseIpAddr host = some ip ∧ target = .ip (ip, port))
        (socks5Target crates.toAddressCrates host port remoteDns) := by
      cases remoteDns with
      | true =>
        simp only [socks5Target, if_true]
        cases hip : crates.parseIpAddr host with
        | some ip =>
          rintro target htarget -
          cases htarget
          exact .inr ⟨ip, rfl, rfl⟩
        | none =>
          rintro target htarget -
          cases htarget
          exact .inl rfl
      | false =>
        refine safe_op (.lookup hdirect hproxy hkind) ?_
        intro (answer : Except Host (List SocketAddr)) _
        cases answer with
        | error e => exact fun _ _ h => by cases h
        | ok addrs =>
          cases addrs with
          | nil => exact fun _ _ h => by cases h
          | cons addr rest => exact fun _ _ h => by cases h
    have hconnect : Safe (NetOp.Reaches crates c host port) NetOp.Any (fun _ => True)
        (connectSocks5Proxy crates.toAddressCrates proxy host port remoteDns) := by
      refine safe_bind htarget fun answer h => ?_
      cases answer with
      | error e => trivial
      | ok target =>
        exact safe_op (.socks5 hdirect hproxy hkind (h target rfl)) fun _ _ => trivial
    exact safe_bind hconnect fun _ _ => trivial

/-- **The second phase** names the fronting name, if there is one, or the domain. -/
theorem handshake_safe (stream : ℕ) :
    Safe (NetOp.Permitted crates c r) NetOp.Any (fun _ => True) (handshake crates r stream) := by
  unfold handshake tlsHandshakeAndUpgrade
  cases hsni : r.sniOverride with
  | some sni =>
    simp only
    split_ifs
    · trivial
    · refine safe_op (.fronted hsni) fun (answer : Except Host ℕ) _ => ?_
      cases answer with
      | error e => trivial
      | ok tls => exact safe_op (.frontedUpgrade (by simp [hsni])) fun _ _ => trivial
  | none => exact safe_op (.upgrade hsni) fun _ _ => trivial

/-! ## The outcome -/

/-- The first phase ends in time with a stream; `now` is what has been asked of the network. -/
def Opens (net : Network NetOp NetOp.Resp) (crates : ClientCrates) (c : OutboundConnector)
    (r : DialRequest) (before : List NetOp) (stream : ℕ) (now : List NetOp) : Prop :=
  duration net before (c.opening crates r.host 443) ≤ r.timeout ∧
    answer net before (c.opening crates r.host 443) = .ok stream ∧
    now = before ++ (timeout net r.timeout (c.opening crates r.host 443) before).started

/-- The ways a dial can go. -/
inductive DialCases (net : Network NetOp NetOp.Resp) (crates : ClientCrates)
    (c : OutboundConnector) (r : DialRequest) (before : List NetOp) :
    Outcome NetOp WsConnectResult → Prop
  | late : r.timeout < duration net before (c.opening crates r.host 443) →
      DialCases net crates c r before ⟨.connectTimedOut (c.lateText crates r.host 443), r.timeout,
        (timeout net r.timeout (c.opening crates r.host 443) before).started⟩
  | refused {reason : Host} : duration net before (c.opening crates r.host 443) ≤ r.timeout →
      answer net before (c.opening crates r.host 443) = .error reason →
      DialCases net crates c r before ⟨.failed reason,
        duration net before (c.opening crates r.host 443),
        (timeout net r.timeout (c.opening crates r.host 443) before).started⟩
  | badUrl {stream : ℕ} {now : List NetOp} {e : Host} : Opens net crates c r before stream now →
      crates.requestError (upgradeRequest r).url = some e →
      DialCases net crates c r before ⟨.failed ("bad URL: ".toList ++ e),
        duration net before (c.opening crates r.host 443),
        (timeout net r.timeout (c.opening crates r.host 443) before).started⟩
  | shaken {stream : ℕ} {now : List NetOp} : Opens net crates c r before stream now →
      crates.requestError (upgradeRequest r).url = none →
      DialCases net crates c r before
        ⟨handshakeResult r (timeout net r.timeout (handshake crates r stream) now).value,
          duration net before (c.opening crates r.host 443) +
            (timeout net r.timeout (handshake crates r stream) now).elapsed,
          (timeout net r.timeout (c.opening crates r.host 443) before).started ++
            (timeout net r.timeout (handshake crates r stream) now).started⟩

/-- A program with a time limit and an error text for it. -/
theorem withTimeout_apply (limit : ℕ) (late : Host) (p : NetProg (Except Host ℕ)) :
    withTimeout net limit late p before =
      ⟨if duration net before p ≤ limit then
          (answer net before p).mapError fun reason => ⟨reason, false⟩
        else .error ⟨late, true⟩,
        min (duration net before p) limit, (timeout net limit p before).started⟩ := by
  rw [withTimeout, Clocked.bind_apply, timeout_value, timeout_elapsed]
  split_ifs with hin
  · cases answer net before p <;> simp [Except.mapError]
  · simp

/-- **The ways a dial can go.** -/
theorem connectWsWithPath_cases :
    DialCases net crates c r before (connectWsWithPath net crates c r before) := by
  rw [connectWsWithPath, OutboundConnector.connect_eq, Clocked.bind_apply, withTimeout_apply]
  by_cases hin : duration net before (c.opening crates r.host 443) ≤ r.timeout
  · simp only [hin, if_true, Nat.min_eq_left]
    cases hanswer : answer net before (c.opening crates r.host 443) with
    | error reason =>
      simp only [Except.mapError, Clocked.pure_apply, OutboundError.result, Bool.false_eq_true,
        if_false, Nat.add_zero, List.append_nil]
      exact .refused hin hanswer
    | ok stream =>
      have hopens : Opens net crates c r before stream _ := ⟨hin, hanswer, rfl⟩
      simp only [Except.mapError, upgradeOver]
      cases hurl : crates.requestError (upgradeRequest r).url with
      | some e =>
        simp only [Clocked.pure_apply, Nat.add_zero, List.append_nil]
        exact .badUrl hopens hurl
      | none =>
        simp only [Clocked.bind_apply, Clocked.pure_apply, Nat.add_zero, List.append_nil]
        exact .shaken hopens hurl
  · simp only [hin, if_false, Clocked.pure_apply, OutboundError.result, if_true, Nat.add_zero,
      List.append_nil]
    rw [Nat.min_eq_right (by omega)]
    exact .late (by omega)

/-! ## What the outcome means -/

theorem Opens.unique {stream stream' : ℕ} {now now' : List NetOp}
    (h : Opens net crates c r before stream now) (h' : Opens net crates c r before stream' now') :
    stream = stream' ∧ now = now' := by
  obtain ⟨-, hanswer, rfl⟩ := h
  obtain ⟨-, hanswer', rfl⟩ := h'
  rw [hanswer] at hanswer'
  cases hanswer'
  exact ⟨rfl, rfl⟩

section Result

variable {x : Option (Except WsError (ℕ × ℕ))}

theorem handshakeResult_ne_connectTimedOut (reason : Host) :
    handshakeResult r x ≠ .connectTimedOut reason := by
  unfold handshakeResult
  split
  · simp
  · split_ifs <;> simp
  · split_ifs <;> simp
  · simp

theorem handshakeResult_timedOut_iff : handshakeResult r x = .timedOut ↔ x = none := by
  unfold handshakeResult
  split
  · simp
  · split_ifs <;> simp
  · split_ifs <;> simp
  · simp

theorem handshakeResult_connected_iff {ws : Stream} :
    handshakeResult r x = .connected ws ↔ x = some (.ok (ws.id, 101)) ∧ ws.request = r := by
  unfold handshakeResult
  split
  · simp
  · rename_i id status
    by_cases hstatus : status = 101
    · rw [if_pos hstatus, hstatus]
      obtain ⟨wsId, request⟩ := ws
      simp [eq_comm]
    · rw [if_neg hstatus]
      split_ifs <;> simp [hstatus]
  · split_ifs <;> simp
  · simp

end Result

/-- A handshake that is cut off took longer than it may. -/
theorem timeout_eq_none_iff {α : Type} {p : NetProg α} {limit : ℕ} {now : List NetOp} :
    (timeout net limit p now).value = none ↔ limit < duration net now p := by
  rw [timeout_value]
  split_ifs with hin
  · simp [hin]
  · simpa using hin

theorem timeout_eq_some_iff {α : Type} {p : NetProg α} {limit : ℕ} {now : List NetOp} {a : α} :
    (timeout net limit p now).value = some a ↔
      duration net now p ≤ limit ∧ answer net now p = a := by
  rw [timeout_value]
  split_ifs with hin
  · simp [hin]
  · simp [hin]

/-! ## What a dial starts and how long it takes -/

theorem opening_started (host : Host) (port limit : ℕ) :
    ∀ op ∈ (timeout net limit (c.opening crates host port) before).started,
      op.Reaches crates c host port :=
  (timeout_started (opening_safe host port) (fun _ _ => trivial) limit before).1

/-- **The connector** goes to the proxy, or to the host if it is an exception. -/
theorem connect_started (host : Host) (port limit : ℕ) :
    ∀ op ∈ (c.connect net crates host port limit before).started,
      op.Reaches crates c host port := by
  rw [OutboundConnector.connect_eq, withTimeout_apply]
  exact opening_started host port limit

theorem handshake_started (stream : ℕ) :
    ∀ op ∈ (timeout net r.timeout (handshake crates r stream) before).started,
      op.Permitted crates c r :=
  (timeout_started (handshake_safe stream) (fun _ _ => trivial) r.timeout before).1

/-- Nothing goes past the proxy. -/
theorem DialCases.permitted {out : Outcome NetOp WsConnectResult}
    (h : DialCases net crates c r before out) : ∀ op ∈ out.started, op.Permitted crates c r := by
  have hopening : ∀ op ∈ (timeout net r.timeout (c.opening crates r.host 443) before).started,
      op.Permitted crates c r := fun op hop => .reach (opening_started _ _ _ op hop)
  cases h with
  | late => exact hopening
  | refused => exact hopening
  | badUrl => exact hopening
  | shaken =>
    intro op hop
    rcases List.mem_append.mp hop with hop | hop
    · exact hopening op hop
    · exact handshake_started _ op hop

/-- Each phase has the time limit of the request. -/
theorem DialCases.elapsed_le {out : Outcome NetOp WsConnectResult}
    (h : DialCases net crates c r before out) : out.elapsed ≤ 2 * r.timeout := by
  cases h with
  | late => simp only; omega
  | refused hin => simp only; omega
  | badUrl hopens =>
    have hin := hopens.1
    simp only
    omega
  | shaken hopens =>
    have hin := hopens.1
    simp only [timeout_elapsed]
    omega

theorem DialCases.connectTimedOut_iff {out : Outcome NetOp WsConnectResult}
    (h : DialCases net crates c r before out) (reason : Host) :
    out.value = .connectTimedOut reason ↔
      r.timeout < duration net before (c.opening crates r.host 443) ∧
        reason = c.lateText crates r.host 443 := by
  cases h with
  | late hlate => simp [hlate, eq_comm]
  | refused hin => simp [hin]
  | badUrl hopens => simp [hopens.1]
  | shaken hopens => simp [hopens.1, handshakeResult_ne_connectTimedOut]

theorem DialCases.timedOut_iff {out : Outcome NetOp WsConnectResult}
    (h : DialCases net crates c r before out) : out.value = .timedOut ↔
      ∃ stream now, Opens net crates c r before stream now ∧
        crates.requestError (upgradeRequest r).url = none ∧
        r.timeout < duration net now (handshake crates r stream) := by
  cases h with
  | late hlate =>
    refine iff_of_false (by simp) ?_
    rintro ⟨stream, now, hopens, -⟩
    have hin := hopens.1
    omega
  | refused hin hanswer =>
    refine iff_of_false (by simp) ?_
    rintro ⟨stream, now, ⟨-, hok, -⟩, -⟩
    rw [hanswer] at hok
    cases hok
  | badUrl hopens hurl =>
    refine iff_of_false (by simp) ?_
    rintro ⟨stream, now, -, hnone, -⟩
    rw [hurl] at hnone
    cases hnone
  | shaken hopens hurl =>
    rw [handshakeResult_timedOut_iff, timeout_eq_none_iff]
    constructor
    · exact fun hlate => ⟨_, _, hopens, hurl, hlate⟩
    · rintro ⟨stream, now, hopens', -, hlate⟩
      obtain ⟨rfl, rfl⟩ := hopens.unique hopens'
      exact hlate

theorem DialCases.connected_iff {out : Outcome NetOp WsConnectResult}
    (h : DialCases net crates c r before out) (ws : Stream) : out.value = .connected ws ↔
      ∃ stream now, Opens net crates c r before stream now ∧
        crates.requestError (upgradeRequest r).url = none ∧
        duration net now (handshake crates r stream) ≤ r.timeout ∧
        answer net now (handshake crates r stream) = .ok (ws.id, 101) ∧ ws.request = r := by
  cases h with
  | late hlate =>
    refine iff_of_false (by simp) ?_
    rintro ⟨stream, now, hopens, -⟩
    have hin := hopens.1
    omega
  | refused hin hanswer =>
    refine iff_of_false (by simp) ?_
    rintro ⟨stream, now, ⟨-, hok, -⟩, -⟩
    rw [hanswer] at hok
    cases hok
  | badUrl hopens hurl =>
    refine iff_of_false (by simp) ?_
    rintro ⟨stream, now, -, hnone, -⟩
    rw [hurl] at hnone
    cases hnone
  | shaken hopens hurl =>
    rw [handshakeResult_connected_iff, timeout_eq_some_iff]
    constructor
    · rintro ⟨⟨hin, hanswer⟩, hrequest⟩
      exact ⟨_, _, hopens, hurl, hin, hanswer, hrequest⟩
    · rintro ⟨stream, now, hopens', -, hin, hanswer, hrequest⟩
      obtain ⟨rfl, rfl⟩ := hopens.unique hopens'
      exact ⟨⟨hin, hanswer⟩, hrequest⟩

/-- What holds of a dial, whatever the network does. -/
structure DialBehaves (net : Network NetOp NetOp.Resp) (crates : ClientCrates)
    (c : OutboundConnector) (r : DialRequest) (before : List NetOp) : Prop where
  permitted : ∀ op ∈ (connectWsWithPath net crates c r before).started, op.Permitted crates c r
  elapsed_le : (connectWsWithPath net crates c r before).elapsed ≤ 2 * r.timeout
  /-- Nothing answered. -/
  connectTimedOut_iff : ∀ reason,
    (connectWsWithPath net crates c r before).value = .connectTimedOut reason ↔
      r.timeout < duration net before (c.opening crates r.host 443) ∧
        reason = c.lateText crates r.host 443
  /-- The host answered, and then the handshake stalled. -/
  timedOut_iff : (connectWsWithPath net crates c r before).value = .timedOut ↔
    ∃ stream now, Opens net crates c r before stream now ∧
      crates.requestError (upgradeRequest r).url = none ∧
      r.timeout < duration net now (handshake crates r stream)
  /-- Both phases ended well and in time. -/
  connected_iff : ∀ ws, (connectWsWithPath net crates c r before).value = .connected ws ↔
    ∃ stream now, Opens net crates c r before stream now ∧
      crates.requestError (upgradeRequest r).url = none ∧
      duration net now (handshake crates r stream) ≤ r.timeout ∧
      answer net now (handshake crates r stream) = .ok (ws.id, 101) ∧ ws.request = r

/-- **A dial.** With an outbound proxy nothing of it goes past the proxy unless the host is an
exception, no name is looked up here unless the proxy is to be given addresses, and the certificate
is checked unless the settings or a fronting name forbid it. It takes at most its time limit twice,
and its outcome says exactly which phase ran out the clock.

**Proof sketch.** Both phases are safe programs with a time limit; the rest follows from the ways a
dial can go. -/
theorem dial_behaves (net : Network NetOp NetOp.Resp) (crates : ClientCrates)
    (c : OutboundConnector) (r : DialRequest) (before : List NetOp) :
    DialBehaves net crates c r before := by
  have hcases : DialCases net crates c r before (connectWsWithPath net crates c r before) :=
    connectWsWithPath_cases
  exact ⟨hcases.permitted, hcases.elapsed_le, hcases.connectTimedOut_iff, hcases.timedOut_iff,
    hcases.connected_iff⟩

end TgWsProxy
