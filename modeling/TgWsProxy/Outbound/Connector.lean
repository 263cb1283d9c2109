import TgWsProxy.Lib.Clocked
import TgWsProxy.Outbound.Config
import TgWsProxy.WsClient.Connect

set_option relaxedAutoImplicit false
set_option autoImplicit false

/-!
# Opening a connection

`outbound/connector.rs`, and `connect_ws_with_path` of `ws_client.rs`, which does the TLS handshake
and the WebSocket upgrade over what the connector opens. A dial of the model of the server is one
run of it.

## Main definitions

* `TgWsProxy.NetOp` — what the two files ask of the network.
* `TgWsProxy.OutboundConnector.connect` — a TCP connection, through the proxy or not.
* `TgWsProxy.connectWsWithPath` — a WebSocket.
-/

namespace TgWsProxy

open Process

/-! ## The network -/

/-- `SocketAddr`. -/
abbrev SocketAddr := IpAddr × ℕ

/-- What a SOCKS5 proxy is asked to connect to. -/
inductive TargetAddr
  | ip (addr : SocketAddr)
  | domain (name : Host) (port : ℕ)
  deriving DecidableEq

/-- The upgrade request of `connect_ws_with_path`: a URL, and the headers that are inserted. -/
structure UpgradeRequest where
  url : Host
  headers : List (Host × Host)
  deriving DecidableEq

/-- `tungstenite::Error`: an HTTP response other than the upgrade, or a text. -/
inductive WsError
  | http (status : ℕ)
  | other (text : Host)
  deriving DecidableEq

/-- The operations; a connection is named by a number. -/
inductive NetOp
  /-- `TcpStream::connect`. -/
  | tcpConnect (address : Host)
  /-- `lookup_host`. -/
  | lookupHost (host : Host) (port : ℕ)
  /-- `http_connect_tokio`, and `http_connect_tokio_with_basic_auth` with credentials. -/
  | httpConnect (stream : ℕ) (host : Host) (port : ℕ) (auth : Option (Host × Host))
  /-- `Socks5Stream::connect`, and `connect_with_password` with credentials. -/
  | socks5Connect (proxy : Host) (target : TargetAddr) (auth : Option (Host × Host))
  /-- `TlsConnector::connect` without certificate checks. -/
  | tlsConnect (stream : ℕ) (serverName : Host)
  /-- `client_async_with_config`: the upgrade over a TLS stream. -/
  | clientAsync (tls : ℕ) (request : UpgradeRequest)
  /-- `client_async_tls_with_config`: TLS with the host of the request, and the upgrade. -/
  | clientAsyncTls (stream : ℕ) (request : UpgradeRequest) (skipVerify : Bool)
  deriving DecidableEq

/-- What is answered; an upgrade with a stream and the status of the response. -/
abbrev NetOp.Resp : NetOp → Type
  | .tcpConnect _ => Except Host ℕ
  | .lookupHost .. => Except Host (List SocketAddr)
  | .httpConnect .. => Except Host Unit
  | .socks5Connect .. => Except Host ℕ
  | .tlsConnect .. => Except Host ℕ
  | .clientAsync .. => Except WsError (ℕ × ℕ)
  | .clientAsyncTls .. => Except WsError (ℕ × ℕ)

abbrev NetProg := Prog NetOp NetOp.Resp

namespace NetProg

def tcpConnect (address : Host) : NetProg (Except Host ℕ) :=
  Prog.perform (NetOp.tcpConnect address)

def lookupHost (host : Host) (port : ℕ) : NetProg (Except Host (List SocketAddr)) :=
  Prog.perform (NetOp.lookupHost host port)

def httpConnect (stream : ℕ) (host : Host) (port : ℕ) (auth : Option (Host × Host)) :
    NetProg (Except Host Unit) :=
  Prog.perform (NetOp.httpConnect stream host port auth)

def socks5Connect (proxy : Host) (target : TargetAddr) (auth : Option (Host × Host)) :
    NetProg (Except Host ℕ) :=
  Prog.perform (NetOp.socks5Connect proxy target auth)

def tlsConnect (stream : ℕ) (serverName : Host) : NetProg (Except Host ℕ) :=
  Prog.perform (NetOp.tlsConnect stream serverName)

def clientAsync (tls : ℕ) (request : UpgradeRequest) : NetProg (Except WsError (ℕ × ℕ)) :=
  Prog.perform (NetOp.clientAsync tls request)

def clientAsyncTls (stream : ℕ) (request : UpgradeRequest) (skipVerify : Bool) :
    NetProg (Except WsError (ℕ × ℕ)) :=
  Prog.perform (NetOp.clientAsyncTls stream request skipVerify)

end NetProg

/-- What the crates for TLS and HTTP make of a name and of a URL. -/
structure ClientCrates extends AddressCrates where
  /-- `ServerName::try_from(name).is_ok()`. -/
  isServerName : Host → Bool
  /-- The error of `into_client_request`, if any. -/
  requestError : Host → Option Host

/-! ## The connector -/

open NetProg

/-- `OutboundError`. -/
structure OutboundError where
  reason : Host
  timedOut : Bool
  deriving DecidableEq

/-- `connect_tcp`. -/
def connectTcp (host : Host) (port : ℕ) : NetProg (Except Host ℕ) := do
  match ← tcpConnect (authority host port) with
  | .ok stream => return .ok stream
  | .error e => return .error ("TCP connect: ".toList ++ e)

/-- The credentials that are sent to a proxy. -/
def ProxyConfig.auth (proxy : ProxyConfig) : Option (Host × Host) :=
  proxy.username.map fun username => (username, proxy.password.getD [])

/-- `connect_http_proxy`. -/
def connectHttpProxy (proxy : ProxyConfig) (targetHost : Host) (targetPort : ℕ) :
    NetProg (Except Host ℕ) := do
  match ← connectTcp proxy.host proxy.port with
  | .error e => return .error e
  | .ok stream =>
    match ← httpConnect stream (httpHost targetHost) targetPort proxy.auth with
    | .ok () => return .ok stream
    | .error e => return .error e

/-- `socks5_target`. -/
def socks5Target (crates : AddressCrates) (host : Host) (port : ℕ) (remoteDns : Bool) :
    NetProg (Except Host TargetAddr) :=
  if remoteDns then
    match crates.parseIpAddr host with
    | some ip => return .ok (.ip (ip, port))
    | none => return .ok (.domain host port)
  else do
    match ← lookupHost host port with
    | .error e => return .error ("SOCKS5 local DNS lookup: ".toList ++ e)
    | .ok [] => return .error "SOCKS5 local DNS lookup returned no addresses".toList
    | .ok (addr :: _) => return .ok (.ip addr)

/-- `connect_socks5_proxy`. -/
def connectSocks5Proxy (crates : AddressCrates) (proxy : ProxyConfig) (targetHost : Host)
    (targetPort : ℕ) (remoteDns : Bool) : NetProg (Except Host ℕ) := do
  match ← socks5Target crates targetHost targetPort remoteDns with
  | .error e => return .error e
  | .ok target =>
    socks5Connect (authority proxy.host proxy.port) target proxy.auth

/-- The texts of a failed proxy connection, with the proxy in front. -/
def viaProxy (name : Host) (proxy : ProxyConfig) : Except Host ℕ → Except Host ℕ :=
  Except.mapError fun e => name ++ " proxy ".toList ++ proxy.summary ++ ": ".toList ++ e

/-- `connect_via_proxy`. -/
def connectViaProxy (crates : AddressCrates) (proxy : ProxyConfig) (targetHost : Host)
    (targetPort : ℕ) : NetProg (Except Host ℕ) :=
  match proxy.kind with
  | .http => do
    return viaProxy "HTTP".toList proxy (← connectHttpProxy proxy targetHost targetPort)
  | .socks5 remoteDns => do
    return viaProxy "SOCKS5".toList proxy
      (← connectSocks5Proxy crates proxy targetHost targetPort remoteDns)

/-- `OutboundConnector`. -/
structure OutboundConnector where
  config : OutboundConfig

/-- `OutboundConnector::should_bypass`. -/
def OutboundConnector.shouldBypass (c : OutboundConnector) (crates : AddressCrates)
    (targetHost : Host) (targetPort : ℕ) : Bool :=
  c.config.noProxy.any fun list => crates.noProxyMatches list (targetUrl targetHost targetPort)

section Connect

variable (net : Network NetOp NetOp.Resp)

/-- A program with a time limit whose error says whether the limit was reached. -/
def withTimeout (limit : ℕ) (late : Host) (p : NetProg (Except Host ℕ)) :
    Clocked NetOp (Except OutboundError ℕ) := do
  match ← timeout net limit p with
  | some (.ok stream) => return .ok stream
  | some (.error reason) => return .error ⟨reason, false⟩
  | none => return .error ⟨late, true⟩

/-- `connect_direct`. -/
def connectDirect (host : Host) (port limit : ℕ) : Clocked NetOp (Except OutboundError ℕ) :=
  withTimeout net limit "TCP connect timed out".toList (connectTcp host port)

variable (crates : ClientCrates)

/-- `OutboundConnector::connect`. -/
def OutboundConnector.connect (c : OutboundConnector) (targetHost : Host)
    (targetPort limit : ℕ) : Clocked NetOp (Except OutboundError ℕ) :=
  match c.config.proxy with
  | none => connectDirect net targetHost targetPort limit
  | some proxy =>
    if c.shouldBypass crates.toAddressCrates targetHost targetPort then
      connectDirect net targetHost targetPort limit
    else
      withTimeout net limit ("proxy ".toList ++ proxy.summary ++ " handshake timed out".toList)
        (connectViaProxy crates.toAddressCrates proxy targetHost targetPort)

/-! ## WebSockets -/

/-- The request of `connect_ws_with_path`. -/
def upgradeRequest (r : DialRequest) : UpgradeRequest where
  url := "wss://".toList ++ r.domain ++ r.path
  headers :=
    (if r.requestBinarySubprotocol then [("Sec-WebSocket-Protocol".toList, "binary".toList)]
      else []) ++
    [("Origin".toList, "https://web.telegram.org".toList),
     ("User-Agent".toList, ("Mozilla/5.0 (Windows NT 10.0; Win64; x64) AppleWebKit/537.36 " ++
       "(KHTML, like Gecko) Chrome/131.0.0.0 Safari/537.36").toList)]

/-- `tls_handshake_and_upgrade`. -/
def tlsHandshakeAndUpgrade (stream : ℕ) (request : UpgradeRequest) (skipTlsVerify : Bool)
    (sniOverride : Option Host) : NetProg (Except WsError (ℕ × ℕ)) :=
  match sniOverride with
  | some sni =>
    if !crates.isServerName sni then
      return .error (.other "URL error: No host name in the URL".toList)
    else do
      match ← tlsConnect stream sni with
      | .error e => return .error (.other ("IO error: ".toList ++ e))
      | .ok tls => clientAsync tls request
  | none => clientAsyncTls stream request skipTlsVerify

/-- The statuses that are taken for a redirect. -/
def redirectStatuses : List ℕ := [301, 302, 303, 307, 308]

/-- What `connect_ws_with_path` makes of the handshake and the upgrade. -/
def handshakeResult (r : DialRequest) : Option (Except WsError (ℕ × ℕ)) → WsConnectResult
  | none => .timedOut
  | some (.ok (ws, status)) =>
    if status = 101 then .connected ⟨ws, r⟩
    else if status ∈ redirectStatuses then .redirect status
    else .failed ("unexpected HTTP status ".toList ++ showNat status)
  | some (.error (.http status)) =>
    if status ∈ redirectStatuses then .redirect status
    else .failed ("HTTP ".toList ++ showNat status ++ " from server".toList)
  | some (.error (.other text)) => .failed text

/-- What a failed connect of the connector comes to. -/
def OutboundError.result (e : OutboundError) : WsConnectResult :=
  if e.timedOut then .connectTimedOut e.reason else .failed e.reason

/-- `connect_ws_with_path` from the open stream on. -/
def upgradeOver (r : DialRequest) (stream : ℕ) : Clocked NetOp WsConnectResult :=
  match crates.requestError (upgradeRequest r).url with
  | some e => return .failed ("bad URL: ".toList ++ e)
  | none => do
    return handshakeResult r (← timeout net r.timeout
      (tlsHandshakeAndUpgrade crates stream (upgradeRequest r) r.skipTlsVerify r.sniOverride))

/-- `connect_ws_with_path`. -/
def connectWsWithPath (c : OutboundConnector) (r : DialRequest) :
    Clocked NetOp WsConnectResult := do
  match ← c.connect net crates r.host 443 r.timeout with
  | .error e => return e.result
  | .ok stream => upgradeOver net crates r stream

end Connect

end TgWsProxy
