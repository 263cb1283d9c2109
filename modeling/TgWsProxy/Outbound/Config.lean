import Mathlib
import TgWsProxy.Lib.Fields
import TgWsProxy.WsClient.Records
import TgWsProxy.Links

set_option relaxedAutoImplicit false
set_option autoImplicit false

/-!
# Which outbound proxy is used

`outbound/config.rs`: the proxy is taken from the command line, or from the environment variables
that other programs go by, and with a proxy comes a list of the hosts that are reached without it.

## Main definitions

* `TgWsProxy.AddressCrates` — the parsers that the module calls.
* `TgWsProxy.ProxyConfig`, `ProxyConfig.parse` — a proxy, and the URL it is given by.
* `TgWsProxy.selectProxy`, `selectNoProxy`, `validateNoProxy` — the settings that are used.
* `TgWsProxy.OutboundConfig.fromSources` — all of them together.
-/

namespace TgWsProxy

open Text

/-! ## Addresses -/

/-- What `Url::parse` finds. -/
structure Url where
  scheme : Host
  hostStr : Option Host
  port : Option ℕ
  path : Host
  query : Option Host
  fragment : Option Host
  username : Host
  password : Option Host

abbrev IpAddr := Bytes

/-- The parsers of the crates `url`, `percent-encoding`, `ipnet` and `proxyvars`, and those for
addresses of the standard library. -/
structure AddressCrates where
  /-- `Url::parse`. -/
  parseUrl : Host → Option Url
  /-- `percent_decode_str`. -/
  percentDecode : Host → Bytes
  /-- `str::parse::<IpNet>().is_ok()`. -/
  isIpNet : Host → Bool
  /-- `str::parse::<Ipv6Addr>().is_ok()`. -/
  isIpv6Addr : Host → Bool
  /-- `str::parse::<IpAddr>()`. -/
  parseIpAddr : Host → Option IpAddr
  /-- `NoProxy::from(list).matches(url)`. -/
  noProxyMatches : Host → Host → Bool

/-- `str::to_ascii_lowercase`. -/
def toAsciiLowercase (s : Host) : Host := s.map Char.toLower

/-- `authority`. -/
def authority (host : Host) (port : ℕ) : Host :=
  if ':' ∈ host ∧ ¬ ['['] <+: host then ['['] ++ host ++ [']', ':'] ++ showNat port
  else host ++ [':'] ++ showNat port

/-- `http_host`. -/
def httpHost (host : Host) : Host :=
  if ':' ∈ host ∧ ¬ ['['] <+: host then ['['] ++ host ++ [']'] else host

/-- `target_url`. -/
def targetUrl (host : Host) (port : ℕ) : Host := "https://".toList ++ authority host port

/-! ## Proxies -/

inductive ProxyKind
  | http
  | socks5 (remoteDns : Bool)
  deriving DecidableEq

structure ProxyConfig where
  kind : ProxyKind
  host : Host
  port : ℕ
  username : Option Host
  password : Option Host
  deriving DecidableEq

/-- `default_port`. -/
def defaultPort : ProxyKind → ℕ
  | .http => 80
  | .socks5 _ => 1080

/-- The scheme of a URL for the proxy. -/
def ProxyKind.scheme : ProxyKind → Host
  | .http => "http".toList
  | .socks5 false => "socks5".toList
  | .socks5 true => "socks5h".toList

/-- `ProxyConfig::summary`. -/
def ProxyConfig.summary (p : ProxyConfig) : Host :=
  if p.username.isSome then
    p.kind.scheme ++ "://user:***@".toList ++ authority p.host p.port
  else p.kind.scheme ++ "://".toList ++ authority p.host p.port

/-- What the loops over settings return, with the text of an error. -/
abbrev Checked := Except Host

/-- `validate_proxy_url_shape`. -/
def validateProxyUrlShape (url : Url) : Checked Unit :=
  if ¬ (url.path = [] ∨ url.path = ['/']) ∨ url.query.isSome ∨ url.fragment.isSome then
    .error "outbound proxy URL must not include a path, query string or fragment".toList
  else .ok ()

/-- The `match` of `ProxyConfig::parse` on the scheme. -/
def proxyKind (scheme : Host) : Checked ProxyKind :=
  if scheme = "http".toList then .ok .http
  else if scheme = "socks5".toList then .ok (.socks5 false)
  else if scheme = "socks5h".toList then .ok (.socks5 true)
  else if scheme = "https".toList then
    .error "HTTPS outbound proxy URLs are not supported; use an http:// CONNECT proxy".toList
  else .error ("unsupported outbound proxy scheme: ".toList ++ scheme)

section Parse

variable (crates : AddressCrates)

/-- `decode_required_userinfo`. -/
def decodeRequiredUserinfo (value : Host) : Checked Host :=
  match fromUtf8 (crates.percentDecode value) with
  | some text => .ok text
  | none => .error "proxy URL userinfo is not valid UTF-8".toList

/-- `decode_userinfo`. -/
def decodeUserinfo (value : Host) : Checked (Option Host) :=
  if value = [] then .ok none else (decodeRequiredUserinfo crates value).map some

/-- `url.password().map(decode_required_userinfo).transpose()`. -/
def decodePassword : Option Host → Checked (Option Host)
  | none => .ok none
  | some value => (decodeRequiredUserinfo crates value).map some

/-- `ProxyConfig::parse`. -/
def ProxyConfig.parse (raw : Host) : Checked ProxyConfig := do
  let some url := crates.parseUrl raw | .error "invalid outbound proxy URL".toList
  validateProxyUrlShape url
  let kind ← proxyKind (toAsciiLowercase url.scheme)
  let some host := url.hostStr | .error "outbound proxy URL must include a host".toList
  let port := url.port.getD (defaultPort kind)
  let username ← decodeUserinfo crates url.username
  let password ← decodePassword crates url.password
  if username.isNone && password.isSome then
    .error "proxy URL password requires a username".toList
  else .ok ⟨kind, host, port, username, password⟩

end Parse

/-! ## The sources of the settings -/

/-- `is_direct_marker`. -/
def isDirectMarker (value : Host) : Bool :=
  let marker := toAsciiLowercase (trim value)
  marker = "direct".toList || marker = "none".toList || marker = "off".toList

/-- The environment variables that name a proxy, in the order of `select_proxy`. -/
def proxyVariables : List Host :=
  ["HTTPS_PROXY".toList, "https_proxy".toList, "ALL_PROXY".toList, "all_proxy".toList,
    "HTTP_PROXY".toList, "http_proxy".toList]

section Sources

variable (crates : AddressCrates)

/-- The loop of `select_env_proxy`, with the first error so far. -/
def selectEnvLoop : Option Host → List (Host × Option Host) → Checked (Option ProxyConfig)
  | none, [] => .ok none
  | some err, [] =>
    .error ("no supported outbound proxy URL found in environment (".toList ++ err ++ [')'])
  | firstError, (_, none) :: rest => selectEnvLoop firstError rest
  | firstError, (name, some value) :: rest =>
    if trim value = [] then selectEnvLoop firstError rest
    else if isDirectMarker (trim value) then .ok none
    else
      match ProxyConfig.parse crates (trim value) with
      | .ok proxy => .ok (some proxy)
      | .error err =>
        selectEnvLoop (firstError.or (some (name ++ ": ".toList ++ err))) rest

/-- `select_env_proxy`. -/
def selectEnvProxy (values : List (Host × Option Host)) : Checked (Option ProxyConfig) :=
  selectEnvLoop crates none values

variable (env : Host → Option Host)

/-- `select_proxy` where no proxy is given explicitly. -/
def selectProxyFromEnv (useEnv : Bool) : Checked (Option ProxyConfig) :=
  if useEnv then selectEnvProxy crates (proxyVariables.map fun name => (name, env name))
  else .ok none

/-- `select_proxy`. -/
def selectProxy (explicit : Option Host) (useEnv : Bool) : Checked (Option ProxyConfig) :=
  match explicit with
  | none => selectProxyFromEnv crates env useEnv
  | some value =>
    if trim value = [] then selectProxyFromEnv crates env useEnv
    else if isDirectMarker (trim value) then .ok none
    else (ProxyConfig.parse crates (trim value)).map some

/-- `first_non_empty`. -/
def firstNonEmpty (values : List (Option Host)) : Option Host :=
  (values.reduceOption.map trim).find? (· ≠ [])

/-- `select_no_proxy`. -/
def selectNoProxy (explicit : Option Host) (useEnv : Bool) : Option Host :=
  match explicit with
  | some value => some (trim value)
  | none =>
    if useEnv then firstNonEmpty [env "NO_PROXY".toList, env "no_proxy".toList] else none

end Sources

/-! ## The hosts that are reached without the proxy -/

/-- The largest port. -/
def maxPort : ℕ := 65535

/-- `validate_no_proxy_port`. -/
def validateNoProxyPort (port : Host) : Checked Unit :=
  if port = [] ∨ (parseUnsigned maxPort port).isNone then
    .error "invalid NO_PROXY entry port".toList
  else .ok ()

/-- A label that `validate_hostname_no_proxy` rejects. -/
def badLabel (label : Host) : Bool :=
  label = [] || label.head? = some '-' || label.getLast? = some '-' ||
    !label.all fun c => c.isAlphanum || c = '-'

/-- What `validate_hostname_no_proxy` strips off first. -/
def stripWildcard (host : Host) : Host :=
  ((stripPrefix "*.".toList host).or (stripPrefix ['.'] host)).getD host

/-- `validate_hostname_no_proxy`. -/
def validateHostnameNoProxy (host : Host) : Checked Unit :=
  let host := stripWildcard host
  if host = [] ∨ (∃ c ∈ ['/', '[', ']', ':'], c ∈ host) ∨ (host.splitOn '.').any badLabel then
    .error "invalid NO_PROXY host entry".toList
  else .ok ()

/-- The end of `validate_no_proxy_entry`: a host name, and a port if there is a colon. -/
def validateHostPortNoProxy (entry : Host) : Checked Unit :=
  match rsplitOnce ':' entry with
  | none => validateHostnameNoProxy entry
  | some (host, port) =>
    if ':' ∈ host then .error "IPv6 NO_PROXY entries with ports must use brackets".toList
    else do
      validateHostnameNoProxy host
      validateNoProxyPort port

section NoProxy

variable (crates : AddressCrates)

/-- `validate_bracketed_ipv6_no_proxy`, for an entry that starts with a bracket. -/
def validateBracketedIpv6NoProxy (entry : Host) : Checked Unit :=
  match splitOnce ']' entry with
  | none => .error "invalid bracketed IPv6 NO_PROXY entry".toList
  | some (opening, rest) =>
    if !crates.isIpv6Addr (opening.drop 1) then
      .error "invalid bracketed IPv6 NO_PROXY entry".toList
    else if rest = [] then .ok ()
    else
      match stripPrefix [':'] rest with
      | none => .error "invalid bracketed IPv6 NO_PROXY entry".toList
      | some port => validateNoProxyPort port

/-- `validate_no_proxy_entry`. -/
def validateNoProxyEntry (entry : Host) : Checked Unit :=
  if entry = ['*'] then .ok ()
  else if containsPattern entry "://".toList then
    .error "NO_PROXY entries must not include a URL scheme".toList
  else if crates.isIpNet entry then .ok ()
  else if ['['] <+: entry then validateBracketedIpv6NoProxy crates entry
  else if '/' ∈ entry then .error "invalid NO_PROXY CIDR entry".toList
  else validateHostPortNoProxy entry

/-- The entries of the list: the fields that are not blank. -/
def noProxyEntries (raw : Host) : List Host :=
  ((raw.splitOn ',').map trim).filter (· ≠ [])

/-- `validate_no_proxy`. -/
def validateNoProxy (raw : Host) : Checked Unit :=
  (noProxyEntries raw).forM (validateNoProxyEntry crates)

/-- `OutboundConfig`. -/
structure OutboundConfig where
  proxy : Option ProxyConfig
  noProxy : Option Host
  deriving DecidableEq

/-- The list that `from_sources_with_env` uses with a proxy. -/
def usedNoProxy (source : Option Host) : Checked (Option Host) :=
  match source.filter (· ≠ []) with
  | none => .ok none
  | some list => (validateNoProxy crates list).map fun _ => some list

/-- `OutboundConfig::from_sources_with_env`. -/
def OutboundConfig.fromSources (env : Host → Option Host) (outboundProxy noProxy : Option Host)
    (useEnv : Bool) : Checked OutboundConfig := do
  let proxy ← selectProxy crates env outboundProxy useEnv
  let noProxy ← if proxy.isSome then usedNoProxy crates (selectNoProxy env noProxy useEnv)
    else .ok none
  return ⟨proxy, noProxy⟩

end NoProxy

end TgWsProxy
