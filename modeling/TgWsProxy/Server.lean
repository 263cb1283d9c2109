import TgWsProxy.Proxy.Route

set_option relaxedAutoImplicit false
set_option autoImplicit false

/-!
# The server as a system of tasks

Client connections, the startup warm-up and the background refills run concurrently over one
world.

## Main definitions

* `TgWsProxy.body` — the program of each kind of task.
* `TgWsProxy.server` — the system; its runs are the interleavings of the server's tasks.
-/

namespace TgWsProxy

open Process

/-- The program of each kind of task; only client connections return an upstream. -/
def body (cfg : Config) : Tag → Action (Option Upstream)
  | .client route => selectUpstream cfg route (cfg.dcTargetIp route.dc)
  | .get args allowRefill => do
    let _ ← WsPool.get args allowRefill
    return none
  | .cfConnect .worker route dst => do
    let _ ← route.cfWorker cfg dst
    return none
  | .cfConnect .proxy route _ => do
    let _ ← route.cfProxy cfg
    return none
  | .warmup dcs => do
    WsPool.warmup cfg dcs
    return none
  | .refill args => do
    WsPool.refill cfg args
    return none
  | .cfRefill target => do
    WsPool.cfRefill cfg target
    return none

/-- The server. -/
def server (cfg : Config) : System Op Op.Resp World Env Tag (Option Upstream) where
  exec := exec cfg
  body := body cfg

/-- The tasks that arrive from outside; refills are only started by other tasks. -/
def Tag.arrives : Tag → Prop
  | .refill _ => False
  | .cfRefill _ => False
  | _ => True

/-- States and labels of the server. -/
abbrev ServerState := State Op Op.Resp World Tag (Option Upstream)

abbrev ServerLabel := Label Env Tag

/-- A run in which only tasks from outside are started by labels. -/
def Arrivals (ls : List ServerLabel) : Prop := ∀ l ∈ ls, ∀ tag, l = .start tag → tag.arrives

end TgWsProxy
