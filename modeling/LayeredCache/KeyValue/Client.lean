import LayeredCache.Built
import LayeredCache.KeyValue.Address
import LayeredCache.KeyValue.Server
import LayeredCache.Settings

/-!
# A key-value server as far tier

A client turns the requests of a cache into commands of a server, and reads the replies. It keeps a
bounded number of connections, which it only makes when they are needed, and waits for a limited
time.

## Main definitions

* `KeyValue.Client` — a client of a server.
* `KeyValue.Client.connect` — the client that settings ask for.
* The instance of `FarStore`.
-/

set_option autoImplicit false

namespace LayeredCache.KeyValue

/-- A client of a server. -/
structure Client (σ : Type) where
  server : σ
  /-- How long it waits for an answer. -/
  limit : Span
  /-- The greatest number of connections. -/
  connections : Nat

namespace Client

variable {σ : Type}

/-- More connections than this could not be kept in memory. -/
def greatestConnections : Nat := 0x100000000000000

/-- The client that settings ask for. The server is not spoken to yet. -/
def connect (server : σ) (s : FarSettings) : Built (Client σ) :=
  if (Address.read? s.address).isNone then .refused .badAddress
  else if greatestConnections < s.connections then .crashed
  else .ready ⟨server, Span.milliseconds s.timeoutMilliseconds, s.connections⟩

/-- How an exchange answers a request. -/
def read (limit : Span) (r : Far.Request) : Exchange → Far.Answer r
  | .replied reply => reply.read r
  | .silent => .failure (.farTimeout limit)
  | .closed => .failure .farRefused
  | .unreachable => .failure .noConnection

/-- Sends the command of a request, if there may be a connection. -/
def send [Server σ] (c : Client σ) (now : Instant) (r : Far.Request) : Far.Answer r × Client σ :=
  if c.connections = 0 then (.failure .noConnection, c)
  else
    let (exchange, server) := Server.exchange c.server now (Command.ofRequest r)
    (read c.limit r exchange, { c with server := server })

/-- Answers a request. To delete no keys is done without the server. -/
def answer [Server σ] (c : Client σ) (now : Instant) :
    (r : Far.Request) → Far.Answer r × Client σ
  | .delete [] => (.reply (), c)
  | r => c.send now r

end Client

instance {σ : Type} [Server σ] : FarStore (Client σ) where
  answer := Client.answer

end LayeredCache.KeyValue
