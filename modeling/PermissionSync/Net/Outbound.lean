import PermissionSync.Base.Interrupt
import PermissionSync.Glpi.Interface
import PermissionSync.Net.Race

/-!
# What an HTTP client sees of the world

`client.rs` of the generic REST Provider and `transport.rs` of the GLPI adapter go through the same steps with failures
of their own: one address, one connection, TLS, the HTTP/1.1 handshake, one request, and the frames of one body. The
whole is under `timeout_at`, and the response is given up when the connection ends.
-/

namespace PermissionSync.Net

open PermissionSync.Base
open PermissionSync.Glpi (Instant)

variable {N ε α : Type}

/-! ## Name servers -/

structure SocketAddr where
  ip : IpAddr
  port : Nat
deriving DecidableEq

def IpAddr.isIpv4 : IpAddr → Bool
  | .v4 _ => true
  | .v6 _ => false

inductive ProtocolConfig where
  | udp
  | tcp
  | other
deriving DecidableEq

structure ConnectionConfig where
  protocol : ProtocolConfig
  port : Nat
  bindAddr : Option SocketAddr

structure NameServerConfig where
  ip : IpAddr
  connections : List ConnectionConfig

structure UdpNameServer where
  address : SocketAddr
  bindAddr : Option SocketAddr
deriving DecidableEq

def NameServerConfig.udpNameServer (nameServer : NameServerConfig) (connection : ConnectionConfig) :
    Option UdpNameServer :=
  if connection.protocol ≠ .udp || connection.port = 0 ||
      connection.bindAddr.any (fun bindAddr => bindAddr.ip.isIpv4 != nameServer.ip.isIpv4) then none
  else some ⟨⟨nameServer.ip, connection.port⟩, connection.bindAddr⟩

/-- The first usable connection of the system configuration. -/
def firstUdpNameServer (nameServers : List NameServerConfig) : Option UdpNameServer :=
  (nameServers.flatMap fun nameServer => nameServer.connections.filterMap nameServer.udpNameServer).head?

/-! ## Messages -/

inductive Method where
  | get
  | post
  | delete
deriving DecidableEq

/-- A request as it is written, with its path and query. -/
structure HttpRequest where
  method : Method
  target : String
  headers : List (String × String)
  body : List UInt8
deriving DecidableEq

/-- A frame of a body, or the failure to read one. -/
inductive BodyFrame where
  | data (bytes : List UInt8)
  | trailers
  | failed
deriving DecidableEq

/-- A response: its head, and the frames that its body will deliver. -/
structure HttpResponse where
  status : Nat
  headers : List (String × List UInt8)
  frames : List BodyFrame

/-- When a query completes, and how. -/
structure Answer (N : Type) where
  polls : Nat
  result : Except NetError (DnsResponse N)

/-! ## Operations -/

inductive Op (N : Type) where
  | tryCurrent
  | isCancelled (signal : Nat)
  | now
  | readSystemConf
  -- the `A` and the `AAAA` query, one datagram each
  | queries (name : N) (nameServer : UdpNameServer) (timeout : Nat)
  | connect (address : SocketAddr)
  | tlsConnect (domain : String)
  | handshake
  | sendRequest (request : HttpRequest)
  | frame
deriving DecidableEq

/-- The operations of a client with their answers. The frame that is awaited is the next one of the response. -/
abbrev outbound (N : Type) : Interface where
  Op := Op N
  Ans
    | .tryCurrent => Bool
    | .isCancelled _ => Bool
    | .now => Instant
    | .readSystemConf => Option (List NameServerConfig)
    | .queries _ _ _ => Answer N × Answer N
    | .connect _ => Bool
    | .tlsConnect _ => Bool
    | .handshake => Bool
    | .sendRequest _ => Option HttpResponse
    | .frame => Unit

instance [DecidableEq N] : DecidableEq (outbound N).Op := inferInstanceAs (DecidableEq (Op N))

abbrev Io (N ε : Type) := Prog (outbound N) ε

abbrev ask (o : Op N) : Io N ε ((outbound N).Ans o) := Prog.ask (I := outbound N) o

/-- `Handle::try_current`: whether there is a runtime. -/
abbrev tryCurrent : Io N ε Bool := ask .tryCurrent

abbrev isCancelled (signal : Nat) : Io N ε Bool := ask (.isCancelled signal)

/-- `Instant::now`. -/
abbrev now : Io N ε Instant := ask .now

/-- Whether the operation uses the network. -/
def Op.network : Op N → Bool
  | .tryCurrent | .isCancelled _ | .now | .readSystemConf => false
  | .queries _ _ _ | .connect _ | .tlsConnect _ | .handshake | .sendRequest _ | .frame => true

/-! ## Giving up -/

inductive Interruption where
  | elapsed
  | connectionEnded
deriving DecidableEq

/-- Why an operation may end early: only where the source awaits, and because of the connection only after the
handshake. -/
def Reason : Op N → Type
  | .tryCurrent | .isCancelled _ | .now | .readSystemConf => Empty
  | .queries _ _ _ | .connect _ | .tlsConnect _ | .handshake => Unit
  | .sendRequest _ | .frame => Interruption

/-- The failures that both clients have. -/
structure Failures (ε : Type) where
  runtimeUnavailable : ε
  cancelled : ε
  deadlineExceeded : ε
  transport : ε
  responseBody : ε
  responseTooLarge : ε

/-- The failure of an operation that is given up. -/
def Failures.interrupted (F : Failures ε) : ∀ o : Op N, Reason o → ε
  | .tryCurrent, x | .isCancelled _, x | .now, x | .readSystemConf, x => nomatch x
  | .queries _ _ _, _ | .connect _, _ | .tlsConnect _, _ | .handshake, _ => F.deadlineExceeded
  | .sendRequest _, .elapsed | .frame, .elapsed => F.deadlineExceeded
  | .sendRequest _, .connectionEnded | .frame, .connectionEnded => F.transport

/-- The operations of a client that can be given up. -/
abbrev bounded (N : Type) : Interface := (outbound N).interruptible Reason

/-- `timeout_at` around the client, in which the response is driven together with its connection. -/
def timeoutAt (F : Failures ε) (client : Io N ε α) : Prog (bounded N) ε α :=
  Prog.interruptible (I := outbound N) F.interrupted client

/-! ## The connection and the response -/

/-- A poll of the `poll_fn` of `drive_connection_and_response`: whether the connection is found ended if it is polled,
and what the response future does. -/
structure Turn (I : Interface) where
  connectionEnded : Bool
  events : List (Event I)

/-- `drive_connection_and_response`, in the given polls: the result if one of them is ready. -/
def driveConnectionAndResponse {I : Interface} [DecidableEq I.Op] (transport : ε) :
    Bool → Prog I ε α → List (Turn I) → Option (Except ε α)
  | _, _, [] => none
  | connectionDone, response, turn :: turns =>
      let connectionDone := connectionDone || turn.connectionEnded
      match response.resume turn.events with
      | some (.ret a) => some (.ok a)
      | some (.fail e) => some (.error e)
      | some response =>
          if connectionDone then some (.error transport)
          else driveConnectionAndResponse transport connectionDone response turns
      | none => none

/-! ## Shared steps -/

/-- The checks between two operations. A client without a signal looks at the clock only. -/
def check (F : Failures ε) (signal : Option Nat) (deadline : Instant) : Io N ε Unit := do
  let cancelled ← match signal with
    | some signal => isCancelled signal
    | none => pure false
  if cancelled then
    .fail F.cancelled
  else
    let t ← now
    if deadline ≤ t then
      .fail F.deadlineExceeded
    else
      pure ()

/-- `classify_dns_no_address`. -/
def Failures.classifyDnsNoAddress (F : Failures ε) (ipv4TimedOut ipv6TimedOut : Bool) : ε :=
  if ipv4TimedOut || ipv6TimedOut then F.deadlineExceeded else F.transport

/-- What the two queries come to. -/
def resolved [BEq N] [EquivBEq N] (F : Failures ε) (name : N) (answers : Answer N × Answer N) : Except ε IpAddr :=
  (outcome F.classifyDnsNoAddress ⟨answers.1.polls, resolveRecord name .a answers.1.result⟩
    ⟨answers.2.polls, resolveRecord name .aaaa answers.2.result⟩).2

/-- `resolve_one_address` of a hostname. -/
def resolveHostname [BEq N] [EquivBEq N] (F : Failures ε) (name : N) (nameServer : UdpNameServer) (deadline : Instant) :
    Io N ε IpAddr := do
  let t ← now
  if deadline ≤ t then
    .fail F.deadlineExceeded
  else
    let answers ← ask (.queries name nameServer (deadline - t))
    .lift (resolved F name answers)

/-- `accumulate_within_limit`. -/
def accumulateWithinLimit (F : Failures ε) (total chunkLen limit : Nat) : Except ε Nat := do
  let nextTotal ← okOr (checkedAdd total chunkLen) F.responseTooLarge
  if nextTotal > limit then .error F.responseTooLarge else .ok nextTotal

/-- The loop of `read_body`. -/
def readFrames (F : Failures ε) (signal : Option Nat) (deadline : Instant) (limit : Nat) :
    List BodyFrame → List UInt8 → Io N ε (List UInt8)
  | [], bytes => do
      ask .frame
      pure bytes
  | frame :: frames, bytes => do
      ask .frame
      check F signal deadline
      match frame with
      | .failed => .fail F.responseBody
      | .trailers => readFrames F signal deadline limit frames bytes
      | .data data => do
          let _ ← .lift (accumulateWithinLimit F bytes.length data.length limit)
          readFrames F signal deadline limit frames (bytes ++ data)

/-- An operation that is answered whether it succeeded. -/
def connected (F : Failures ε) (ok : Bool) : Except ε Unit := ensure (ok = true) F.transport

/-- One attempt: an address, a connection, TLS for the domain, the handshake, the request, and the reading of the
response. -/
def attempt (F : Failures ε) (signal : Option Nat) (deadline : Instant) (resolveOneAddress : Io N ε SocketAddr)
    (domain : String) (request : HttpRequest) (read : HttpResponse → Io N ε α) : Io N ε α := do
  check F signal deadline
  let address ← resolveOneAddress
  check F signal deadline
  let tcpStream ← ask (.connect address)
  .lift (connected F tcpStream)
  check F signal deadline
  let tlsStream ← ask (.tlsConnect domain)
  .lift (connected F tlsStream)
  check F signal deadline
  let connection ← ask .handshake
  .lift (connected F connection)
  check F signal deadline
  let response ← ask (.sendRequest request)
  let response ← .lift (okOr response F.transport)
  check F signal deadline
  read response

end PermissionSync.Net
