import PermissionSync.Net.Outbound

/-!
# The protocol of one attempt

What an HTTP client may do next follows from what it has done: each use of the network comes after the one before it has
succeeded, with the arguments that are planned, and after the context has been looked at since then.
-/

namespace PermissionSync.Net

open PermissionSync.Base
open PermissionSync.Glpi (Instant)

variable {N ε α : Type}

inductive Stage where
  | resolving (nameServer : Option UdpNameServer)
  | connecting (ip : IpAddr)
  | securing
  | shaking
  | sending
  | receiving
  | ended
deriving DecidableEq

/-- Where an attempt stands, and what has been seen of the context since the network was last used. -/
structure Standing where
  stage : Stage
  polled : Bool
  clock : Option Instant
deriving DecidableEq

/-- An attempt that has just come to the stage. -/
def Standing.at (stage : Stage) : Standing := ⟨stage, false, none⟩

/-- The attempt comes to the stage if the operation before it succeeded. -/
def Standing.reached (stage : Stage) (ok : Bool) : Standing := .at (if ok then stage else .ended)

/-- What one attempt is for. -/
structure Plan (N : Type) where
  name : Option N
  port : Nat
  domain : String
  request : HttpRequest
  signal : Option Nat
  deadline : Instant

/-- The context was found alive. -/
def Plan.Alive (plan : Plan N) (s : Standing) : Prop :=
  (plan.signal ≠ none → s.polled = true) ∧ ∃ t, s.clock = some t ∧ t < plan.deadline

def Plan.Permits (plan : Plan N) (s : Standing) : Op N → Prop
  | .tryCurrent | .now => True
  | .isCancelled signal => plan.signal = some signal
  | .readSystemConf => ∃ nameServer, s.stage = .resolving nameServer
  | .queries name nameServer timeout => plan.Alive s ∧ s.stage = .resolving (some nameServer) ∧ plan.name = some name ∧
      ∃ t, s.clock = some t ∧ timeout = plan.deadline - t
  | .connect address => plan.Alive s ∧ s.stage = .connecting address.ip ∧ address.port = plan.port
  | .tlsConnect domain => plan.Alive s ∧ s.stage = .securing ∧ domain = plan.domain
  | .handshake => plan.Alive s ∧ s.stage = .shaking
  | .sendRequest request => plan.Alive s ∧ s.stage = .sending ∧ request = plan.request
  | .frame => plan.Alive s ∧ s.stage = .receiving

/-- Where the attempt stands after an operation. -/
def Standing.after [BEq N] [EquivBEq N] (F : Failures ε) (s : Standing) : Event (outbound N) → Standing
  | ⟨.tryCurrent, _⟩ => s
  | ⟨.isCancelled _, cancelled⟩ => { s with polled := !cancelled }
  | ⟨.now, t⟩ => { s with clock := some t }
  | ⟨.readSystemConf, conf⟩ => { s with stage := .resolving (conf.bind firstUdpNameServer) }
  | ⟨.queries name _ _, answers⟩ =>
      match resolved F name answers with
      | .ok ip => .at (.connecting ip)
      | .error _ => .at .ended
  | ⟨.connect _, ok⟩ => .reached .securing ok
  | ⟨.tlsConnect _, ok⟩ => .reached .shaking ok
  | ⟨.handshake, ok⟩ => .reached .sending ok
  | ⟨.sendRequest _, response⟩ => .reached .receiving response.isSome
  | ⟨.frame, _⟩ => .at .receiving

/-- An attempt that was given up. -/
def Standing.stop (_ : Standing) : Standing := .at .ended

/-- The operations of an attempt, the last of which may have been given up, follow the protocol. -/
def Plan.Follows [BEq N] [EquivBEq N] (F : Failures ε) (plan : Plan N) (start : Stage) (t : List (Event (bounded N))) :
    Prop :=
  Along (completing Reason (Standing.after F) Standing.stop) (fun s e => plan.Permits s e.op) (.at start) t

end PermissionSync.Net
