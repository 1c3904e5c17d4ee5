import PermissionSync.Net.Dns

/-!
# One address from two queries (`resolve_one_address` of both HTTP clients)

The `A` and the `AAAA` query are futures of one `poll_fn`. A query is pending in some polls and then completes, after
which it must not be polled again. The variables of the closure are kept by family.
-/

namespace PermissionSync.Net

variable {N ε : Type}

/-! ## Queries -/

/-- `NetError`. -/
inductive NetError where
  | timeout
  | other
deriving DecidableEq, Repr

structure DnsQueryOutcome where
  address : Option IpAddr
  timedOut : Bool
deriving DecidableEq

def isHickoryTimeout : NetError → Bool
  | .timeout => true
  | .other => false

/-- `resolve_record`, given what the one datagram was answered. -/
def resolveRecord [BEq N] [EquivBEq N] (name : N) (recordType : RecordType) :
    Except NetError (DnsResponse N) → DnsQueryOutcome
  | .ok response => ⟨responseAddress response name recordType, false⟩
  | .error error => ⟨none, isHickoryTimeout error⟩

/-- A future that is pending in so many polls, and then completes. -/
inductive Query where
  | running (pending : Nat) (outcome : DnsQueryOutcome)
  | completed
deriving DecidableEq

/-- A poll, which panics if the future has completed. -/
def Query.poll : Query → Option (Option DnsQueryOutcome × Query)
  | .running 0 outcome => some (some outcome, .completed)
  | .running (n + 1) outcome => some (none, .running n outcome)
  | .completed => none

/-! ## The closure -/

/-- What the closure keeps of one family. -/
structure Family where
  query : Query
  done : Bool
  address : Option IpAddr
  timedOut : Bool
deriving DecidableEq

def Family.start (query : Query) : Family := ⟨query, false, none, false⟩

def Family.poll (family : Family) : Option Family :=
  if family.done then some family
  else
    match family.query.poll with
    | none => none
    | some (none, query) => some { family with query := query }
    | some (some outcome, query) => some ⟨query, true, outcome.address, outcome.timedOut⟩

structure Race where
  ipv4 : Family
  ipv6 : Family
deriving DecidableEq

def Race.start (ipv4 ipv6 : Query) : Race := ⟨.start ipv4, .start ipv6⟩

/-- What a poll returns. Both families have been polled. -/
def Race.ready (failure : Bool → Bool → ε) (race : Race) : Option (Except ε IpAddr) :=
  match race.ipv4.address.or race.ipv6.address with
  | some address => some (.ok address)
  | none =>
      if race.ipv4.done && race.ipv6.done then some (.error (failure race.ipv4.timedOut race.ipv6.timedOut)) else none

def Race.poll (race : Race) : Option Race := do
  let ipv4 ← race.ipv4.poll
  let ipv6 ← race.ipv6.poll
  some ⟨ipv4, ipv6⟩

/-- At most so many polls: the result, if one of them is ready. -/
def Race.await (failure : Bool → Bool → ε) : Nat → Race → Option (Option (Except ε IpAddr))
  | 0, _ => some none
  | n + 1, race =>
      match race.poll with
      | none => none
      | some race =>
          match race.ready failure with
          | some result => some (some result)
          | none => race.await failure n

/-! ## The outcome -/

/-- A query that has not been polled yet. -/
structure Pending where
  polls : Nat
  outcome : DnsQueryOutcome
deriving DecidableEq

def Pending.query (pending : Pending) : Query := .running pending.polls pending.outcome

/-- In which poll there is a result, and which one: the address of the query that completes first with one, and
otherwise the failure when both have completed. -/
def outcome (failure : Bool → Bool → ε) (ipv4 ipv6 : Pending) : Nat × Except ε IpAddr :=
  match ipv4.outcome.address, ipv6.outcome.address with
  | some a, some b => if ipv4.polls ≤ ipv6.polls then (ipv4.polls, .ok a) else (ipv6.polls, .ok b)
  | some a, none => (ipv4.polls, .ok a)
  | none, some b => (ipv6.polls, .ok b)
  | none, none => (max ipv4.polls ipv6.polls, .error (failure ipv4.outcome.timedOut ipv6.outcome.timedOut))

end PermissionSync.Net
