import PermissionSync.Base.Numeral
import PermissionSync.Base.Result
import PermissionSync.Core.Ports
import PermissionSync.Wire.Access

/-!
# The success envelope (`permissionsync-provider-generic-rest/src/wire.rs`)

The derived `ResponseEnvelope` is read by `serde_json` from a map of its fields or from a sequence of their values.
-/

namespace PermissionSync.GenericRest

open PermissionSync.Base PermissionSync.Core PermissionSync.Wire

inductive ProviderFailure where
  | runtimeUnavailable
  | cancelled
  | deadlineExceeded
  | invalidAuthorization
  | requestConstruction
  | requestSerialization
  | transport
  | unexpectedStatus
  | responseMetadata
  | responseBody
  | responseTooLarge
  | responseEnvelope
deriving DecidableEq, Repr

/-! ## The fields -/

/-- The value of decimal digits. -/
def numeralValue (ds : List UInt8) : Nat := ds.foldl (fun n d => 10 * n + (d.toNat - 48)) 0

/-- A number that goes on after its integer part, or does not fit, is a float, which an unsigned field refuses. -/
def visitU64 (ds r : List UInt8) : Option (Nat × List UInt8) :=
  if r.head?.any continuesNumber then none
  else if numeralValue ds < u64Bound then some (numeralValue ds, r)
  else none

/-- `deserialize_u64`. A number with a sign is negative or a float. -/
def deserializeU64 (i : List UInt8) : Option (Nat × List UInt8) :=
  match skipSpaces i with
  | [] => none
  | b :: r =>
      if b = 48 then visitU64 [b] r
      else if isDigit b then visitU64 (b :: r.takeWhile isDigit) (skipDigits r)
      else none

/-- `deserialize_raw_value`: the bytes of the value, if they are UTF-8. -/
def deserializeRawValue (i : List UInt8) : Option (String × List UInt8) := do
  let start := skipSpaces i
  let r ← ignoreValue start
  let raw ← fromUtf8 (start.take (start.length - r.length))
  some (raw, r)

/-! ## The derived struct -/

structure ResponseEnvelope where
  version : Nat
  payload : String

/-- One member, in the loop of the derived `visit_map`. -/
def visitMember : Option Nat × Option String → Reader UInt8 (Option Nat × Option String) :=
  visitField "version" "payload" deserializeU64 deserializeRawValue

/-- The next element, which a struct must find. -/
def nextElement (first : Bool) (i : List UInt8) : Option (List UInt8) := do
  let (more, r) ← hasNextElement first i
  if more then some r else none

def visitSeq (i : List UInt8) : Option (ResponseEnvelope × List UInt8) := do
  let r ← nextElement true i
  let (version, r) ← deserializeU64 r
  let r ← nextElement false r
  let (payload, r) ← deserializeRawValue r
  some (⟨version, payload⟩, r)

/-- `ResponseEnvelope::deserialize`. -/
def deserializeEnvelope (i : List UInt8) : Option (ResponseEnvelope × List UInt8) :=
  match skipSpaces i with
  | [] => none
  | b :: r =>
      if b = 91 then do
        let (envelope, r) ← visitSeq r
        let r ← expectByte 93 r
        some (envelope, r)
      else if b = 123 then do
        let ((version, payload), r) ← visitMap visitMember (r.length + 1) true (none, none) r
        let version ← version
        let payload ← payload
        let r ← expectByte 125 r
        some (⟨version, payload⟩, r)
      else none

/-! ## The response -/

/-- `OpaquePayload::try_from`: the text is one JSON value. -/
def opaquePayload (value : String) : Option String := do
  let (raw, r) ← deserializeRawValue (asBytes value)
  if skipSpaces r = [] then some raw else none

def parseSuccessEnvelope (body : List UInt8) : Except ProviderFailure DesiredStateEnvelope := do
  let (envelope, r) ← okOr (deserializeEnvelope body) .responseEnvelope
  ensure (skipSpaces r = []) .responseEnvelope
  let payload ← okOr (opaquePayload envelope.payload) .responseEnvelope
  return ⟨envelope.version, payload⟩

end PermissionSync.GenericRest
