import PermissionSync.Base.Closure

/-!
# Addresses in DNS responses (`response_address` of both HTTP clients)

Names are those of the DNS library, with its comparison. The parts of a response that are not read here are left out.
-/

namespace PermissionSync.Net

open PermissionSync.Base

inductive ResponseCode where
  | noError
  | other (code : Nat)
deriving DecidableEq

inductive RecordType where
  | a
  | aaaa
  | cname
  | other (code : Nat)
deriving DecidableEq

inductive IpAddr where
  | v4 (address : BitVec 32)
  | v6 (address : BitVec 128)
deriving DecidableEq

/-- `RData`. A record without data has a type only. -/
inductive RData (N : Type) where
  | a (address : BitVec 32)
  | aaaa (address : BitVec 128)
  | cname (canonicalName : N)
  | other (type : RecordType)

structure Record (N : Type) where
  name : N
  data : RData N

structure DnsResponse (N : Type) where
  responseCode : ResponseCode
  truncation : Bool
  answers : List (Record N)

variable {N : Type}

def RData.recordType : RData N → RecordType
  | .a _ => .a
  | .aaaa _ => .aaaa
  | .cname _ => .cname
  | .other type => type

/-- The target of a `CNAME` record. -/
def Record.canonicalName (record : Record N) : Option N :=
  match record.data with
  | .cname canonicalName => some canonicalName
  | _ => none

variable [BEq N] [EquivBEq N]

/-- The loop that accepts the canonical names of accepted names. -/
def acceptedNames (answers : List (Record N)) (name : N) : List N :=
  closure Record.name Record.canonicalName answers [name]

/-- The address of a record, if it is of the type and its owner is accepted. -/
def recordAddress (acceptedNames : List N) (recordType : RecordType) (record : Record N) : Option IpAddr :=
  if !known acceptedNames record.name || record.data.recordType ≠ recordType then none
  else
    match recordType, record.data with
    | .a, .a address => some (.v4 address)
    | .aaaa, .aaaa address => some (.v6 address)
    | _, _ => none

def responseAddress (response : DnsResponse N) (name : N) (recordType : RecordType) : Option IpAddr :=
  if response.responseCode ≠ .noError || response.truncation then none
  else response.answers.findSome? (recordAddress (acceptedNames response.answers name) recordType)

end PermissionSync.Net

namespace PermissionSync.Glpi

open PermissionSync.Net

/-- The version of `permissionsync-adapter-glpi/src/transport.rs`. -/
def responseAddress {N : Type} [BEq N] [EquivBEq N] (response : DnsResponse N) (name : N) (recordType : RecordType) :
    Option IpAddr :=
  Net.responseAddress response name recordType

end PermissionSync.Glpi

namespace PermissionSync.GenericRest

open PermissionSync.Net

/-- The version of `permissionsync-provider-generic-rest/src/client.rs`. -/
def responseAddress {N : Type} [BEq N] [EquivBEq N] (response : DnsResponse N) (name : N) (recordType : RecordType) :
    Option IpAddr :=
  Net.responseAddress response name recordType

end PermissionSync.GenericRest
