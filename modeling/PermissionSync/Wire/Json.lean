import Mathlib

/-!
# JSON documents and how serde reads them

A document keeps its members in order and with repetitions, as the text has them. `serde_json::Value` keeps one
member for each name, at the place of the first and with the value of the last. A derived struct is read from an
object of its fields or from an array of its field values in declaration order.
-/

namespace PermissionSync.Wire

/-- A JSON number: an integer literal, or a finite binary floating-point value. -/
inductive Number where
  | int (z : Int)
  | float (q : ℚ)
deriving DecidableEq

/-- A JSON value as its text spells it. -/
inductive Json where
  | null
  | bool (b : Bool)
  | num (n : Number)
  | str (s : String)
  | arr (es : List Json)
  | obj (ms : List (String × Json))

/-- `Number::as_u64`. -/
def Number.asU64 : Number → Option Nat
  | .int z => if 0 ≤ z ∧ z < 2 ^ 64 then some z.toNat else none
  | .float _ => none

namespace Json

def asU64 : Json → Option Nat
  | .num n => n.asU64
  | _ => none

def asStr : Json → Option String
  | .str s => some s
  | _ => none

def asArray : Json → Option (List Json)
  | .arr es => some es
  | _ => none

/-- Inserting a member: a name that is present keeps its place and gets the new value. -/
def insertMember (ms : List (String × Json)) (m : String × Json) : List (String × Json) :=
  if ms.any (fun x => x.1 == m.1) then ms.map fun x => if x.1 == m.1 then m else x else ms ++ [m]

/-- `Value::as_object`: the members with repetitions resolved. -/
def asObject : Json → Option (List (String × Json))
  | .obj ms => some (ms.foldl insertMember [])
  | _ => none

/-- A natural number as JSON. -/
def nat (n : Nat) : Json := .num (.int n)

end Json

/-- The value of a member. -/
def member (ms : List (String × Json)) (name : String) : Option Json :=
  (ms.find? fun m => m.1 == name).map Prod.snd

/-- How a derived `Deserialize` reads a struct with the given fields: the value of each field that is present.
An object may not repeat a field, and may not have another member when unknown fields are denied; an array gives
the values of the first fields and may not be longer. -/
def structFields (names : List String) (denyUnknown : Bool) : Json → Option (List (Option Json))
  | .obj ms =>
      if (names.all fun n => ms.countP (fun m => m.1 == n) ≤ 1) &&
          (!denyUnknown || ms.all fun m => names.contains m.1) then
        some (names.map fun n => member ms n)
      else none
  | .arr vs =>
      if vs.length ≤ names.length then
        some (vs.map some ++ List.replicate (names.length - vs.length) none)
      else none
  | _ => none

/-- A received text: its bytes, and the document `serde_json` reads in them, if it reads one. -/
structure Text where
  bytes : List UInt8
  json : Option Json

/-- The whitespace of JSON. -/
def isJsonWhitespace (b : UInt8) : Bool := b = 32 || b = 9 || b = 10 || b = 13

/-- `serde_json` reads one value, with nothing but whitespace around it; `spells` is the grammar of the values. -/
def Text.ReadsOne (spells : List UInt8 → Json → Prop) (text : Text) : Prop :=
  ∀ j, text.json = some j ↔ ∃ before value after, text.bytes = before ++ value ++ after ∧
    (∀ b ∈ before ++ after, isJsonWhitespace b = true) ∧ spells value j

/-- The text is one value that has the property, with nothing but whitespace around it. -/
def Text.IsOne (spells : List UInt8 → Json → Prop) (text : Text) (P : Json → Prop) : Prop :=
  ∃ before value after j, text.bytes = before ++ value ++ after ∧
    (∀ b ∈ before ++ after, isJsonWhitespace b = true) ∧ spells value j ∧ P j

theorem Text.ReadsOne.isOne_iff {spells : List UInt8 → Json → Prop} {text : Text} (h : text.ReadsOne spells)
    {P : Json → Prop} : text.IsOne spells P ↔ ∃ j, text.json = some j ∧ P j := by
  constructor
  · rintro ⟨before, value, after, j, hbytes, hspace, hspells, hj⟩
    exact ⟨j, (h j).mpr ⟨before, value, after, hbytes, hspace, hspells⟩, hj⟩
  · rintro ⟨j, hjson, hj⟩
    obtain ⟨before, value, after, hbytes, hspace, hspells⟩ := (h j).mp hjson
    exact ⟨before, value, after, j, hbytes, hspace, hspells, hj⟩

/-- `u8::is_ascii_whitespace`. -/
def isAsciiWhitespace (b : UInt8) : Bool := b = 32 || b = 9 || b = 10 || b = 12 || b = 13

/-- The bytes without ASCII whitespace at both ends. -/
def trimAscii (bytes : List UInt8) : List UInt8 :=
  ((bytes.dropWhile isAsciiWhitespace).reverse.dropWhile isAsciiWhitespace).reverse

/-- The bytes of the literal `true`. -/
def trueLiteral : List UInt8 := [116, 114, 117, 101]

end PermissionSync.Wire
