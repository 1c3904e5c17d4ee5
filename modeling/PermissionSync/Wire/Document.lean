import PermissionSync.Base.Numeral
import PermissionSync.Wire.Access

/-!
# Documents that are written

What `serde_json` writes without whitespace for the documents of the requests, in which every number is an integer, and
a reader of such documents.
-/

namespace PermissionSync.Wire

open PermissionSync.Base

/-- A document whose numbers are integers. -/
inductive Value where
  | null
  | bool (b : Bool)
  | int (z : Int)
  | str (s : String)
  | arr (es : List Value)
  | obj (ms : List (String × Value))

/-! ## Writing -/

def hexByte (n : Nat) : UInt8 := UInt8.ofNat (if n < 10 then 48 + n else 87 + n)

/-- `format_escaped_str_contents`, for one byte. -/
def escapeByte (b : UInt8) : List UInt8 :=
  if b = 34 ∨ b = 92 then [92, b]
  else if b = 8 then [92, 98]
  else if b = 9 then [92, 116]
  else if b = 10 then [92, 110]
  else if b = 12 then [92, 102]
  else if b = 13 then [92, 114]
  else if b < 32 then [92, 117, 48, 48, hexByte (b.toNat / 16), hexByte (b.toNat % 16)]
  else [b]

def writeStr (s : String) : List UInt8 := 34 :: (asBytes s).flatMap escapeByte ++ [34]

def writeNat (n : Nat) : List UInt8 := (decimal n).map asciiByte

def writeInt : Int → List UInt8
  | .ofNat n => writeNat n
  | .negSucc n => 45 :: writeNat (n + 1)

mutual

/-- `serde_json::to_vec`. -/
def write : Value → List UInt8
  | .null => [110, 117, 108, 108]
  | .bool true => [116, 114, 117, 101]
  | .bool false => [102, 97, 108, 115, 101]
  | .int z => writeInt z
  | .str s => writeStr s
  | .arr [] => [91, 93]
  | .arr (e :: es) => 91 :: write e ++ writeElements es
  | .obj [] => [123, 125]
  | .obj ((name, v) :: ms) => 123 :: writeStr name ++ 58 :: write v ++ writeMembers ms

/-- What follows an element. -/
def writeElements : List Value → List UInt8
  | [] => [93]
  | e :: es => 44 :: write e ++ writeElements es

/-- What follows a member. -/
def writeMembers : List (String × Value) → List UInt8
  | [] => [125]
  | (name, v) :: ms => 44 :: writeStr name ++ 58 :: write v ++ writeMembers ms

end

/-! ## Reading -/

/-- An integer without its sign, and no leading zero. -/
def readNat (i : List UInt8) : Option (Nat × List UInt8) :=
  let r := skipDigits i
  if r.head?.any continuesNumber || (i.head? = some 48 && (i.takeWhile isDigit).length ≠ 1) then none
  else (digitsValue ((i.takeWhile isDigit).map fun b => Char.ofNat b.toNat)).map (·, r)

mutual

def readValue : Nat → Reader UInt8 Value
  | 0, _ => none
  | _ + 1, [] => none
  | n + 1, b :: r =>
      if b = 110 then (parseIdent [117, 108, 108] r).map (.null, ·)
      else if b = 116 then (parseIdent [114, 117, 101] r).map (.bool true, ·)
      else if b = 102 then (parseIdent [97, 108, 115, 101] r).map (.bool false, ·)
      else if b = 45 then (readNat r).map fun x => (.int (-x.1), x.2)
      else if isDigit b then (readNat (b :: r)).map fun x => (.int x.1, x.2)
      else if b = 34 then (readStr (b :: r)).map fun x => (.str x.1, x.2)
      else if b = 91 then
        match skipSpaces r with
        | 93 :: r => some (.arr [], r)
        | r => (readElements n r).map fun x => (.arr x.1, x.2)
      else if b = 123 then
        match skipSpaces r with
        | 125 :: r => some (.obj [], r)
        | r => (readMembers n r).map fun x => (.obj x.1, x.2)
      else none

/-- An element, and the others up to the closing bracket. -/
def readElements : Nat → Reader UInt8 (List Value)
  | 0, _ => none
  | n + 1, i => do
      let (e, r) ← readValue n i
      match skipSpaces r with
      | 93 :: r => some ([e], r)
      | 44 :: r =>
          let (es, r) ← readElements n (skipSpaces r)
          some (e :: es, r)
      | _ => none

/-- A member, and the others up to the closing brace. -/
def readMembers : Nat → Reader UInt8 (List (String × Value))
  | 0, _ => none
  | n + 1, i => do
      let (name, r) ← readStr i
      let r ← expectByte 58 r
      let (v, r) ← readValue n (skipSpaces r)
      match skipSpaces r with
      | 125 :: r => some ([(name, v)], r)
      | 44 :: r =>
          let (ms, r) ← readMembers n (skipSpaces r)
          some ((name, v) :: ms, r)
      | _ => none

end

/-- One document, with nothing but whitespace around it. -/
def readDocument (bytes : List UInt8) : Option Value := do
  let (v, r) ← readValue (bytes.length + 1) (skipSpaces bytes)
  if skipSpaces r = [] then some v else none

end PermissionSync.Wire
