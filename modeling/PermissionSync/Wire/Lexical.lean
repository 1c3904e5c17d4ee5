import PermissionSync.Base.Reader
import PermissionSync.Base.Utf8
import PermissionSync.Wire.Json

/-!
# JSON texts and how `serde_json` reads them

The grammar of JSON over bytes, and the readers of `serde_json::Deserializer` over a slice: a value that is skipped,
and a string that is decoded.
-/

namespace PermissionSync.Wire

open PermissionSync.Base

/-! ## Whitespace and numbers -/

def skipSpaces (i : List UInt8) : List UInt8 := i.dropWhile isJsonWhitespace

def Spaces (w : List UInt8) : Prop := ∀ b ∈ w, isJsonWhitespace b = true

def isDigit (b : UInt8) : Bool := 48 ≤ b && b ≤ 57

def Digits (ds : List UInt8) : Prop := ∀ b ∈ ds, isDigit b = true

def skipDigits (i : List UInt8) : List UInt8 := i.dropWhile isDigit

/-- The integer part of a number: no zero stands before another digit. -/
inductive IntegerText : List UInt8 → Prop
  | zero : IntegerText [48]
  | digits {d : UInt8} {ds : List UInt8} : isDigit d = true → d ≠ 48 → Digits ds → IntegerText (d :: ds)

inductive FractionText : List UInt8 → Prop
  | none : FractionText []
  | digits {d : UInt8} {ds : List UInt8} : isDigit d = true → Digits ds → FractionText (46 :: d :: ds)

inductive ExponentText : List UInt8 → Prop
  | none : ExponentText []
  | digits {e : UInt8} {sign : List UInt8} {d : UInt8} {ds : List UInt8} : e = 101 ∨ e = 69 →
      sign = [] ∨ sign = [43] ∨ sign = [45] → isDigit d = true → Digits ds → ExponentText (e :: sign ++ d :: ds)

/-- A number without its sign. -/
def UnsignedText (t : List UInt8) : Prop :=
  ∃ int frac exp, t = int ++ frac ++ exp ∧ IntegerText int ∧ FractionText frac ∧ ExponentText exp

/-- A digit, and then all that follow. -/
def someDigits : List UInt8 → Option (List UInt8)
  | [] => none
  | b :: r => if isDigit b then some (skipDigits r) else none

def ignoreExponent : List UInt8 → Option (List UInt8)
  | [] => some []
  | b :: r =>
      if b = 101 ∨ b = 69 then
        match r with
        | [] => none
        | s :: r' => if s = 43 ∨ s = 45 then someDigits r' else someDigits r
      else some (b :: r)

def ignoreDecimal : List UInt8 → Option (List UInt8)
  | [] => some []
  | b :: r => if b = 46 then (someDigits r).bind ignoreExponent else ignoreExponent (b :: r)

def ignoreInteger : List UInt8 → Option (List UInt8)
  | [] => none
  | b :: r =>
      if b = 48 then
        if r.head?.any isDigit then none else ignoreDecimal r
      else if isDigit b then ignoreDecimal (skipDigits r)
      else none

/-- A byte that goes on with a number. -/
def continuesNumber (b : UInt8) : Bool := isDigit b || b == 46 || b == 101 || b == 69

/-! ## Strings -/

def hexDigit (b : UInt8) : Option Nat :=
  if isDigit b then some (b.toNat - 48)
  else if 65 ≤ b ∧ b ≤ 70 then some (b.toNat - 55)
  else if 97 ≤ b ∧ b ≤ 102 then some (b.toNat - 87)
  else none

/-- The value of four hexadecimal digits. -/
def hexValue (t : List UInt8) : Option Nat :=
  if t.length = 4 then (t.mapM hexDigit).map fun ds => ds.foldl (fun n d => 16 * n + d) 0 else none

def decodeHexEscape (i : List UInt8) : Option (Nat × List UInt8) := (hexValue (i.take 4)).map (·, i.drop 4)

/-- The character of an escape of one letter. -/
def shortEscape (b : UInt8) : Option UInt8 :=
  if b = 34 ∨ b = 92 ∨ b = 47 then some b
  else if b = 98 then some 8
  else if b = 102 then some 12
  else if b = 110 then some 10
  else if b = 114 then some 13
  else if b = 116 then some 9
  else none

/-- The bytes of a code point. -/
def encode (n : Nat) : List UInt8 := String.utf8EncodeChar (Char.ofNat n)

/-- The code point of two surrogates. -/
def surrogatePair (n m : Nat) : Nat := (n - 0xD800) * 1024 + (m - 0xDC00) + 0x10000

/-- A unit of a string, with the bytes it stands for. -/
inductive StringUnit : List UInt8 → List UInt8 → Prop
  | plain {b : UInt8} : b ≠ 34 → b ≠ 92 → 32 ≤ b → StringUnit [b] [b]
  | short {b c : UInt8} : shortEscape b = some c → StringUnit [92, b] [c]
  | unicode {t : List UInt8} {n : Nat} : hexValue t = some n → n < 0xD800 ∨ 0xDFFF < n →
      StringUnit (92 :: 117 :: t) (encode n)
  | pair {t t' : List UInt8} {n m : Nat} : hexValue t = some n → 0xD800 ≤ n ∧ n ≤ 0xDBFF →
      hexValue t' = some m → 0xDC00 ≤ m ∧ m ≤ 0xDFFF →
        StringUnit (92 :: 117 :: (t ++ 92 :: 117 :: t')) (encode (surrogatePair n m))

/-- A unit of a string that is not decoded: surrogates need not be paired. -/
inductive RawUnit : List UInt8 → List UInt8 → Prop
  | plain {b : UInt8} : b ≠ 34 → b ≠ 92 → 32 ≤ b → RawUnit [b] []
  | short {b c : UInt8} : shortEscape b = some c → RawUnit [92, b] []
  | unicode {t : List UInt8} {n : Nat} : hexValue t = some n → RawUnit (92 :: 117 :: t) []

/-- The second half of a pair of surrogates. -/
def trailingSurrogate (n : Nat) : List UInt8 → Option (List UInt8 × List UInt8)
  | 92 :: 117 :: r => do
      let (m, r) ← decodeHexEscape r
      if 0xDC00 ≤ m ∧ m ≤ 0xDFFF then some (encode (surrogatePair n m), r) else none
  | _ => none

/-- `parse_unicode_escape`. -/
def parseUnicodeEscape (i : List UInt8) : Option (List UInt8 × List UInt8) := do
  let (n, r) ← decodeHexEscape i
  if 0xDC00 ≤ n ∧ n ≤ 0xDFFF then none
  else if n < 0xD800 ∨ 0xDBFF < n then some (encode n, r)
  else trailingSurrogate n r

def parseEscape : Reader UInt8 (List UInt8)
  | [] => none
  | b :: r => if b = 117 then parseUnicodeEscape r else (shortEscape b).map fun c => ([c], r)

def ignoreEscape : Reader UInt8 (List UInt8)
  | [] => none
  | b :: r =>
      if b = 117 then (decodeHexEscape r).map fun x => ([], x.2) else (shortEscape b).map fun _ => ([], r)

/-- A unit whose escapes are read by the given reader, and whose other bytes are kept if `keep` is set. -/
def stringUnit (keep : Bool) (escape : Reader UInt8 (List UInt8)) : Reader UInt8 (List UInt8)
  | [] => none
  | b :: r => if b = 92 then escape r else if b < 32 then none else some (if keep then [b] else [], r)

/-- `parse_str` after the opening quote: the decoded bytes. -/
def parseStr (i : List UInt8) : Option (List UInt8 × List UInt8) :=
  readUnits 34 (stringUnit true parseEscape) (i.length + 1) i

/-- `ignore_str` after the opening quote. -/
def ignoreStr (i : List UInt8) : Option (List UInt8) :=
  (readUnits 34 (stringUnit false ignoreEscape) (i.length + 1) i).map Prod.snd

/-- A string that spells the text. -/
def Spells (t : List UInt8) (name : String) : Prop := ∃ cs, t = 34 :: cs ++ [34] ∧ Units StringUnit cs (asBytes name)

def StringText (t : List UInt8) : Prop := ∃ cs ds, t = 34 :: cs ++ [34] ∧ Units RawUnit cs ds

/-! ## Values -/

inductive Kind where
  | value
  | elements
  | members
deriving DecidableEq

/-- The values, the elements of an array with the closing bracket, and the members of an object with the closing
brace. -/
inductive Grammar : Kind → List UInt8 → Prop
  | nullLiteral : Grammar .value [110, 117, 108, 108]
  | trueLiteral : Grammar .value [116, 114, 117, 101]
  | falseLiteral : Grammar .value [102, 97, 108, 115, 101]
  | unsigned {t : List UInt8} : UnsignedText t → Grammar .value t
  | negative {t : List UInt8} : UnsignedText t → Grammar .value (45 :: t)
  | string {t : List UInt8} : StringText t → Grammar .value t
  | emptyArray {w : List UInt8} : Spaces w → Grammar .value (91 :: w ++ [93])
  | array {w t : List UInt8} : Spaces w → Grammar .elements t → Grammar .value (91 :: w ++ t)
  | emptyObject {w : List UInt8} : Spaces w → Grammar .value (123 :: w ++ [125])
  | object {w t : List UInt8} : Spaces w → Grammar .members t → Grammar .value (123 :: w ++ t)
  | lastElement {t w : List UInt8} : Grammar .value t → Spaces w → Grammar .elements (t ++ w ++ [93])
  | element {t w w' ts : List UInt8} : Grammar .value t → Spaces w → Spaces w' → Grammar .elements ts →
      Grammar .elements (t ++ w ++ 44 :: w' ++ ts)
  | lastMember {k w₁ w₂ t w : List UInt8} : StringText k → Spaces w₁ → Spaces w₂ → Grammar .value t → Spaces w →
      Grammar .members (k ++ w₁ ++ 58 :: w₂ ++ t ++ w ++ [125])
  | member {k w₁ w₂ t w w' ts : List UInt8} : StringText k → Spaces w₁ → Spaces w₂ → Grammar .value t → Spaces w →
      Spaces w' → Grammar .members ts → Grammar .members (k ++ w₁ ++ 58 :: w₂ ++ t ++ w ++ 44 :: w' ++ ts)

/-- The text of one JSON value. -/
abbrev ValueText (t : List UInt8) : Prop := Grammar .value t

/-- `parse_ident`. -/
def parseIdent (ident i : List UInt8) : Option (List UInt8) :=
  if i.take ident.length = ident then some (i.drop ident.length) else none

/-- Whitespace and a given byte. -/
def expectByte (b : UInt8) (i : List UInt8) : Option (List UInt8) :=
  match skipSpaces i with
  | [] => none
  | c :: r => if c = b then some r else none

/-- After an opening bracket: the closing one, or what the bracket encloses. -/
def closedOr (close : UInt8) (enclosed : List UInt8 → Option (List UInt8)) (i : List UInt8) : Option (List UInt8) :=
  match skipSpaces i with
  | [] => none
  | b :: r => if b = close then some r else enclosed (b :: r)

/-- After a value in brackets: a comma and more, or the closing bracket. -/
def closedOrMore (close : UInt8) (more : List UInt8 → Option (List UInt8)) (i : List UInt8) : Option (List UInt8) :=
  match skipSpaces i with
  | [] => none
  | b :: r => if b = 44 then more (skipSpaces r) else if b = close then some r else none

/-- `ignore_value` after whitespace, with the stack of open brackets as recursion. -/
def ignore : Nat → Kind → List UInt8 → Option (List UInt8)
  | 0, _, _ => none
  | _ + 1, _, [] => none
  | n + 1, .value, b :: r =>
      if b = 110 then parseIdent [117, 108, 108] r
      else if b = 116 then parseIdent [114, 117, 101] r
      else if b = 102 then parseIdent [97, 108, 115, 101] r
      else if b = 45 then ignoreInteger r
      else if isDigit b then ignoreInteger (b :: r)
      else if b = 34 then ignoreStr r
      else if b = 91 then closedOr 93 (ignore n .elements) r
      else if b = 123 then closedOr 125 (ignore n .members) r
      else none
  | n + 1, .elements, b :: r => (ignore n .value (b :: r)).bind (closedOrMore 93 (ignore n .elements))
  | n + 1, .members, b :: r =>
      if b = 34 then do
        let r ← ignoreStr r
        let r ← expectByte 58 r
        let r ← ignore n .value (skipSpaces r)
        closedOrMore 125 (ignore n .members) r
      else none

def ignoreValue (i : List UInt8) : Option (List UInt8) := ignore (2 * i.length + 2) .value i

end PermissionSync.Wire
