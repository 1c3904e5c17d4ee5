import PermissionSync.Wire.Lexical

/-!
# Maps and sequences of `serde_json`

How a `Visitor` walks over the members of an object and the elements of an array, and the texts of an object that it
walks over.
-/

namespace PermissionSync.Wire

open PermissionSync.Base

variable {σ M A B : Type}

/-! ## Reading -/

/-- A string, with its opening quote. -/
def readStr : Reader UInt8 String
  | 34 :: i => do
      let (bytes, r) ← parseStr i
      let s ← fromUtf8 bytes
      some (s, r)
  | _ => none

def deserializeString (i : List UInt8) : Option (String × List UInt8) := readStr (skipSpaces i)

def deserializeBool (i : List UInt8) : Option (Bool × List UInt8) :=
  match skipSpaces i with
  | [] => none
  | b :: r =>
      if b = 116 then (parseIdent [114, 117, 101] r).map (true, ·)
      else if b = 102 then (parseIdent [97, 108, 115, 101] r).map (false, ·)
      else none

/-- `MapAccess::next_key_seed`: whether there is a key, and what follows its opening quote. -/
def hasNextKey (first : Bool) (i : List UInt8) : Option (Bool × List UInt8) :=
  match skipSpaces i with
  | [] => none
  | b :: r =>
      if b = 125 then some (false, b :: r)
      else if first then
        if b = 34 then some (true, r) else none
      else if b = 44 then
        match skipSpaces r with
        | [] => none
        | c :: r' => if c = 34 then some (true, r') else none
      else none

/-- The loop of a `visit_map`, in which a key and its value are taken by `visit`. It ends before the closing brace. -/
def visitMap (visit : σ → Reader UInt8 σ) : Nat → Bool → σ → Reader UInt8 σ
  | 0, _, _, _ => none
  | n + 1, first, s, i => do
      let (more, r) ← hasNextKey first i
      if more then do
        let (s, r) ← visit s r
        visitMap visit n false s r
      else some (s, r)

/-- One key and its value, for a visitor that knows two fields. Neither may be repeated, and no other key is known. -/
def visitField (key₁ key₂ : String) (read₁ : Reader UInt8 A) (read₂ : Reader UInt8 B) (seen : Option A × Option B) :
    Reader UInt8 (Option A × Option B) := fun i => do
  let (bytes, r) ← parseStr i
  let key ← fromUtf8 bytes
  if key = key₁ then
    if seen.1.isSome then none
    else do
      let r ← expectByte 58 r
      let (a, r) ← read₁ r
      some ((some a, seen.2), r)
  else if key = key₂ then
    if seen.2.isSome then none
    else do
      let r ← expectByte 58 r
      let (b, r) ← read₂ r
      some ((seen.1, some b), r)
  else none

/-- `SeqAccess::next_element_seed`: whether there is an element, and where it or the closing bracket stands. -/
def hasNextElement (first : Bool) (i : List UInt8) : Option (Bool × List UInt8) :=
  match skipSpaces i with
  | [] => none
  | b :: r =>
      if b = 93 then some (false, b :: r)
      else if first then some (true, b :: r)
      else if b = 44 then
        match skipSpaces r with
        | [] => none
        | c :: r' => if c = 93 then none else some (true, c :: r')
      else none

/-- `Deserializer::end`. -/
def endOfInput (i : List UInt8) : Option Unit := if skipSpaces i = [] then some () else none

/-! ## Texts -/

/-- The text of a member: its name, a colon and its value. -/
def MemberText (key : String) (Value : List UInt8 → Prop) (t : List UInt8) : Prop :=
  ∃ k w₁ w₂ v, t = k ++ w₁ ++ 58 :: w₂ ++ v ∧ Spells k key ∧ Spaces w₁ ∧ Spaces w₂ ∧ Value v

/-- The members up to the closing brace, with a comma before each but the first. -/
inductive MembersText (Text : M → List UInt8 → Prop) : Bool → List M → List UInt8 → Prop
  | nil {first : Bool} {w : List UInt8} : Spaces w → MembersText Text first [] w
  | first {w t ts : List UInt8} {m : M} {ms : List M} : Spaces w → Text m t → MembersText Text false ms ts →
      MembersText Text true (m :: ms) (w ++ t ++ ts)
  | next {w w' t ts : List UInt8} {m : M} {ms : List M} : Spaces w → Spaces w' → Text m t →
      MembersText Text false ms ts → MembersText Text false (m :: ms) (w ++ 44 :: w' ++ t ++ ts)

/-- The text of one of two fields. -/
def FieldText (key₁ key₂ : String) (Value₁ : A → List UInt8 → Prop) (Value₂ : B → List UInt8 → Prop) :
    A ⊕ B → List UInt8 → Prop
  | .inl a => MemberText key₁ (Value₁ a)
  | .inr b => MemberText key₂ (Value₂ b)

/-- The members of an object that has exactly the two fields, each once and in any order. -/
def FieldsText (key₁ key₂ : String) (Value₁ : A → List UInt8 → Prop) (Value₂ : B → List UInt8 → Prop) (a : A) (b : B)
    (t : List UInt8) : Prop :=
  ∃ ms, MembersText (FieldText key₁ key₂ Value₁ Value₂) true ms t ∧ ms.Perm [.inl a, .inr b]

/-- The literals of the booleans. -/
def BoolText : Bool → List UInt8 → Prop
  | true, t => t = [116, 114, 117, 101]
  | false, t => t = [102, 97, 108, 115, 101]

end PermissionSync.Wire
