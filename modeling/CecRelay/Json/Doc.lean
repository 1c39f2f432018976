import CecRelay.Json.Token
import CecRelay.Shape

/-!
# JSON documents as written

`Doc` is the tree of a document with everything in it that a reader may care about: members in
their order, repeated ones too, numerals as digits and strings as pieces. `Doc.ofBytes?` reads one
document with nothing after it but blanks.
-/

namespace CecRelay.Json

/-- A document. -/
inductive Doc
  /-- Nothing. -/
  | null
  /-- A truth value. -/
  | bool (b : Bool)
  /-- A number. -/
  | number (n : Numeral)
  /-- A string. -/
  | string (pieces : List Piece)
  /-- A list. -/
  | list (items : List Doc)
  /-- A record. -/
  | record (members : List (List Piece × Doc))

namespace Doc

mutual

/-- The document at the start of the tokens, read in at most `fuel` steps. -/
def read : Nat → List Token → Option (Doc × List Token)
  | 0, _ => none
  | _, [] => none
  | fuel + 1, t :: ts =>
    match t with
    | .null => some (.null, ts)
    | .bool b => some (.bool b, ts)
    | .numeral n => some (.number n, ts)
    | .string ps => some (.string ps, ts)
    | .listOpen =>
      match ts with
      | .listClose :: ts => some (.list [], ts)
      | ts => (readItems fuel ts).map fun (items, ts) => (.list items, ts)
    | .recordOpen =>
      match ts with
      | .recordClose :: ts => some (.record [], ts)
      | ts => (readMembers fuel ts).map fun (members, ts) => (.record members, ts)
    | _ => none

/-- One item, then the rest of its list. -/
def readItems : Nat → List Token → Option (List Doc × List Token)
  | 0, _ => none
  | fuel + 1, ts =>
    match read fuel ts with
    | some (item, .listClose :: ts) => some ([item], ts)
    | some (item, .comma :: ts) =>
      (readItems fuel ts).map fun (items, ts) => (item :: items, ts)
    | _ => none

/-- One member, then the rest of its record. -/
def readMembers : Nat → List Token → Option (List (List Piece × Doc) × List Token)
  | 0, _ => none
  | fuel + 1, .string name :: .colon :: ts =>
    match read fuel ts with
    | some (content, .recordClose :: ts) => some ([(name, content)], ts)
    | some (content, .comma :: ts) =>
      (readMembers fuel ts).map fun (members, ts) => ((name, content) :: members, ts)
    | _ => none
  | _, _ => none

end

/-- The document that the tokens spell, all of them. Each step but the last of a list takes a
token, so twice as many steps as tokens are enough. -/
def ofTokens? (ts : List Token) : Option Doc :=
  match read (2 * ts.length + 1) ts with
  | some (doc, []) => some doc
  | _ => none

/-- The document in the bytes. -/
def ofBytes? (bytes : Bytes) : Option Doc := (tokens? bytes).bind ofTokens?

/-- The names of members as texts; none when one of them is no text. -/
def named? (members : List (List Piece × Doc)) : Option (List (String × Doc)) :=
  members.mapM fun (name, content) => (Piece.text? name).map (·, content)

end Doc

/-- The natural number a numeral is written as: no sign, point or exponent. -/
def Numeral.nat? (n : Numeral) : Option Nat :=
  if n.negative = false ∧ n.fraction = [] ∧ n.exponent = none then
    some (n.whole.foldl (fun value d => value * 10 + d) 0)
  else none

instance : HasShape Doc where
  shape
    | .null => .null
    | .bool b => .bool b
    | .number n => (n.nat?.map Shape.nat).getD .other
    | .string ps => ((Piece.text? ps).map Shape.text).getD .other
    | .list items => .list items
    | .record members => ((Doc.named? members).map Shape.record).getD .other
  isUnit
    | .null => true
    | _ => false

end CecRelay.Json
