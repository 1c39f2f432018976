import CecRelay.Text.Numeral
import CecRelay.Text.Search
import CecRelay.Time.Calendar

/-!
# Lexemes of TOML

Blanks, comments, keys, strings, numbers and dates. Each function takes the lexeme at the start of a
text and gives what follows it, or nothing when there is no such lexeme.
-/

namespace CecRelay.Toml

/-! ### Blanks and ends of lines -/

/-- A blank inside a line. -/
def isSpace (c : Char) : Bool := c == ' ' || c == '\t'

/-- The text after blanks. -/
def skipSpace (s : List Char) : List Char := s.dropWhile isSpace

/-- A character that may stand in a comment. -/
def isCommentChar (c : Char) : Bool := c == '\t' || (' ' ≤ c && c.toNat != 0x7F)

/-- What follows a newline. -/
def newline? : List Char → Option (List Char)
  | '\n' :: s => some s
  | '\r' :: '\n' :: s => some s
  | _ => none

/-- What follows the end of a line, which may be the end of the text. -/
def lineEnd? : List Char → Option (List Char)
  | [] => some []
  | s => newline? s

/-- The text after a comment, if there is one. -/
def skipComment : List Char → List Char
  | '#' :: s => s.dropWhile isCommentChar
  | s => s

/-- What follows the rest of a line in which nothing more is said. -/
def lineRest? (s : List Char) : Option (List Char) := lineEnd? (skipComment (skipSpace s))

/-- The text after blanks, comments and newlines, passed over in at most `fuel` steps. None when a
comment does not end with its line. -/
def skipLines : Nat → List Char → Option (List Char)
  | 0, s => some s
  | fuel + 1, s =>
    match skipSpace s with
    | '#' :: s => (newline? (s.dropWhile isCommentChar)).bind (skipLines fuel)
    | s =>
      match newline? s with
      | some s => skipLines fuel s
      | none => some s

/-! ### Strings -/

/-- The value of a run of hexadecimal digits. -/
def hexValue? (s : List Char) : Option Nat :=
  s.foldlM (fun value c => (Text.digitValue? 16 c).map fun d => value * 16 + d) 0

/-- The character of a number, if it is one. -/
def charOf? (n : Nat) : Option Char := if n.isValidChar then some (Char.ofNat n) else none

/-- The character of an escape of one letter. -/
def escape? : Char → Option Char
  | 'b' => some '\x08'
  | 't' => some '\t'
  | 'n' => some '\n'
  | 'f' => some '\x0C'
  | 'r' => some '\r'
  | '"' => some '"'
  | '\\' => some '\\'
  | _ => none

/-- The character of an escape, after its backslash. -/
def escaped? : List Char → Option (Char × List Char)
  | 'u' :: s =>
    if 4 ≤ s.length then ((hexValue? (s.take 4)).bind charOf?).map (·, s.drop 4) else none
  | 'U' :: s =>
    if 8 ≤ s.length then ((hexValue? (s.take 8)).bind charOf?).map (·, s.drop 8) else none
  | c :: s => (escape? c).map (·, s)
  | [] => none

/-- How a string between single or double quotes is read. -/
structure Quotes where
  /-- The quote. -/
  mark : Char
  /-- A backslash starts an escape. -/
  escapes : Bool

/-- A string in which escapes are read. -/
def basic : Quotes := ⟨'"', true⟩

/-- A string in which nothing is read. -/
def literal : Quotes := ⟨'\'', false⟩

/-- The text of a string on one line, after its opening quote. At most `fuel` characters are
read. -/
def inLine (q : Quotes) : Nat → List Char → Option (List Char × List Char)
  | 0, _ => none
  | _, [] => none
  | fuel + 1, c :: s =>
    if c = q.mark then some ([], s)
    else if c = '\\' ∧ q.escapes then do
      let (c, s) ← escaped? s
      let (text, s) ← inLine q fuel s
      return (c :: text, s)
    else if isCommentChar c then (inLine q fuel s).map fun (text, s) => (c :: text, s)
    else none

/-- The text after blanks and newlines. -/
def skipBlank : List Char → List Char
  | '\r' :: '\n' :: s => skipBlank s
  | c :: s => if isSpace c || c == '\n' then skipBlank s else c :: s
  | [] => []

/-- What follows a backslash at the end of a line: blanks and newlines up to something else. -/
def lineJoin? (s : List Char) : Option (List Char) := (newline? (skipSpace s)).map skipBlank

/-- The text of a string over several lines, after its opening quotes. At most `fuel` characters are
read. The last quotes of a run of four or five belong to the end. -/
def overLines (q : Quotes) : Nat → List Char → Option (List Char × List Char)
  | 0, _ => none
  | _, [] => none
  | fuel + 1, c :: s =>
    if c = q.mark then
      let run := ((c :: s).takeWhile (· == q.mark)).length
      if 3 ≤ run then
        let inside := min (run - 3) 2
        some (List.replicate inside c, (c :: s).drop (inside + 3))
      else (overLines q fuel s).map fun (text, s) => (c :: text, s)
    else if c = '\\' ∧ q.escapes then
      match lineJoin? s with
      | some s => overLines q fuel s
      | none => do
        let (c, s) ← escaped? s
        let (text, s) ← overLines q fuel s
        return (c :: text, s)
    else if isCommentChar c then (overLines q fuel s).map fun (text, s) => (c :: text, s)
    else do
      let s ← newline? (c :: s)
      let (text, s) ← overLines q fuel s
      return ('\n' :: text, s)

/-- The text of a string, which must start with the quote. -/
def quoted? (q : Quotes) : List Char → Option (List Char × List Char)
  | a :: b :: c :: s =>
    if a = q.mark ∧ b = q.mark ∧ c = q.mark then
      overLines q (s.length + 1) ((newline? s).getD s)
    else if a = q.mark then inLine q (s.length + 3) (b :: c :: s)
    else none
  | a :: s => if a = q.mark then inLine q (s.length + 1) s else none
  | [] => none

/-! ### Keys -/

/-- A character of a bare key. -/
def isKeyChar (c : Char) : Bool := c.isAlphanum || c == '_' || c == '-'

/-- One part of a key. -/
def keyPart? (s : List Char) : Option (String × List Char) :=
  match s with
  | '"' :: rest => (inLine basic (rest.length + 1) rest).map fun (t, s) => (String.ofList t, s)
  | '\'' :: rest => (inLine literal (rest.length + 1) rest).map fun (t, s) => (String.ofList t, s)
  | s =>
    match s.takeWhile isKeyChar with
    | [] => none
    | key => some (String.ofList key, s.dropWhile isKeyChar)

/-- The parts of a key with dots between them, read in at most `fuel` steps. -/
def keyParts? : Nat → List Char → Option (List String × List Char)
  | 0, _ => none
  | fuel + 1, s => do
    let (part, s) ← keyPart? (skipSpace s)
    match skipSpace s with
    | '.' :: s => (keyParts? fuel s).map fun (parts, s) => (part :: parts, s)
    | s => return ([part], s)

/-- No key and no value is nested as deep as this. -/
def depthLimit : Nat := 80

/-- A key: the tables on the way and the name in the last. -/
def key? (s : List Char) : Option (List String × String × List Char) := do
  let (parts, s) ← keyParts? (s.length + 1) s
  let name ← parts.getLast?
  if parts.length < depthLimit then return (parts.dropLast, name, s) else none

/-! ### Numbers -/

/-- The digits of a run, in which an underscore may stand between two. -/
def run? (isDigit : Char → Bool) : List Char → Option (List Char × List Char)
  | [] => none
  | c :: s => if isDigit c then some (more c s) else none
where
  /-- The rest of a run after a digit. -/
  more (c : Char) : List Char → List Char × List Char
    | [] => ([c], [])
    | '_' :: d :: s =>
      if isDigit d then let (run, s) := more d s; (c :: run, s) else ([c], '_' :: d :: s)
    | d :: s => if isDigit d then let (run, s) := more d s; (c :: run, s) else ([c], d :: s)

/-- A sign, if there is one; true for minus. -/
def sign : List Char → Bool × List Char
  | '-' :: s => (true, s)
  | '+' :: s => (false, s)
  | s => (false, s)

/-- The digits of a decimal integer: a zero stands alone. -/
def decimal? : List Char → Option (List Char × List Char)
  | '0' :: s => some (['0'], s)
  | s => run? Text.isDigit s

/-- The integer, if it has sixty-four bits. -/
def word? (i : Int) : Option Int :=
  if -0x8000000000000000 ≤ i ∧ i < 0x8000000000000000 then some i else none

/-- The value of digits of a radix. -/
def valueIn (radix : Nat) (s : List Char) : Nat :=
  s.foldl (fun value c => value * radix + (Text.digitValue? radix c).getD 0) 0

/-- An integer after the mark of its radix. -/
def radixInteger? (radix : Nat) (s : List Char) : Option (Int × List Char) := do
  let (run, s) ← run? (fun c => (Text.digitValue? radix c).isSome) s
  return (← word? (valueIn radix run), s)

/-- An integer. -/
def integer? : List Char → Option (Int × List Char)
  | '0' :: 'x' :: s => radixInteger? 16 s
  | '0' :: 'o' :: s => radixInteger? 8 s
  | '0' :: 'b' :: s => radixInteger? 2 s
  | s => do
    let (minus, s) := sign s
    let (run, s) ← decimal? s
    let value := Int.ofNat (Text.decimalValue run)
    return (← word? (if minus then -value else value), s)

/-- The fraction of a float with its point. -/
def fractionDigits? : List Char → Option (List Char × List Char)
  | '.' :: s => run? Text.isDigit s
  | _ => none

/-- The exponent of a float. -/
def exponent? : List Char → Option (Int × List Char)
  | e :: s =>
    if e = 'e' ∨ e = 'E' then do
      let (minus, s) := sign s
      let (run, s) ← run? Text.isDigit s
      let value := Int.ofNat (Text.decimalValue run)
      return (if minus then -value else value, s)
    else none
  | [] => none

/-- The decimal `digits · 10^exponent` is past the largest float. -/
def overflows (digits : List Char) (exponent : Int) : Bool :=
  let digits := digits.dropWhile (· == '0')
  let first := exponent + digits.length
  if digits = [] ∨ first < 300 then false
  else if 320 < first then true
  else (Float.ofScientific (Text.decimalValue digits) (exponent < 0) exponent.natAbs).isInf

/-- The fraction and the exponent of a float, of which one must be there. -/
def scaling? (s : List Char) : Option (List Char × Int × List Char) :=
  match exponent? s with
  | some (e, s) => some ([], e, s)
  | none =>
    (fractionDigits? s).map fun (fraction, s) =>
      match exponent? s with
      | some (e, s) => (fraction, e, s)
      | none => (fraction, 0, s)

/-- What follows a float. One past the largest is no float, unless it is negative. -/
def float? (s : List Char) : Option (List Char) :=
  let (minus, s) := sign s
  match s with
  | 'i' :: 'n' :: 'f' :: s => some s
  | 'n' :: 'a' :: 'n' :: s => some s
  | s => do
    let (whole, s) ← decimal? s
    let (fraction, exponent, s) ← scaling? s
    if !minus && overflows (whole ++ fraction) (exponent - fraction.length) then none
    else return s

/-! ### Dates and times of day -/

/-- A number of exactly `width` digits between `low` and `high`. -/
def fixed? (width low high : Nat) (s : List Char) : Option (Nat × List Char) :=
  let run := s.take width
  let value := Text.decimalValue run
  if run.length = width ∧ run.all Text.isDigit ∧ low ≤ value ∧ value ≤ high then
    some (value, s.drop width)
  else none

/-- What follows a mark. -/
def mark? (c : Char) : List Char → Option (List Char)
  | d :: s => if d = c then some s else none
  | [] => none

/-- What follows a day. -/
def day? (s : List Char) : Option (List Char) := do
  let (year, s) ← fixed? 4 0 9999 s
  let s ← mark? '-' s
  let (month, s) ← fixed? 2 1 12 s
  let s ← mark? '-' s
  let (day, s) ← fixed? 2 1 31 s
  if day ≤ Time.daysIn year month then return s else none

/-- What follows a fraction of a second. -/
def secondFraction (s : List Char) : List Char :=
  match s with
  | '.' :: c :: rest => if Text.isDigit c then rest.dropWhile Text.isDigit else s
  | s => s

/-- What follows a time of day. -/
def time? (s : List Char) : Option (List Char) := do
  let (_, s) ← fixed? 2 0 23 s
  let s ← mark? ':' s
  let (_, s) ← fixed? 2 0 59 s
  let s ← mark? ':' s
  let (_, s) ← fixed? 2 0 60 s
  return secondFraction s

/-- What follows an offset from UTC. -/
def offset? : List Char → Option (List Char)
  | 'Z' :: s => some s
  | 'z' :: s => some s
  | c :: s =>
    if c = '+' ∨ c = '-' then do
      let (_, s) ← fixed? 2 0 23 s
      let s ← mark? ':' s
      let (_, s) ← fixed? 2 0 59 s
      return s
    else none
  | [] => none

/-- What follows a time of day and, after it, an offset. -/
def timeAndOffset? (s : List Char) : Option (List Char) := do
  let s ← time? s
  return (offset? s).getD s

/-- What follows a date, a time of day or both. -/
def date? (s : List Char) : Option (List Char) :=
  match day? s with
  | some s =>
    match s with
    | c :: rest => if c = 'T' ∨ c = 't' ∨ c = ' ' then some ((timeAndOffset? rest).getD s) else some s
    | [] => some []
  | none => time? s

end CecRelay.Toml
