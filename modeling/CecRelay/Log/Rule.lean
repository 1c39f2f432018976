import CecRelay.Log.Level
import CecRelay.Log.Pattern
import CecRelay.Text.Blank
import CecRelay.Text.Numeral
import CecRelay.Text.Word

/-!
# Rules of a filter

A rule is a threshold, the name of a source, or a source with a threshold behind an equals sign.
Between the source and the equals sign brackets may stand, with the name of a span of time and, in
braces, the name of a field that a record must have. A rule without a threshold lets everything
through.

The blanks around a rule are passed over while it is read, but its parts are cut out of the text with
the blanks still in front. So a rule with blanks in front of it gets its parts from as many bytes too
far to the left, and when such a cut would go through a character the program breaks off. Blanks
behind a rule belong to its last part.
-/

namespace CecRelay.Log

/-- A field that a record must have. -/
structure FieldRule where
  /-- Its name. -/
  name : String
  /-- Its value is asked for too, which only a span can answer. -/
  valued : Bool
  deriving DecidableEq, Repr

/-- A rule of a filter. -/
structure Rule where
  /-- The lead of the sources that the rule is about; none for all. -/
  source : Option String := none
  /-- The span that the rule is about; none for records. -/
  span : Option String := none
  /-- The field that a record must have. -/
  field : Option FieldRule := none
  /-- Down to which level records are written. -/
  threshold : Threshold
  deriving DecidableEq, Repr

/-- Why a text is no rule. -/
inductive Slip
  /-- It is not in the form of a rule. -/
  | mistake
  /-- A part of it would begin or end within a character. -/
  | broken
  deriving DecidableEq, Repr

/-- The number of bytes of a text. -/
def byteCount (s : List Char) : Nat := s.foldl (fun n c => n + c.utf8Size) 0

/-- A text cut in two after so many bytes; none within a character. -/
def cutAfter? : Nat → List Char → Option (List Char × List Char)
  | 0, s => some ([], s)
  | _ + 1, [] => none
  | n + 1, c :: s =>
    if c.utf8Size ≤ n + 1 then (cutAfter? (n + 1 - c.utf8Size) s).map fun (a, b) => (c :: a, b)
    else none

/-- The part of a text from one byte on. -/
def partFrom (raw : List Char) (start : Nat) : Except Slip (List Char) :=
  match cutAfter? start raw with
  | some (_, rest) => .ok rest
  | none => .error .broken

/-- The part of a text between two bytes. -/
def part (raw : List Char) (start stop : Nat) : Except Slip (List Char) := do
  match cutAfter? (stop - start) (← partFrom raw start) with
  | some (found, _) => .ok found
  | none => .error .broken

namespace Rule

/-- The threshold behind an equals sign; nothing there means everything. -/
def thresholdOf (s : List Char) : Except Slip Threshold :=
  if s = [] then .ok (some .trace)
  else match Threshold.read? (String.ofList s) with
    | some threshold => .ok threshold
    | none => .error .mistake

/-- The rule of a text that is all one part: a threshold, or else a source. -/
def ofWhole (raw : List Char) : Rule :=
  match Threshold.read? (String.ofList raw) with
  | some threshold => { threshold := threshold }
  | none => { source := some (String.ofList raw), threshold := some .trace }

/-- A field as it stands in braces. -/
def fieldOf (s : List Char) : Except Slip FieldRule :=
  match Text.splitAt '=' s with
  | name :: value :: _ =>
    if Pattern.isValue value then .ok ⟨String.ofList name, true⟩ else .error .mistake
  | _ => .ok ⟨String.ofList s, false⟩

/-- The end of a rule behind its brackets, `at` bytes into the text: nothing, or an equals sign with
a threshold. -/
def afterBrackets (raw : List Char) (r : Rule) (pos : Nat) : List Char → Except Slip Rule
  | [] => .ok r
  | '=' :: _ => do return { r with threshold := ← thresholdOf (← partFrom raw (pos + 1)) }
  | _ => .error .mistake

/-- The rest of a rule behind an opening brace, `pos` bytes into the text. -/
def inBraces (raw : List Char) (r : Rule) (pos : Nat) (s : List Char) : Except Slip Rule := do
  let inside := s.takeWhile fun c => c.toNat ≠ 0x7D
  let stop := pos + byteCount inside
  match s.dropWhile fun c => c.toNat ≠ 0x7D with
  | [] => .error .mistake
  | _ :: rest =>
    let text ← part raw pos stop
    if text = [] then .error .mistake
    let field ← fieldOf text
    match rest with
    | ']' :: rest => afterBrackets raw { r with field := some field } (stop + 2) rest
    | _ => .error .mistake

/-- The rest of a rule behind an opening bracket, `pos` bytes into the text. -/
def inBrackets (raw : List Char) (r : Rule) (pos : Nat) (s : List Char) : Except Slip Rule := do
  let isEnd (c : Char) : Bool := c == ']' || c.toNat == 0x7B
  let stop := pos + byteCount (s.takeWhile (!isEnd ·))
  match s.dropWhile (!isEnd ·) with
  | [] => .error .mistake
  | c :: rest =>
    let name ← part raw pos stop
    if c = ']' then
      afterBrackets raw { r with span := some (String.ofList name) } (stop + 1) rest
    else
      let span := if name = [] then none else some (String.ofList name)
      inBraces raw { r with span := span } (stop + 1) rest

/-- A source starts with this character. -/
def isLead (c : Char) : Bool := c == '-' || c == ':' || c == '_' || Text.isLetterOrNumber c

/-- A rule that starts with a source, or is a threshold. -/
def fromSource (raw s : List Char) : Except Slip Rule := do
  let isEnd (c : Char) : Bool := c == '=' || c == '['
  let stop := byteCount (s.takeWhile (!isEnd ·))
  match s.dropWhile (!isEnd ·) with
  | [] => .ok (ofWhole raw)
  | c :: rest =>
    let source := some (String.ofList (← part raw 0 stop))
    let r : Rule := { source := source, threshold := some .trace }
    if c = '=' then return { r with threshold := ← thresholdOf (← partFrom raw (stop + 1)) }
    else inBrackets raw r (stop + 1) rest

/-- The rule that a text spells. -/
def read (raw : List Char) : Except Slip Rule :=
  match Text.trim raw with
  | [] => .error .mistake
  | '[' :: rest => inBrackets raw { threshold := some .trace } 1 rest
  | c :: rest => if isLead c then fromSource raw (c :: rest) else .error .mistake

end Rule
end CecRelay.Log
