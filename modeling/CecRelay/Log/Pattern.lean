import CecRelay.Text.Numeral
import CecRelay.Text.Search
import CecRelay.Text.Word

/-!
# Values that a rule may ask for

A rule of a filter may ask for the value of a field, by a number or by a regular expression. Nothing
here is ever matched, but a rule with an expression that is not well formed is no rule. An expression
is checked in one pass (`Pattern.step?`) that keeps the groups and classes still open and what the
last characters have begun. Braces, commas and equals signs never come here: they end a value.

Expressions know nothing of the properties of characters. So there are no escapes for classes such as
that of all digits, and where small and large letters are to count as the same no character may be
named.
-/

namespace CecRelay.Log

/-- Flags in front of a group. -/
structure Pattern.Flags where
  /-- The letters so far. -/
  letters : List Char := []
  /-- They are taken back rather than set. -/
  negated : Bool := false
  /-- Small and large letters count as the same. -/
  caseless : Bool
  deriving DecidableEq, Repr

/-- What the last characters of an expression have begun. -/
inductive Pattern.Mode
  /-- Nothing that is still open; the flag says that there is something that can be repeated. -/
  | plain (repeatable : Bool)
  /-- An escape. -/
  | escape
  /-- A code in hexadecimal with so many digits to come. -/
  | hex (left : Nat)
  /-- A group. -/
  | group
  /-- What a question mark behind the opening of a group says. -/
  | question
  /-- The name of a group, before its opening bracket. -/
  | nameLead
  /-- The name of a group. -/
  | name (empty : Bool)
  /-- Flags, and whether one must follow. -/
  | flags (f : Pattern.Flags) (openEnded : Bool)
  /-- A class that has just been opened, so many deep. -/
  | classStart (depth : Nat)
  /-- A class, so many deep, with the character that a range may start from. -/
  | inClass (depth : Nat) (last : Option Char)
  /-- A range in a class. -/
  | range (depth : Nat) (first : Char)
  /-- An escape in a class. -/
  | classEscape (depth : Nat)
  deriving DecidableEq, Repr

/-- An expression as far as it has been read. -/
structure Pattern where
  /-- The groups that are open, the last one first. Each tells whether small and large letters count
  as the same in front of it. -/
  groups : List Bool := []
  /-- Small and large letters count as the same. -/
  caseless : Bool := false
  /-- What the last characters have begun. -/
  mode : Pattern.Mode := .plain false
  deriving DecidableEq, Repr

namespace Pattern

/-- The letters of escapes that stand for a character. -/
def escapeLetters : List Char := "aftnrv".toList

/-- The character may stand behind a backslash for itself. -/
def isMark (c : Char) : Bool := c.toNat < 0x80 && !c.isAlphanum && c != '<' && c != '>'

/-- The flags of a group. -/
def flagLetters : List Char := "imsUuxR".toList

/-- The expression with something else begun. -/
def begin (p : Pattern) (mode : Mode) : Pattern := { p with mode := mode }

/-- The expression after it has named a character. -/
def named? (p : Pattern) : Option Pattern :=
  if p.caseless then none else some (p.begin (.plain true))

/-- The expression after the end of a group; `caseless` tells from the state in front of the group
whether small and large letters count as the same behind it. -/
def closed? (p : Pattern) (mode : Mode) (caseless : Bool → Bool) : Option Pattern :=
  match p.groups with
  | [] => none
  | outside :: groups => some ⟨groups, caseless outside, mode⟩

/-- One character further in an expression with nothing begun. -/
def plainStep? (p : Pattern) (repeatable : Bool) (c : Char) : Option Pattern :=
  if c = '\\' then some (p.begin .escape)
  else if c = '[' then if p.caseless then none else some (p.begin (.classStart 1))
  else if c = '(' then some { p with groups := p.caseless :: p.groups, mode := .group }
  else if c = ')' then p.closed? (.plain true) id
  else if c = '|' then some (p.begin (.plain false))
  else if c = '*' || c = '+' || c = '?' then
    if repeatable then some (p.begin (.plain true)) else none
  else if c.toNat = 0x7B then none
  else if c = '.' || c = '^' || c = '$' then some (p.begin (.plain true))
  else p.named?

/-- One character further in a class. -/
def classStep? (p : Pattern) (depth : Nat) (last : Option Char) (c : Char) : Option Pattern :=
  if c = ']' then
    some (p.begin (if depth ≤ 1 then .plain true else .inClass (depth - 1) none))
  else if c = '[' then some (p.begin (.classStart (depth + 1)))
  else if c = '\\' then some (p.begin (.classEscape depth))
  else match last with
    | some first => some (p.begin (if c = '-' then .range depth first else .inClass depth (some c)))
    | none => some (p.begin (.inClass depth (some c)))

/-- The character may stand in the name of a group, at its start or behind that. -/
def isNamePart (first : Bool) (c : Char) : Bool :=
  c == '_' || (Text.isLetterOrNumber c && !(first && c.isDigit)) ||
    (!first && (c == '.' || c == '[' || c == ']'))

/-- One character further in flags. -/
def flagStep? (p : Pattern) (f : Flags) (openEnded : Bool) (c : Char) : Option Pattern :=
  if c = ':' then
    if openEnded then none else some { p with caseless := f.caseless, mode := .plain false }
  else if c = ')' then
    if openEnded then none else p.closed? (.plain false) fun _ => f.caseless
  else if c = '-' then
    if f.negated then none else some (p.begin (.flags { f with negated := true } true))
  else if flagLetters.contains c && !f.letters.contains c then
    some (p.begin (.flags
      { f with
        letters := c :: f.letters
        caseless := if c = 'i' then !f.negated else f.caseless } false))
  else none

/-- One character further. -/
def step? (p : Pattern) (c : Char) : Option Pattern :=
  match p.mode with
  | .plain repeatable => p.plainStep? repeatable c
  | .escape =>
    if c = 'A' || c = 'z' then some (p.begin (.plain true))
    else if isMark c || escapeLetters.contains c then p.named?
    else if c = 'x' then some (p.begin (.hex 2))
    else if c = 'u' then some (p.begin (.hex 4))
    else if c = 'U' then some (p.begin (.hex 8))
    else none
  | .hex left =>
    if (Text.digitValue? 16 c).isNone then none
    else if left ≤ 1 then p.named?
    else some (p.begin (.hex (left - 1)))
  | .group => if c = '?' then some (p.begin .question) else p.plainStep? false c
  | .question =>
    if c = ':' then some (p.begin (.plain false))
    else if c = 'P' then some (p.begin .nameLead)
    else if c = '<' then some (p.begin (.name true))
    else if c = ')' then none
    else p.flagStep? ⟨[], false, p.caseless⟩ false c
  | .nameLead => if c = '<' then some (p.begin (.name true)) else none
  | .name empty =>
    if c = '>' then if empty then none else some (p.begin (.plain false))
    else if isNamePart empty c then some (p.begin (.name false))
    else none
  | .flags f openEnded => p.flagStep? f openEnded c
  | .classStart depth =>
    if c = '^' then some (p.begin (.classStart depth))
    else if c = ']' then some (p.begin (.inClass depth (some c)))
    else p.classStep? depth none c
  | .inClass depth last => p.classStep? depth last c
  | .range depth first =>
    if c = ']' then p.classStep? depth none c
    else if c = '[' then p.classStep? depth none c
    else if c = '\\' then some (p.begin (.classEscape depth))
    else if c = '-' || first ≤ c then some (p.begin (.inClass depth none))
    else none
  | .classEscape depth =>
    if isMark c || escapeLetters.contains c then some (p.begin (.inClass depth none)) else none

/-- The text is a well formed expression. -/
def isWellFormed (s : List Char) : Bool :=
  match s.foldlM step? {} with
  | some p => p.groups.isEmpty && (match p.mode with
    | .plain _ => true
    | _ => false)
  | none => false

/-- One or more digits. -/
def isDigits (s : List Char) : Bool := s ≠ [] && s.all Text.isDigit

/-- The digits of a number, with a point or without. -/
def isMantissa (s : List Char) : Bool :=
  match Text.splitAt '.' s with
  | [whole] => isDigits whole
  | [whole, fraction] =>
    whole.all Text.isDigit && fraction.all Text.isDigit && (whole ≠ [] || fraction ≠ [])
  | _ => false

/-- The number without its sign, with an exponent or without, or one of the words for what is no
finite number. -/
def isMagnitude (s : List Char) : Bool :=
  let lower := s.map Char.toLower
  match Text.splitAt 'e' lower with
  | [mantissa] => isMantissa mantissa || ["inf", "infinity", "nan"].contains (String.ofList lower)
  | [mantissa, '+' :: power] | [mantissa, '-' :: power] => isMantissa mantissa && isDigits power
  | [mantissa, power] => isMantissa mantissa && isDigits power
  | _ => false

/-- The text is a number with a plus sign, which would be no expression. -/
def isPositive : List Char → Bool
  | '+' :: s => isMagnitude s
  | _ => false

/-- The text is a value that a rule may ask for. -/
def isValue (s : List Char) : Bool := isPositive s || isWellFormed s

end Pattern
end CecRelay.Log
