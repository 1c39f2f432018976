import CecRelay.Log.Rule
import CecRelay.Text.Search

/-!
# Which records are written

A filter is a list of rules, separated by commas; nothing between two commas is no rule. A record is
judged by the weightiest of the rules that are about it: one with a longer lead of the record's
source, then one that asks for a field of the record, then one whose field comes later in the order
of names, and at last the one that stands further back. A record that no rule is about is not
written. The relay records no spans, so a rule about spans, or about the value of a field, is about
nothing here.
-/

namespace CecRelay.Log

namespace Rule

/-- The rule is about records of a source with these fields. -/
def concerns (source : String) (fields : List String) (r : Rule) : Bool :=
  r.span.isNone &&
    r.source.all (fun lead => (Text.afterLead? lead.toList source.toList).isSome) &&
    r.field.all (fun f => !f.valued && fields.contains f.name)

/-- How far the rule says which sources it is about. -/
def reach (r : Rule) : Nat :=
  match r.source with
  | none => 0
  | some lead => lead.utf8ByteSize + 1

/-- The first rule is weightier than the second. -/
def outweighs (a b : Rule) : Bool :=
  if a.reach ≠ b.reach then b.reach < a.reach
  else match a.field, b.field with
    | some f, some g => g.name < f.name
    | some _, none => true
    | none, _ => false

end Rule

/-- A filter. -/
structure Filter where
  /-- Its rules, in order. -/
  rules : List Rule
  deriving DecidableEq, Repr

namespace Filter

/-- The texts of the rules. -/
def texts (s : String) : List (List Char) := (Text.splitAt ',' s.toList).filter (· ≠ [])

/-- The filter that a text spells, with no mistake in it. -/
def strict (s : String) : Except Slip Filter := ((texts s).mapM Rule.read).map .mk

/-- The rules that texts spell, with mistakes passed over. -/
def readAll : List (List Char) → Except Slip (List Rule)
  | [] => .ok []
  | s :: rest =>
    match Rule.read s with
    | .ok r => (readAll rest).map (r :: ·)
    | .error .mistake => readAll rest
    | .error .broken => .error .broken

/-- The filter that a text spells, with mistakes passed over. Without any rule errors are written.
None when the program breaks off. -/
def lenient? (s : String) : Option Filter :=
  match readAll (texts s) with
  | .ok [] => some ⟨[{ threshold := some .error }]⟩
  | .ok rules => some ⟨rules⟩
  | .error _ => none

/-- Of two rules the weightier one, the second if they are alike. -/
def weightier (best : Option Rule) (r : Rule) : Option Rule :=
  match best with
  | none => some r
  | some b => if b.outweighs r then some b else some r

/-- The rule that judges records of a source with these fields. -/
def rule? (f : Filter) (source : String) (fields : List String) : Option Rule :=
  (f.rules.filter (Rule.concerns source fields)).foldl weightier none

/-- A record of a source with these fields is written. -/
def admits (f : Filter) (source : String) (fields : List String) (l : Level) : Bool :=
  match f.rule? source fields with
  | some r => r.threshold.admits l
  | none => false

end Filter
end CecRelay.Log
