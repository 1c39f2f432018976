/-!
# What a document offers to its reader

Documents of several formats are read into the same records. A format says by `HasShape` what one
of its values looks like from outside, and the rules for reading a number, a choice or a record are
given once, on that view: a record comes as named members, each at most once and none missing, or
as a list of exactly its members in order; members nobody asked for are passed over.
-/

namespace CecRelay

/-- A value seen from outside, with the values inside it left as they are. -/
inductive Shape (α : Type)
  /-- Nothing. -/
  | null
  /-- A truth value. -/
  | bool (b : Bool)
  /-- A natural number written as one. -/
  | nat (n : Nat)
  /-- A text. -/
  | text (s : String)
  /-- A list. -/
  | list (items : List α)
  /-- Named members, in the order written. -/
  | record (members : List (String × α))
  /-- Anything else. -/
  | other

/-- A kind of document. -/
class HasShape (α : Type) where
  /-- The outside of a value. -/
  shape : α → Shape α
  /-- The value says nothing, as the content of a choice that carries nothing must. -/
  isUnit : α → Bool

namespace Shape

variable {α : Type} [HasShape α]

/-- The number, if it is at most `max`. -/
def nat? (max : Nat) (a : α) : Option Nat :=
  match HasShape.shape a with
  | .nat n => if n ≤ max then some n else none
  | _ => none

/-- The truth value. -/
def bool? (a : α) : Option Bool :=
  match HasShape.shape a with
  | .bool b => some b
  | _ => none

/-- The text. -/
def text? (a : α) : Option String :=
  match HasShape.shape a with
  | .text s => some s
  | _ => none

/-- The items of a list, each read by `read`. -/
def list? {β : Type} (read : α → Option β) (a : α) : Option (List β) :=
  match HasShape.shape a with
  | .list items => items.mapM read
  | _ => none

/-- The choice named by the value: its name, or a record of that name with nothing in it. -/
def choice? {β : Type} (choices : List (String × β)) (a : α) : Option β :=
  match HasShape.shape a with
  | .text s => choices.lookup s
  | .record [(s, content)] => if HasShape.isUnit content then choices.lookup s else none
  | _ => none

/-- The member of the given name, if it is there exactly once. -/
def member? (members : List (String × α)) (name : String) : Option α :=
  match members.filter (·.1 == name) with
  | [(_, a)] => some a
  | _ => none

/-- The members of a record with the given names, in the order of the names. -/
def members? (names : List String) (a : α) : Option (List α) :=
  match HasShape.shape a with
  | .list items => if items.length = names.length then some items else none
  | .record members => names.mapM (member? members)
  | _ => none

end Shape
end CecRelay
