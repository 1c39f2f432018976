/-!
# TOML items

A document is a table. How a table came to be decides who may add to it: one that was only implied
by the header of a table inside it may still be given a header of its own, one that was made by
dotted keys may get more keys of that kind, and all others are complete. `Table.descend` is the one
way into a table; both headers and keys go through it.
-/

namespace CecRelay.Toml

/-- How a table came to be. -/
inductive TableKind
  /-- By its header, or as the document itself. -/
  | defined
  /-- By the header of a table inside it. -/
  | implied
  /-- By dotted keys. -/
  | dotted
  /-- As a value in braces. -/
  | braced
  deriving DecidableEq, Repr

/-- An item of a document. -/
inductive Item
  /-- A text. -/
  | text (s : String)
  /-- An integer of sixty-four bits. -/
  | integer (i : Int)
  /-- A truth value. -/
  | bool (b : Bool)
  /-- A float; nobody asks for its value. -/
  | float
  /-- A date or a time of day; nobody asks for its value. -/
  | date
  /-- A list. -/
  | list (items : List Item)
  /-- A table. -/
  | table (kind : TableKind) (entries : List (String × Item))
  /-- The tables of headers in double brackets. -/
  | tables (ts : List (List (String × Item)))

/-- The entries of a table, in the order in which they were added. -/
abbrev Entries := List (String × Item)

namespace Entries

/-- The entries with something else under a name that is there. -/
def replace (name : String) (item : Item) (es : Entries) : Entries :=
  es.map fun (other, old) => if other = name then (other, item) else (other, old)

/-- Goes into the tables along a path and does something to the entries of the last. Tables that are
missing on the way are made. By dotted keys only a table can be entered that is not complete. -/
def descend (dotted : Bool) (act : TableKind → Entries → Option Entries) :
    List String → TableKind → Entries → Option Entries
  | [], kind, es => act kind es
  | name :: path, _, es =>
    match es.lookup name with
    | none => do
      let kind := if dotted then TableKind.dotted else .implied
      let inner ← descend dotted act path kind []
      return es ++ [(name, .table kind inner)]
    | some (.table kind inner) =>
      if kind = .braced ∨ (dotted ∧ kind = .defined) then none
      else do
        let inner ← descend dotted act path kind inner
        return replace name (.table kind inner) es
    | some (.tables ts) =>
      match ts.getLast? with
      | none => none
      | some last => do
        let inner ← descend dotted act path .defined last
        return replace name (.tables (ts.dropLast ++ [inner])) es
    | some _ => none

/-- Adds an entry; its name must be new, and `dotted` must say how the table came to be. -/
def add (dotted : Bool) (name : String) (item : Item) (kind : TableKind) (es : Entries) :
    Option Entries :=
  if (kind == .dotted) != dotted then none
  else if (es.lookup name).isSome then none
  else some (es ++ [(name, item)])

/-- Adds the entry of a key, which may be dotted. -/
def addKey (path : List String) (name : String) (item : Item) (kind : TableKind) (es : Entries) :
    Option Entries :=
  descend true (add (!path.isEmpty) name item) path kind es

/-- Gives a table a header: it must be new or only implied. -/
def openTable (name : String) (es : Entries) : Option Entries :=
  match es.lookup name with
  | none => some (es ++ [(name, .table .defined [])])
  | some (.table .implied inner) =>
    some (es.filter (·.1 != name) ++ [(name, .table .defined inner)])
  | some _ => none

/-- Adds a table to those of headers in double brackets. -/
def pushTable (name : String) (es : Entries) : Option Entries :=
  match es.lookup name with
  | none => some (es ++ [(name, .tables [[]])])
  | some (.tables ts) => some (replace name (.tables (ts ++ [[]])) es)
  | some _ => none

end Entries
end CecRelay.Toml
