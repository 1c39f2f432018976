import CecRelay.Queue.Disk
import CecRelay.Json.Value

/-!
# The cursor of a queue

The cursor says how far the log has been delivered and which number comes next. It has a file of
its own. A file that is text but no cursor counts as the cursor at the start; a file that is no
text, or a folder in its place, is a fault.
-/

namespace CecRelay

/-- How far the log has been delivered. -/
structure Cursor where
  /-- The offset of the first line not delivered. -/
  offset : Nat := 0
  /-- The number of the next event. -/
  nextSeq : UInt64 := 0
  deriving DecidableEq, Repr

namespace Cursor

/-- The names of the members. -/
def members : List String := ["offset", "next_seq"]

/-- The cursor in a document. -/
def ofDoc? (doc : Json.Doc) : Option Cursor := do
  match ← Shape.members? members doc with
  | [offset, nextSeq] =>
    let offset ← Shape.nat? 0xFFFFFFFFFFFFFFFF offset
    let nextSeq ← Shape.nat? 0xFFFFFFFFFFFFFFFF nextSeq
    return ⟨offset, UInt64.ofNat nextSeq⟩
  | _ => none

/-- The cursor in the bytes. -/
def ofBytes? (bytes : Bytes) : Option Cursor := (Json.Doc.ofBytes? bytes).bind ofDoc?

/-- The cursor as JSON. -/
def print (c : Cursor) : String :=
  "\x7b\"offset\":" ++ toString c.offset ++ ",\"next_seq\":" ++ toString c.nextSeq ++ "\x7d"

/-- The bytes of the cursor's file. -/
def bytes (c : Cursor) : Bytes := Utf8.ofString c.print

/-- The cursor in a file's place. -/
def ofEntry : Option Entry → Except Fault Cursor
  | none => .ok {}
  | some (.folder _) => .error .isFolder
  | some (.file bytes) =>
    match Utf8.decode? bytes with
    | none => .error .notText
    | some _ => .ok ((ofBytes? bytes).getD {})

end Cursor
end CecRelay
