import CecRelay.Toml.Item
import CecRelay.Toml.Lexeme

/-!
# TOML documents

A document is a run of lines: headers, which say to which table the keys after them belong, and keys
with their values. `Document.read?` gives the entries of the document, or nothing when it is not in
the form or says something twice.
-/

namespace CecRelay.Toml

mutual

/-- A value nested `depth` deep, read in at most `fuel` steps. -/
def value? : Nat → Nat → List Char → Option (Item × List Char)
  | 0, _, _ => none
  | _, _, [] => none
  | fuel + 1, depth, c :: s =>
    if c = '"' then (quoted? basic (c :: s)).map fun (t, s) => (.text (String.ofList t), s)
    else if c = '\'' then (quoted? literal (c :: s)).map fun (t, s) => (.text (String.ofList t), s)
    else if c = '[' then
      if depth + 1 < depthLimit then
        (items? fuel (depth + 1) s).map fun (items, s) => (.list items, s)
      else none
    else if c.toNat = 0x7B then
      if depth + 1 < depthLimit then
        (braces? fuel (depth + 1) s).map fun (es, s) => (.table .braced es, s)
      else none
    else if c = 't' then (Text.afterLead? "rue".toList s).map (.bool true, ·)
    else if c = 'f' then (Text.afterLead? "alse".toList s).map (.bool false, ·)
    else match date? (c :: s) with
      | some s => some (.date, s)
      | none =>
        match float? (c :: s) with
        | some s => some (.float, s)
        | none => (integer? (c :: s)).map fun (i, s) => (.integer i, s)

/-- The items of a list, after its opening bracket. -/
def items? : Nat → Nat → List Char → Option (List Item × List Char)
  | 0, _, _ => none
  | fuel + 1, depth, s => do
    let s ← skipLines (s.length + 1) s
    match s with
    | ']' :: s => return ([], s)
    | s =>
      let (item, s) ← value? fuel depth s
      let s ← skipLines (s.length + 1) s
      match s with
      | ']' :: s => return ([item], s)
      | ',' :: s => (items? fuel depth s).map fun (items, s) => (item :: items, s)
      | _ => none

/-- The entries of a table in braces, after its opening brace. -/
def braces? : Nat → Nat → List Char → Option (Entries × List Char)
  | 0, _, _ => none
  | fuel + 1, depth, s =>
    match skipSpace s with
    | c :: s => if c.toNat = 0x7D then some ([], s) else bracePairs? fuel depth [] (c :: s)
    | [] => none

/-- The entries of a table in braces from the next key on, put after those already read. -/
def bracePairs? : Nat → Nat → Entries → List Char → Option (Entries × List Char)
  | 0, _, _, _ => none
  | fuel + 1, depth, es, s => do
    let (path, name, s) ← key? s
    let s ← mark? '=' s
    let (item, s) ← value? fuel depth (skipSpace s)
    let es ← Entries.addKey path name item .braced es
    match skipSpace s with
    | ',' :: s => bracePairs? fuel depth es s
    | c :: s => if c.toNat = 0x7D then return (es, s) else none
    | [] => none

end

/-- A document as far as it has been read. -/
structure Document where
  /-- The entries. -/
  entries : Entries := []
  /-- The table to which the next keys belong. -/
  current : List String := []

namespace Document

/-- The document with one more key. -/
def addKey? (d : Document) (path : List String) (name : String) (item : Item) :
    Option Document := do
  let entries ← d.entries.descend false (Entries.addKey path name item) d.current .defined
  return { d with entries := entries }

/-- The document with one more header. -/
def header? (d : Document) (path : List String) (name : String)
    (act : String → Entries → Option Entries) : Option Document := do
  let entries ← d.entries.descend false (fun _ => act name) path .defined
  return { entries := entries, current := path ++ [name] }

/-- A header, after its first bracket. -/
def readHeader? (d : Document) (s : List Char) : Option (Document × List Char) := do
  match s with
  | '[' :: s =>
    let (path, name, s) ← key? s
    let s ← Text.afterLead? [']', ']'] s
    return (← d.header? path name Entries.pushTable, ← lineRest? s)
  | s =>
    let (path, name, s) ← key? s
    let s ← mark? ']' s
    return (← d.header? path name Entries.openTable, ← lineRest? s)

/-- A key and its value. -/
def readKey? (d : Document) (s : List Char) : Option (Document × List Char) := do
  let (path, name, s) ← key? s
  let s ← mark? '=' s
  let (item, s) ← value? (2 * s.length + 2) 0 (skipSpace s)
  return (← d.addKey? path name item, ← lineRest? s)

/-- The document after the lines of a text, at most `fuel` of them. -/
def readLines? : Nat → Document → List Char → Option Document
  | 0, _, _ => none
  | fuel + 1, d, s =>
    match skipSpace s with
    | [] => some d
    | '[' :: s => (d.readHeader? s).bind fun (d, s) => readLines? fuel d s
    | s =>
      match lineRest? s with
      | some s => readLines? fuel d s
      | none => (d.readKey? s).bind fun (d, s) => readLines? fuel d s

/-- The entries of a document. A byte order mark in front does not count. -/
def read? (text : String) : Option Entries :=
  let s := text.toList
  let s := match s with
    | '\ufeff' :: rest => rest
    | s => s
  (readLines? (s.length + 1) {} s).map Document.entries

end Document
end CecRelay.Toml
