import CecRelay.Queue.Lines

/-!
# Lines of text from a stream

A program's output is read line by line. A line ends with a newline, which may have a carriage
return before it; what comes after the last newline is a line too, unless it is empty. Reading stops
at the first line that is no text in UTF-8, and what follows it is never seen.

`textLines` reads a stream that has ended. A stream that still runs is read by a `Reader`, which
keeps what came after the last newline.
-/

namespace CecRelay.LineStream

/-- A line without the carriage return at its end. -/
def withoutReturn (line : Bytes) : Bytes :=
  if line.getLast? = some 0x0D then line.dropLast else line

/-- The lines of a stream that are closed by a newline, as bytes. -/
def closedLines (stream : Bytes) : List Bytes := (Lines.lines stream).map withoutReturn

/-- The line that the end of a stream closes. -/
def lastLine (rest : Bytes) : List Bytes := if rest = [] then [] else [rest]

/-- The lines of a stream that has ended, as bytes. -/
def rawLines (stream : Bytes) : List Bytes := closedLines stream ++ lastLine (Lines.torn stream)

/-- The lines in front of the first that is no text. -/
def decoded : List Bytes → List (List Char)
  | [] => []
  | line :: rest =>
    match Utf8.decode? line with
    | some text => text :: decoded rest
    | none => []

/-- The lines that are read from a stream. -/
def textLines (stream : Bytes) : List (List Char) := decoded (rawLines stream)

/-- A reader of a stream that still runs. -/
structure Reader where
  /-- What came after the last newline. -/
  rest : Bytes := []
  /-- A line was no text. -/
  stopped : Bool := false
  deriving DecidableEq, Repr

namespace Reader

/-- Reads on: the lines that are closed now. -/
def push (r : Reader) (bytes : Bytes) : List (List Char) × Reader :=
  if r.stopped then ([], r)
  else
    let raw := closedLines (r.rest ++ bytes)
    (decoded raw, ⟨Lines.torn (r.rest ++ bytes), (decoded raw).length < raw.length⟩)

/-- The stream ends: the line that its end closes. -/
def finish (r : Reader) : List (List Char) :=
  if r.stopped then [] else decoded (lastLine r.rest)

end Reader
end CecRelay.LineStream
