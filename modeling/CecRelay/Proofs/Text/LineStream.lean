import CecRelay.Proofs.Queue.Lines
import CecRelay.Text.LineStream

/-!
# Reading a stream piece by piece

A stream comes in pieces, which end anywhere, also inside a line or a character. What is read does not depend on the
pieces (`Reader.readAll_eq`): a reader that has not stopped keeps the torn end of what has come, and that is all it
needs (`closedLines_append`, `torn_append`). What is read is the text of the lines in front of the first that is no
text (`decoded_eq`).
-/

namespace CecRelay.LineStream

open Lines

/-- The line is text. -/
def isText (line : Bytes) : Bool := (Utf8.decode? line).isSome

variable {ls ms : List Bytes}

/-! ### Lines that are text -/

/-- The text of the lines in front of the first that is no text. -/
theorem decoded_eq (ls : List Bytes) : decoded ls = (ls.takeWhile isText).filterMap Utf8.decode? := by
  induction ls with
  | nil => rfl
  | cons line ls ih =>
    rw [decoded, List.takeWhile_cons, isText]
    cases h : Utf8.decode? line with
    | none => rfl
    | some text => simp [h, ih]

/-- Reading goes on behind lines that are all text. -/
theorem decoded_append_of_text (h : ∀ line ∈ ls, isText line = true) (ms : List Bytes) :
    decoded (ls ++ ms) = decoded ls ++ decoded ms := by
  rw [decoded_eq, decoded_eq, decoded_eq, List.takeWhile_append_of_pos h, List.takeWhile_eq_self_iff.2 h,
    List.filterMap_append]

/-- Behind a line that is no text nothing is read. -/
theorem decoded_append_of_not_text {line : Bytes} (hline : line ∈ ls) (h : isText line = false) (ms : List Bytes) :
    decoded (ls ++ ms) = decoded ls := by
  have hshort : (ls.takeWhile isText).length ≠ ls.length := fun heq => by
    have hall := List.takeWhile_eq_self_iff.1 ((List.takeWhile_prefix isText).eq_of_length heq) line hline
    rw [h] at hall
    cases hall
  rw [decoded_eq, decoded_eq, List.takeWhile_append, if_neg hshort]

/-- A line is missing among those read exactly if one is no text. -/
theorem length_decoded_lt_iff : (decoded ls).length < ls.length ↔ ∃ line ∈ ls, isText line = false := by
  induction ls with
  | nil => simp [decoded]
  | cons line ls ih =>
    rw [decoded, List.exists_mem_cons_iff, isText]
    cases Utf8.decode? line with
    | none => simp
    | some text => simpa using ih

/-! ### Pieces -/

/-- The torn end of what has come, with what comes then. -/
theorem append_eq (stream more : Bytes) : stream ++ more =
    joined (lines stream ++ lines (torn stream ++ more)) ++ torn (torn stream ++ more) := by
  calc stream ++ more
      = joined (lines stream) ++ (torn stream ++ more) := by
        rw [← List.append_assoc, joined_lines_append_torn]
    _ = joined (lines stream ++ lines (torn stream ++ more)) ++ torn (torn stream ++ more) := by
        rw [joined_append, List.append_assoc, joined_lines_append_torn]

theorem torn_append (stream more : Bytes) : torn (stream ++ more) = torn (torn stream ++ more) := by
  rw [append_eq stream more, torn_joined_append _ (not_mem_torn _)]

theorem closedLines_append (stream more : Bytes) :
    closedLines (stream ++ more) = closedLines stream ++ closedLines (torn stream ++ more) := by
  have hlines : lines (stream ++ more) = lines stream ++ lines (torn stream ++ more) := by
    rw [append_eq stream more,
      lines_joined_append_torn ((unbroken_lines stream).append (unbroken_lines _)) (not_mem_torn _)]
  rw [closedLines, hlines, List.map_append]
  rfl

theorem rawLines_append (stream more : Bytes) :
    rawLines (stream ++ more) = closedLines stream ++ rawLines (torn stream ++ more) := by
  rw [rawLines, closedLines_append, torn_append, List.append_assoc]
  rfl

namespace Reader

/-- The lines that are read from a stream that comes in pieces and then ends. -/
def readAll (r : Reader) : List Bytes → List (List Char)
  | [] => r.finish
  | piece :: pieces => (r.push piece).1 ++ (r.push piece).2.readAll pieces

/-- A reader that has stopped reads nothing. -/
theorem readAll_stopped {r : Reader} (h : r.stopped = true) (pieces : List Bytes) : r.readAll pieces = [] := by
  induction pieces with
  | nil => rw [readAll, finish, if_pos h]
  | cons piece pieces ih =>
    rw [readAll, push, if_pos h]
    exact ih

/-- Induction over the pieces: what has come and is not read yet is the torn end. -/
theorem readAll_of_rest {rest : Bytes} (h : newline ∉ rest) (pieces : List Bytes) :
    (⟨rest, false⟩ : Reader).readAll pieces = textLines (rest ++ pieces.flatten) := by
  induction pieces generalizing rest with
  | nil =>
    have htorn : torn rest = rest := torn_joined_append [] h
    rw [readAll, List.flatten_nil, List.append_nil, textLines, rawLines, closedLines, lines_of_not_mem h, htorn]
    rfl
  | cons piece pieces ih =>
    rw [List.flatten_cons, ← List.append_assoc, textLines, rawLines_append, readAll, push]
    simp only [Bool.false_eq_true, if_false]
    by_cases hstops : (decoded (closedLines (rest ++ piece))).length < (closedLines (rest ++ piece)).length
    · obtain ⟨line, hline, hnot⟩ := length_decoded_lt_iff.1 hstops
      rw [decoded_append_of_not_text hline hnot, readAll_stopped (decide_eq_true hstops), List.append_nil]
    · have htext : ∀ line ∈ closedLines (rest ++ piece), isText line = true := fun line hline =>
        Bool.of_not_eq_false fun hnot => hstops (length_decoded_lt_iff.2 ⟨line, hline, hnot⟩)
      rw [decide_eq_false hstops, ih (not_mem_torn _), decoded_append_of_text htext]
      rfl

/-- What is read does not depend on the pieces in which a stream comes. -/
theorem readAll_eq (pieces : List Bytes) : ({} : Reader).readAll pieces = textLines pieces.flatten :=
  readAll_of_rest List.not_mem_nil pieces

end Reader
end CecRelay.LineStream
