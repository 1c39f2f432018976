import CecRelay.Text.Utf8

/-!
# Lines of a byte log

A log is a run of lines, each closed by a newline; what comes after the last newline is torn and is
no line. `firstLine?` cuts the first line off, `lines` lists them all, and `complete` is the log
without its torn end. An offset is on a line boundary when it is zero or right behind a newline
(`onBoundary`).
-/

namespace CecRelay

/-- The byte that closes a line. -/
def newline : UInt8 := 0x0A

namespace Lines

/-- The first line without its newline, and what follows it. -/
def firstLine? : Bytes → Option (Bytes × Bytes)
  | [] => none
  | b :: r =>
    if b = newline then some ([], r)
    else (firstLine? r).map fun (line, rest) => (b :: line, rest)

/-- The lines that are closed, without their newlines. -/
def lines : Bytes → List Bytes
  | [] => []
  | b :: r =>
    if b = newline then [] :: lines r
    else match lines r with
      | [] => []
      | line :: rest => (b :: line) :: rest

/-- What comes after the last newline. -/
def torn (log : Bytes) : Bytes := (log.reverse.takeWhile (· != newline)).reverse

/-- The log up to and with its last newline. -/
def complete (log : Bytes) : Bytes := log.take (log.length - (torn log).length)

/-- The lines put together, each with its newline. -/
def joined (ls : List Bytes) : Bytes := ls.flatMap (· ++ [newline])

/-- The offset is at the start or right behind a newline. -/
def onBoundary (log : Bytes) : Nat → Bool
  | 0 => true
  | n + 1 => log[n]? == some newline

@[simp] theorem firstLine?_nil : firstLine? [] = none := rfl

theorem firstLine?_append_newline {line : Bytes} (h : newline ∉ line) (rest : Bytes) :
    firstLine? (line ++ newline :: rest) = some (line, rest) := by
  induction line with
  | nil => simp [firstLine?]
  | cons b line ih =>
    simp only [List.mem_cons, not_or] at h
    have hb : b ≠ newline := Ne.symm h.1
    simp [firstLine?, hb, ih h.2]

theorem firstLine?_eq_some_iff {log line rest : Bytes} :
    firstLine? log = some (line, rest) ↔ newline ∉ line ∧ log = line ++ newline :: rest := by
  constructor
  · intro h
    induction log generalizing line with
    | nil => simp at h
    | cons b r ih =>
      unfold firstLine? at h
      split at h
      next hb => cases h; simp [hb]
      next hb =>
        obtain ⟨⟨l, s⟩, hl, heq⟩ := Option.map_eq_some_iff.1 h
        cases heq
        obtain ⟨hn, rfl⟩ := ih hl
        exact ⟨by simp [hn, Ne.symm hb], rfl⟩
  · rintro ⟨hn, rfl⟩
    exact firstLine?_append_newline hn rest

end Lines
end CecRelay
