/-!
# What is left of a text without a terminal

A text for a terminal holds control sequences, which the terminal obeys and does not show. When a
text goes elsewhere they are left out (`Terminal.plain`), and with them all control characters that
are no blanks. The sequences are those of the ECMA-48 standard as terminals have come to read them: a
reader of one character at a time with a state (`Terminal.next`). A blank or a sign that a terminal would
show in spite of a sequence that has begun ends the sequence.
-/

namespace CecRelay.Terminal

/-- What a terminal is in the middle of. -/
inductive State
  /-- Nothing. -/
  | ground
  /-- An escape. -/
  | escape
  /-- An escape with marks in the middle. -/
  | escapeMarks
  /-- A control sequence, at its start. -/
  | control
  /-- The numbers of a control sequence. -/
  | controlNumbers
  /-- The marks of a control sequence. -/
  | controlMarks
  /-- A control sequence that means nothing. -/
  | controlJunk
  /-- A device's string, at its start. -/
  | device
  /-- The numbers in front of a device's string. -/
  | deviceNumbers
  /-- The marks in front of a device's string. -/
  | deviceMarks
  /-- The characters of a device's string. -/
  | deviceText
  /-- A device's string that means nothing. -/
  | deviceJunk
  /-- The characters of a command of the operating system. -/
  | system
  /-- The characters of a message that nobody reads. -/
  | message
  deriving DecidableEq, Repr

/-- What a terminal does with a character. -/
inductive Act
  /-- It shows the character. -/
  | show
  /-- It obeys the character at once. -/
  | obey
  /-- The character belongs to a sequence. -/
  | take
  deriving DecidableEq, Repr

/-- The code of a character is between two others. -/
def within (low high : Nat) (c : Char) : Bool := low ≤ c.toNat && c.toNat ≤ high

/-- A control character. -/
def isControl (c : Char) : Bool := c.toNat < 0x20

/-- The character ends a string: a byte of it is the one that says so. -/
def endsString (c : Char) : Bool := (String.utf8EncodeChar c).contains 0x9C

/-- The state after the character that says which kind of sequence an escape begins. -/
def opened (c : Char) : State :=
  if c = '[' then .control
  else if c = ']' then .system
  else if c = 'P' then .device
  else if c = 'X' || c = '^' || c = '_' then .message
  else .ground

/-- The next state within a sequence, or the same. -/
def inSequence (s : State) (c : Char) : State :=
  match s with
  | .ground => .ground
  | .escape =>
    if within 0x20 0x2F c then .escapeMarks else if within 0x30 0x7E c then opened c else s
  | .escapeMarks => if within 0x30 0x7E c then .ground else s
  | .control =>
    if within 0x20 0x2F c then .controlMarks
    else if within 0x30 0x3F c then .controlNumbers
    else if within 0x40 0x7E c then .ground else s
  | .controlNumbers =>
    if within 0x20 0x2F c then .controlMarks
    else if within 0x3C 0x3F c then .controlJunk
    else if within 0x40 0x7E c then .ground else s
  | .controlMarks =>
    if within 0x30 0x3F c then .controlJunk else if within 0x40 0x7E c then .ground else s
  | .controlJunk => if within 0x40 0x7E c then .ground else s
  | .device =>
    if within 0x20 0x2F c then .deviceMarks
    else if c = ':' then .deviceJunk
    else if within 0x30 0x3F c then .deviceNumbers
    else if within 0x40 0x7E c then .deviceText else s
  | .deviceNumbers =>
    if within 0x20 0x2F c then .deviceMarks
    else if c = ':' || within 0x3C 0x3F c then .deviceJunk
    else if within 0x40 0x7E c then .deviceText else s
  | .deviceMarks =>
    if within 0x30 0x3F c then .deviceJunk else if within 0x40 0x7E c then .deviceText else s
  | .deviceText | .deviceJunk | .message => if endsString c then .ground else s
  | .system => if c = '\x07' then .ground else s

/-- A control character is obeyed at once in this state; in the others it belongs to a string. -/
def obeys : State → Bool
  | .ground | .escape | .escapeMarks | .control | .controlNumbers | .controlMarks
  | .controlJunk => true
  | _ => false

/-- What a terminal does with a character, and the state after it. -/
def next (s : State) (c : Char) : Act × State :=
  if c = '\x1b' then (.take, .escape)
  else if c = '\x18' || c = '\x1a' then (.obey, .ground)
  else if isControl c && obeys s then (.obey, s)
  else if s = .ground then (.show, .ground)
  else (.take, inSequence s c)

/-- A blank of ASCII. -/
def isBlank (c : Char) : Bool := c = ' ' || c = '\t' || c = '\n' || c = '\x0c' || c = '\x0d'

/-- A character stays in the text. -/
def stays (a : Act) (c : Char) : Bool :=
  match a with
  | .show => c ≠ '\x7f'
  | .obey => isBlank c
  | .take => false

/-- The characters that stay in the text, from a state on. -/
def plainFrom (s : State) : List Char → List Char
  | [] => []
  | c :: rest =>
    match next s c with
    | (act, state) =>
      if stays act c then c :: plainFrom .ground rest else plainFrom state rest

/-- A text without what only a terminal understands. -/
def plain (s : String) : String := String.ofList (plainFrom .ground s.toList)

/-- A text without control characters is left as it is. -/
theorem plainFrom_of_no_control {s : List Char} (h : ∀ c ∈ s, 0x20 ≤ c.toNat ∧ c ≠ '\x7f') :
    plainFrom .ground s = s := by
  induction s with
  | nil => rfl
  | cons c rest ih =>
    have ⟨hc, hd⟩ := h c (.head _)
    have h1 : c ≠ '\x1b' := by rintro rfl; exact absurd hc (by decide)
    have h2 : c ≠ '\x18' := by rintro rfl; exact absurd hc (by decide)
    have h3 : c ≠ '\x1a' := by rintro rfl; exact absurd hc (by decide)
    have h4 : isControl c = false := by simp [isControl, hc]
    simp [plainFrom, next, stays, h1, h2, h3, h4, hd, ih fun c hc => h c (.tail _ hc)]

end CecRelay.Terminal
