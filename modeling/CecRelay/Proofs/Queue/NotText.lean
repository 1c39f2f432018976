import CecRelay.Proofs.Queue.Opening
import CecRelay.Proofs.Queue.Recovery
import CecRelay.Queue.Pump

/-!
# A cursor's file that is no text

There are two ways for bytes to be no cursor. Those that are a text count as the cursor at the start, and every line of
the log is handed out. Those that are no text are a fault, and the folder does not open (`Folder.opens_iff_text`).
Opening then has done nothing but make a log that was missing, so it meets the same fault whenever it is tried again,
and the lines stay where they are. Nor does a folder open in whose log the last number to be read is the greatest.
-/

namespace CecRelay

open Lines

variable {f : Folder} {log head : Option Bytes}

/-- A folder with these bytes as its log and as its cursor's file, or without. -/
def Folder.withFiles (f : Folder) (log head : Option Bytes) : Folder :=
  { f with log := log.map .file, head := head.map .file }

/-- A cursor's file is missing or text. -/
def IsText (head : Option Bytes) : Prop := ∀ bytes ∈ head, ∃ text, bytes = Utf8.ofString text

/-- There is no text with a cursor in a cursor's file. -/
def NoCursor (head : Option Bytes) : Prop := ∀ text, head = some (Utf8.ofString text) →
  Cursor.ofBytes? (Utf8.ofString text) = none

theorem NoCursor.of_not_isText (htext : ¬ IsText head) : NoCursor head := by
  rintro text rfl
  refine absurd (fun bytes hbytes => ?_) htext
  exact ⟨text, (Option.some.inj hbytes).symm⟩

/-- What a cursor's file that is missing or text says. -/
theorem Cursor.ofEntry_isText (htext : IsText head) :
    ofEntry (head.map .file) = .ok ((head.bind ofBytes?).getD {}) := by
  cases head with
  | none => rfl
  | some bytes =>
    obtain ⟨text, rfl⟩ := htext bytes rfl
    exact ofEntry_text (some text)

theorem NoCursor.bind_eq_none (htext : IsText head) (hnone : NoCursor head) : head.bind Cursor.ofBytes? = none := by
  cases head with
  | none => rfl
  | some bytes =>
    obtain ⟨text, rfl⟩ := htext bytes rfl
    exact hnone text rfl

theorem Cursor.ofEntry_notText (htext : ¬ IsText head) : ofEntry (head.map .file) = .error .notText := by
  cases head with
  | none => exact absurd (fun bytes h => nomatch h) htext
  | some bytes =>
    have hread : Utf8.decode? bytes = none := by
      refine Option.eq_none_iff_forall_ne_some.2 fun s hs => htext fun other hother => ?_
      obtain rfl := Option.some.inj hother
      exact Utf8.exists_decode?_iff.1 ⟨s, hs⟩
    rw [Option.map_some, ofEntry, hread]

theorem Folder.madeLog_withFiles (f : Folder) (log head : Option Bytes) :
    Journal.madeLog (f.withFiles log head) = .ok (f.withFiles (some (log.getD [])) head, log.getD []) := by
  cases log <;> rfl

/-- With a cursor's file that is missing or text the folder is one to open. -/
theorem Folder.finds_withFiles (f : Folder) (log : Option Bytes) (htext : IsText head) :
    Place.Finds (.folder (f.withFiles log head)) (f.withFiles (some (log.getD [])) head) (log.getD [])
      ((head.bind Cursor.ofBytes?).getD {}) :=
  ⟨⟨_, rfl, f.madeLog_withFiles log head⟩, Cursor.ofEntry_isText htext⟩

theorem Folder.open_notText (htext : ¬ IsText head) :
    Journal.open (.folder (f.withFiles log head)) =
      (.folder (f.withFiles (some (log.getD [])) head), .error (.error (.io .notText))) := by
  have hcursor : Cursor.ofEntry (f.withFiles (some (log.getD [])) head).head = .error .notText :=
    Cursor.ofEntry_notText htext
  simp only [Journal.open, Journal.madeFolder, f.madeLog_withFiles log head, hcursor]

/-- Whatever bytes are in the log and in the cursor's file, the queue opens exactly if its lanes can be had, the
cursor's file is missing or text, and the last number to be read is not the greatest. If there is no cursor in the file,
all lines of the log are handed out exactly if the file is missing or text and the last number in the log is not the
greatest. If the file is not text, opening meets a fault, and it leaves the bytes of both files as they are, so it meets
the same fault again. -/
theorem Folder.opens_iff_text (f : Folder) (log head : Option Bytes) (path : String) (capacity : Nat) :
    let fault := Except.error (.error (.cannotOpenQueue path (.io .notText)))
    let start := Cursor.begins (log.getD []) (head.bind Cursor.ofBytes?)
    ((∃ place q, Queue.open? path capacity (.folder (f.withFiles log head)) = (place, .ok q)) ↔
      capacity ≤ Queue.longest ∧ IsText head ∧
        Journal.lastSeq? (lines ((log.getD []).drop start)) ≠ some Journal.greatest) ∧
      (NoCursor head → (Place.HandsOut (.folder (f.withFiles log head)) (lines (log.getD [])) ↔
        IsText head ∧ Journal.lastSeq? (lines (log.getD [])) ≠ some Journal.greatest)) ∧
      (¬ IsText head →
        Queue.open? path capacity (.folder (f.withFiles log head)) =
            (.folder (f.withFiles (some (log.getD [])) head), fault) ∧
          Queue.open? path capacity (.folder (f.withFiles (some (log.getD [])) head)) =
            (.folder (f.withFiles (some (log.getD [])) head), fault)) := by
  intro fault start
  have hfails : ∀ {log}, ¬ IsText head → Queue.open? path capacity (.folder (f.withFiles log head)) =
      (.folder (f.withFiles (some (log.getD [])) head), fault) := by
    intro log htext
    rw [Queue.open?, f.open_notText htext]
  have hstart := Journal.startOffset_getD (log.getD []) (head.bind Cursor.ofBytes?)
  refine ⟨?_, fun hnone => ?_, fun htext => ⟨hfails htext, hfails htext⟩⟩
  · by_cases htext : IsText head
    · have hiff := (f.finds_withFiles log htext).open_iff
      rw [hstart] at hiff
      rw [and_iff_right htext, ← hiff]
      constructor
      · rintro ⟨place, q, hopen⟩
        unfold Queue.open? at hopen
        split at hopen
        next place' j heq =>
          refine ⟨?_, place', j, heq⟩
          by_contra hlong
          rw [if_neg hlong] at hopen
          cases (Prod.mk.inj hopen).2
        next => cases hopen
        next => cases hopen
      · rintro ⟨hcapacity, place, j, hopen⟩
        rw [Queue.open?, hopen]
        simp only [if_pos hcapacity]
        exact ⟨_, _, rfl⟩
    · refine iff_of_false ?_ fun h => htext h.2.1
      rintro ⟨place, q, hopen⟩
      simp only [hfails htext, fault] at hopen
      cases hopen
  · by_cases htext : IsText head
    · have hzero : Journal.startOffset (log.getD []) ((head.bind Cursor.ofBytes?).getD {}) = 0 := by
        rw [hstart, hnone.bind_eq_none htext]
        rfl
      have hoffers := (f.finds_withFiles log htext).offers
      rw [hzero, List.drop_zero] at hoffers
      rw [and_iff_right htext]
      exact hoffers.handsOut_iff
    · refine iff_of_false ?_ fun h => htext h.1
      rintro ⟨place, j, hopen, -⟩
      rw [f.open_notText htext] at hopen
      cases hopen

/-- One byte that is no text stands in the place of the cursor: the queue does not open, and the key in its log is not
handed out. -/
theorem Folder.not_opens_one_byte :
    let log := Envelope.line 0 ⟨⟨2024, 1, 1⟩, 0, 0, 0, 123456789⟩ (.key ⟨1, 0⟩)
    let f : Folder := { log := some (.file log), head := some (.file [0xff]) }
    ¬ IsText (some [0xff]) ∧ NoCursor (some [0xff]) ∧
      Queue.open? "q" 64 (.folder f) =
        (.folder f, .error (.error (.storage
          "cannot open queue at q: io error: stream did not contain valid UTF-8"))) ∧
      (lines log).length = 1 ∧ ¬ Place.HandsOut (.folder f) (lines log) := by
  intro log f
  have hread : Utf8.decode? [0xff] = none := by decide
  have htext : ¬ IsText (some [0xff]) := by
    intro htext
    obtain ⟨s, hs⟩ := Utf8.exists_decode?_iff.2 (htext _ rfl)
    rw [hread] at hs
    cases hs
  have hnone : NoCursor (some [0xff]) := .of_not_isText htext
  have hlines : (lines log).length = 1 := by
    rw [Store.lines_line]
    rfl
  obtain ⟨-, hout, hfails⟩ := Folder.opens_iff_text {} (some log) (some [0xff]) "q" 64
  exact ⟨htext, hnone, (hfails htext).1, hlines, fun h => htext ((hout hnone).1 h).1⟩

end CecRelay
