import CecRelay.Proofs.Queue.Cursor
import CecRelay.Proofs.Queue.Lines
import CecRelay.Proofs.Time.Stamp
import CecRelay.Queue.Envelope

/-!
# Stored events read back

The line of an event is one line (`Envelope.line_eq`, `Envelope.newline_not_mem_body`), and when the
clock has shown a stamp of the calendar it is read back as the event with its number
(`Envelope.decode?_body`). The record of an event is that of no event of the other type, so under another
tag it is refused (`Envelope.event?_json`).
-/

namespace CecRelay

open Json Text

/-! ### Stamps in strings -/

theorem Text.plain_padded (width n : Nat) : ∀ c ∈ (padded width n).toList, Plain c :=
  fun c hc => plain_of_isDigit (isDigit_eq c ▸ isDigit_of_mem_padded hc)

theorem Text.plain_append {s t : String} (hs : ∀ c ∈ s.toList, Plain c) (ht : ∀ c ∈ t.toList, Plain c) :
    ∀ c ∈ (s ++ t).toList, Plain c := by
  intro c hc
  rw [String.toList_append] at hc
  rcases List.mem_append.1 hc with hc | hc
  · exact hs c hc
  · exact ht c hc

namespace Time.Stamp

theorem plain_yearText (year : Int) : ∀ c ∈ (yearText year).toList, Plain c := by
  rw [yearText]
  split
  · exact plain_padded _ _
  · split
    · exact plain_append (by decide) (plain_padded _ _)
    · exact plain_append (by decide) (plain_padded _ _)

theorem plain_fractionText (nanos : Nat) : ∀ c ∈ (fractionText nanos).toList, Plain c := by
  rw [fractionText]
  split
  · decide
  · split
    · exact plain_append (by decide) (plain_padded _ _)
    · split
      · exact plain_append (by decide) (plain_padded _ _)
      · exact plain_append (by decide) (plain_padded _ _)

/-- The text of a stamp stands in a string as it is. -/
theorem plain_text (t : Stamp) : ∀ c ∈ t.text.toList, Plain c := by
  have hyear := plain_yearText t.day.year
  have hmonth := plain_append (plain_append hyear (by decide : ∀ c ∈ "-".toList, Plain c))
    (plain_padded 2 t.day.month)
  have hday := plain_append (plain_append hmonth (by decide : ∀ c ∈ "-".toList, Plain c))
    (plain_padded 2 t.day.day)
  have hhour := plain_append (plain_append hday (by decide : ∀ c ∈ "T".toList, Plain c))
    (plain_padded 2 t.hour)
  have hminute := plain_append (plain_append hhour (by decide : ∀ c ∈ ":".toList, Plain c))
    (plain_padded 2 t.minute)
  have hsecond := plain_append (plain_append hminute (by decide : ∀ c ∈ ":".toList, Plain c))
    (plain_padded 2 t.second)
  have hfraction := plain_append hsecond (plain_fractionText t.nanos)
  exact plain_append hfraction (by decide)

end Time.Stamp

/-! ### Records of events -/

theorem KeyPress.read?_json (k : KeyPress) : read? k.json = some k := by
  have hcode : k.code.toNat ≤ 0xFF := Nat.le_of_lt_succ k.code.toNat_lt
  have hhold : k.holdMillis.toNat ≤ 0xFFFFFFFF := Nat.le_of_lt_succ k.holdMillis.toNat_lt
  have hmembers : Shape.members? members k.json =
      some [.number (.nat k.code.toNat), .number (.nat k.holdMillis.toNat)] := rfl
  rw [read?, hmembers]
  simp [Shape.nat?, HasShape.shape, hcode, hhold]

theorem PowerEvent.read?_json (p : PowerEvent) : read? p.json = some p := by
  have hmembers : Shape.members? members p.json = some [.text p.kind.name, .bool p.transitioning] := rfl
  rw [read?, hmembers]
  simp [PowerKind.read?, Shape.choice?, Shape.bool?, HasShape.shape, PowerKind.lookup_name]

namespace Event

/-- The members of an event's record. -/
def parts : Event → List Part
  | .key k =>
    [⟨"code", toString k.code.toNat, .number (.ofNat k.code.toNat)⟩,
      ⟨"hold_duration_ms", toString k.holdMillis.toNat, .number (.ofNat k.holdMillis.toNat)⟩]
  | .power p =>
    [⟨"kind", Json.quoted p.kind.name, .string (plainPieces p.kind.name.toList)⟩,
      ⟨"transitioning", (Value.bool p.transitioning).print, .bool p.transitioning⟩]

theorem plain_name (k : PowerKind) : ∀ c ∈ k.name.toList, Plain c := by
  cases k <;> decide

theorem good_parts (e : Event) : ∀ p ∈ e.parts, p.Good := by
  intro p hp
  cases e with
  | key k =>
    simp only [parts, List.mem_cons, List.not_mem_nil, or_false] at hp
    rcases hp with rfl | rfl
    · exact Part.good (by decide) (Writes.nat _)
    · exact Part.good (by decide) (Writes.nat _)
  | power q =>
    simp only [parts, List.mem_cons, List.not_mem_nil, or_false] at hp
    rcases hp with rfl | rfl
    · exact Part.good (by decide) (Writes.text (plain_name q.kind))
    · exact Part.good (by decide) (Writes.bool _)

theorem print_json (e : Event) : e.json.print = recordText e.parts := by
  cases e <;> rfl

/-- The document of an event's record has the record as its value. -/
theorem ofDoc?_parts (e : Event) (depth : Nat) :
    Value.ofDoc? (depth + 1) (.record (recordMembers e.parts)) = some e.json := by
  have hname : ∀ s : String, (∀ c ∈ s.toList, Plain c) →
      Piece.text? (plainPieces s.toList) = some s := fun _ h => Piece.text?_plain h
  cases e with
  | key k =>
    have hcode := Numeral.number?_ofNat (n := k.code.toNat) (by have := k.code.toNat_lt; omega)
    have hhold := Numeral.number?_ofNat (n := k.holdMillis.toNat) (by have := k.holdMillis.toNat_lt; omega)
    simp only [parts, recordMembers, List.map_cons, List.map_nil, Value.ofDoc?, Value.ofMembers?,
      hname "code" (by decide), hname "hold_duration_ms" (by decide), hcode, hhold]
    rfl
  | power p =>
    simp only [parts, recordMembers, List.map_cons, List.map_nil, Value.ofDoc?, Value.ofMembers?,
      hname "kind" (by decide), hname "transitioning" (by decide), hname _ (plain_name p.kind)]
    rfl

end Event

namespace Envelope

/-- The members of an envelope with an event's record in it. -/
def parts (seq : UInt64) (tag : String) (now : Time.Stamp) (e : Event) : List Part :=
  [⟨"seq", toString seq, .number (.ofNat seq.toNat)⟩,
    ⟨"type", Json.quoted tag, .string (plainPieces tag.toList)⟩,
    ⟨"payload", e.json.print, .record (recordMembers e.parts)⟩,
    ⟨"enqueued_at", Json.quoted now.text, .string (plainPieces now.text.toList)⟩]

/-- The line of an event, without its newline. -/
def body (seq : UInt64) (now : Time.Stamp) (e : Event) : Bytes := Utf8.ofString (ofEvent seq now e).print

theorem line_eq (seq : UInt64) (now : Time.Stamp) (e : Event) : line seq now e = body seq now e ++ [newline] :=
  rfl

variable (seq : UInt64) (now : Time.Stamp) (e : Event)

theorem plain_tag : ∀ c ∈ e.tag.toList, Plain c := by
  have hkey : ∀ c ∈ Event.keyTag.toList, Plain c := by decide
  have hpower : ∀ c ∈ Event.powerTag.toList, Plain c := by decide
  cases e with
  | key k => exact hkey
  | power p => exact hpower

theorem print_eq (tag : String) : print ⟨seq, tag, e.json, now⟩ = recordText (parts seq tag now e) := by
  have h1 : Json.quoted "seq" = "\"seq\"" := by decide
  have h2 : Json.quoted "type" = "\"type\"" := by decide
  have h3 : Json.quoted "payload" = "\"payload\"" := by decide
  have h4 : Json.quoted "enqueued_at" = "\"enqueued_at\"" := by decide
  simp only [recordText, parts, List.map_cons, List.map_nil, commaSeparated, h1, h2, h3, h4]
  rw [print, ← String.toList_inj]
  simp

theorem text?_plain {s : String} (h : ∀ c ∈ s.toList, Plain c) :
    Shape.text? (Doc.string (plainPieces s.toList)) = some s := by
  simp [Shape.text?, HasShape.shape, Piece.text?_plain h]

section Tagged

variable {tag : String} (htag : ∀ c ∈ tag.toList, Plain c)

include htag

theorem good_parts : ∀ p ∈ parts seq tag now e, p.Good := by
  intro p hp
  simp only [parts, List.mem_cons, List.not_mem_nil, or_false] at hp
  rcases hp with rfl | rfl | rfl | rfl
  · exact Part.good (by decide) (Writes.nat _)
  · exact Part.good (by decide) (Writes.text htag)
  · exact Part.good (by decide) (e.print_json ▸ Writes.record e.good_parts)
  · exact Part.good (by decide) (Writes.text now.plain_text)

theorem members?_parts : Shape.members? members (Doc.record (recordMembers (parts seq tag now e))) =
    some [.number (.ofNat seq.toNat), .string (plainPieces tag.toList), .record (recordMembers e.parts),
      .string (plainPieces now.text.toList)] := by
  simp only [Shape.members?, shape_record (good_parts seq now e htag)]
  rfl

/-- An envelope with the record of an event in it is read back, with the time that its text stands for. -/
theorem ofBytes?_print : ofBytes? (Utf8.ofString (print ⟨seq, tag, e.json, now⟩)) =
    (Time.Stamp.ofString? now.text).map fun time => ⟨seq, tag, e.json, time⟩ := by
  have hseq : seq.toNat ≤ 0xFFFFFFFFFFFFFFFF := Nat.le_of_lt_succ seq.toNat_lt
  have hback : UInt64.ofNat seq.toNat = seq := UInt64.ofNat_toNat
  have hpayload : Value.ofDoc? (maxDepth - 1) (.record (recordMembers e.parts)) = some e.json :=
    e.ofDoc?_parts 125
  rw [ofBytes?, print_eq, (Writes.record (good_parts seq now e htag)).ofBytes?, Option.bind_some, ofDoc?,
    members?_parts seq now e htag]
  simp only [Option.bind_eq_bind, Option.bind_some, Shape.nat?_numeral, if_pos hseq, hback,
    text?_plain htag, text?_plain now.plain_text, hpayload]
  cases Time.Stamp.ofString? now.text with
  | none => rfl
  | some time => rfl

end Tagged

/-- What is stored is one line. -/
theorem newline_not_mem_body : newline ∉ body seq now e := by
  rw [body, Utf8.ofString_eq_encode, ofEvent, print_eq]
  exact Utf8.newline_not_mem_encode (Writes.record (good_parts seq now e (plain_tag e))).visible

/-- The record of an event is read as that event under its own tag, and under no other. -/
theorem event?_json (tag : String) : (⟨seq, tag, e.json, now⟩ : Envelope).event? =
    if tag = e.tag then .ok e
    else if tag ∈ [Event.keyTag, Event.powerTag] then .error .malformedItem
    else .error (.unknownItemType tag) := by
  have hother : Event.powerTag ≠ Event.keyTag := by decide
  cases e with
  | key k =>
    have hown : (Event.key k).tag = Event.keyTag := rfl
    have hread : KeyPress.read? (Event.key k).json = some k := k.read?_json
    have hnot : PowerEvent.read? (Event.key k).json = none := rfl
    simp only [event?, hown, hread, hnot]
    by_cases hkey : tag = Event.keyTag
    · rw [if_pos hkey, if_pos hkey]
    · by_cases hpower : tag = Event.powerTag
      · simp [hpower, hother]
      · simp [hkey, hpower]
  | power p =>
    have hown : (Event.power p).tag = Event.powerTag := rfl
    have hread : PowerEvent.read? (Event.power p).json = some p := p.read?_json
    have hnot : KeyPress.read? (Event.power p).json = none := rfl
    simp only [event?, hown, hread, hnot]
    by_cases hkey : tag = Event.keyTag
    · simp [hkey, hother.symm]
    · by_cases hpower : tag = Event.powerTag
      · simp [hpower, hother]
      · simp [hkey, hpower]

variable {now}

/-- The envelope of an event is read back. -/
theorem ofBytes?_body (h : now.Valid) : ofBytes? (body seq now e) = some (ofEvent seq now e) := by
  rw [body, ofEvent, ofBytes?_print seq now e (plain_tag e), Time.Stamp.ofString?_text h]
  rfl

/-- A stored event is read back with its number. -/
theorem decode?_body (h : now.Valid) : decode? (body seq now e) = some (seq, e) := by
  rw [decode?, ofBytes?_body seq e h, ofEvent]
  simp only [Option.bind_eq_bind, Option.bind_some, event?_json, if_true]
  rfl

end Envelope
end CecRelay
