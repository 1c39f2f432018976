import CecRelay.Proofs.Queue.Numbering

/-!
# What an envelope holds, and where it ends

An event is written as one line and read by two readers. The one that delivers wants the number and the event
(`Envelope.decode?`); the one that opens the log wants the number alone (`Journal.lastSeq?`). Both get what was
written when the time in the line is that of a stamp, and nothing when it is not: the time is read and then passed
over. What the contents are is told by the tag. The records of the two types share no member, so that the contents
under another tag are refused and never taken for an event of the other type.
-/

namespace CecRelay

open Lines

/-- One more line has the last number if it can be read. -/
theorem Journal.lastSeq?_concat (ls : List Bytes) (line : Bytes) :
    lastSeq? (ls ++ [line]) = (Envelope.number? line).or (lastSeq? ls) := by
  have hone : (numbers [line]).getLast? = Envelope.number? line := by
    cases h : Envelope.number? line with
    | none => rw [numbers, List.filterMap_cons_none h]; rfl
    | some seq => rw [numbers, List.filterMap_cons_some h]; rfl
  show (numbers (ls ++ [line])).getLast? = (Envelope.number? line).or (numbers ls).getLast?
  rw [numbers_append, List.getLast?_append, hone]

namespace Envelope

variable (seq : UInt64) (now : Time.Stamp) (e : Event)

theorem number?_body_eq : number? (body seq now e) = (Time.Stamp.ofString? now.text).map fun _ => seq := by
  rw [number?, body, ofEvent, ofBytes?_print seq now e (plain_tag e), Option.map_map]
  rfl

/-- The contents of an event are delivered under its own tag only. -/
theorem decode?_json {bytes : Bytes} {tag : String} (h : ofBytes? bytes = some ⟨seq, tag, e.json, now⟩) :
    decode? bytes = if tag = e.tag then some (seq, e) else none := by
  rw [decode?, h]
  simp only [Option.bind_eq_bind, Option.bind_some, event?_json]
  by_cases hown : tag = e.tag
  · simp only [if_pos hown]
    rfl
  · by_cases hknown : tag ∈ [Event.keyTag, Event.powerTag]
    · simp only [if_neg hown, if_pos hknown]
    · simp only [if_neg hown, if_neg hknown]

theorem decode?_body_eq : decode? (body seq now e) = (Time.Stamp.ofString? now.text).map fun _ => (seq, e) := by
  have hread := ofBytes?_print seq now e (plain_tag e)
  rw [body, ofEvent]
  cases htime : Time.Stamp.ofString? now.text with
  | none =>
    rw [htime] at hread
    rw [decode?, hread]
    rfl
  | some time =>
    rw [htime] at hread
    rw [decode?_json seq time e hread, if_pos rfl]
    rfl

theorem count_newline_line : (line seq now e).count newline = 1 := by
  rw [line_eq, List.count_append, List.count_eq_zero.2 (newline_not_mem_body seq now e), List.count_singleton_self]

theorem lastSeq?_line (log : Bytes) : Journal.lastSeq? (lines (complete log ++ line seq now e)) =
    ((Time.Stamp.ofString? now.text).map fun _ => seq).or (Journal.lastSeq? (lines log)) := by
  rw [complete_eq, line_eq, lines_joined_append_line (unbroken_lines log) (newline_not_mem_body seq now e),
    Journal.lastSeq?_concat, number?_body_eq]

/-- An event that is appended, under whatever number and at whatever time, is put behind the journal's part of the
log as this line. The line has one newline, at its end. The bytes before that are read as the number and the event if
the text of the time is read as a stamp, and the last number of the log is then that one; else they are not read, and
the last number is what it was. The contents of the event under another tag are an error, which tells a tag of the
other type from one of none, and a line with such an envelope in it is not delivered, however it has been written. -/
theorem framed :
    (∀ {j j' : Journal} {d d' : Disk} {log : Bytes} {head : Option Entry} {given : UInt64}, d.Stands log head →
      j.nextSeq = seq → j.append now e d = (j', d', .ok given) →
      given = seq ∧ d'.log = log.take j.len ++ line seq now e) ∧
    ((line seq now e).count newline = 1 ∧ (line seq now e).getLast? = some newline) ∧
    decode? (line seq now e).dropLast = (Time.Stamp.ofString? now.text).map (fun _ => (seq, e)) ∧
    (∀ log, Journal.lastSeq? (lines (complete log ++ line seq now e)) =
      ((Time.Stamp.ofString? now.text).map fun _ => seq).or (Journal.lastSeq? (lines log))) ∧
    ∀ other tag time,
      (⟨other, tag, e.json, time⟩ : Envelope).event? =
        (if tag = e.tag then .ok e
        else if tag ∈ [Event.keyTag, Event.powerTag] then .error .malformedItem
        else .error (.unknownItemType tag)) ∧
      ∀ bytes, ofBytes? bytes = some ⟨other, tag, e.json, time⟩ →
        decode? bytes = if tag = e.tag then some (other, e) else none := by
  refine ⟨fun hd hseq happ => ?_, ⟨count_newline_line seq now e, ?_⟩, ?_, lastSeq?_line seq now e,
    fun other tag time => ⟨event?_json other time e tag, fun bytes hbytes => decode?_json other time e hbytes⟩⟩
  · have hnew := (hd.append happ).log_eq
    rw [hseq] at hnew
    exact ⟨(Journal.append_ok happ).1.trans hseq, hnew⟩
  · rw [line_eq, List.getLast?_concat]
  · rw [line_eq, List.dropLast_concat]
    exact decode?_body_eq seq now e

/-- The record of a key under its own tag, and under that of power events. -/
theorem framed_key :
    let now : Time.Stamp := ⟨⟨2024, 1, 1⟩, 0, 0, 0, 123456789⟩
    let key : Event := .key ⟨1, 0⟩
    let d : Disk := ⟨.folder { log := some (.file []) }, none⟩
    (Journal.append ⟨{}, 0, 0, 0⟩ now key d).2.1.log = line 0 now key ∧
    decode? (line 0 now key).dropLast = some (0, key) ∧
    decode? (Utf8.ofString (print ⟨0, "power", key.json, now⟩)) = none := by
  intro now key d
  obtain ⟨happended, -, hdecoded, -, htagged⟩ := framed 0 now key
  have htime : Time.Stamp.ofString? now.text = some now := by decide +kernel
  have happ := Store.append_keyLine { log := some (.file []) } rfl
  have hbytes : ofBytes? (Utf8.ofString (print ⟨0, "power", key.json, now⟩)) = some ⟨0, "power", key.json, now⟩ := by
    rw [ofBytes?_print 0 now key (by decide), htime]
    rfl
  refine ⟨?_, ?_, ((htagged 0 "power" now).2 _ hbytes).trans (if_neg (by decide))⟩
  · have hstands : d.Stands [] none := ⟨_, rfl, rfl, rfl⟩
    have hlog := (happended hstands rfl happ).2
    rw [happ]
    exact hlog
  · rw [hdecoded, htime]
    rfl

end Envelope
end CecRelay
