import CecRelay.Json.Value
import CecRelay.Proofs.Json.Spelling

/-!
# What is written reads back

`Writes s d` says that the text `s` is the document `d` written without blanks. Numbers, truth values
and plain texts are written so, and records of what is written so (`Writes.record`); such a text is
visible ASCII, and its bytes are read as the document (`Writes.ofBytes?`).
-/

namespace CecRelay.Json

open Text Utf8

/-- The text is the document, written without blanks. -/
structure Writes (s : String) (d : Doc) : Prop where
  /-- It is visible ASCII. -/
  visible : ∀ c ∈ s.toList, Visible c
  /-- Its bytes are the tokens of the document, in front of anything that prolongs no number. -/
  spells : ∀ {rest : Bytes} {ts : List Token}, Ends rest → Spells rest ts →
    Spells (encode s.toList ++ rest) (d.tokens ++ ts)

/-- A written document is read back. -/
theorem Writes.ofBytes? {s : String} {d : Doc} (h : Writes s d) : Doc.ofBytes? (ofString s) = some d := by
  have hs : Spells (encode s.toList ++ []) (d.tokens ++ []) := h.spells ends_nil .nil
  rw [List.append_nil, List.append_nil] at hs
  rw [ofString_eq_encode]
  exact hs.ofBytes?

theorem Writes.nat (n : Nat) : Writes (toString n) (.number (.ofNat n)) := by
  have htext : (toString n).toList = Nat.toDigits 10 n := by
    simp [toString, Nat.repr]
  refine ⟨?_, fun he h => ?_⟩
  · rw [htext]
    exact Plain.visible plain_toDigits
  · rw [htext]
    exact h.nat n he

theorem Writes.bool (b : Bool) : Writes (Value.bool b).print (.bool b) := by
  cases b with
  | true => exact ⟨by decide, fun _ h => h.bool_true⟩
  | false => exact ⟨by decide, fun _ h => h.bool_false⟩

/-! ### Texts -/

/-- A plain character stands for itself. -/
theorem quotedChar_plain {c : Char} (h : Plain c) : quotedChar c = [c] := by
  obtain ⟨⟨hlow, -⟩, hquote, hslash⟩ := h
  have hn : ∀ d : Char, d.toNat < 0x20 → c ≠ d := by
    rintro d hd rfl
    omega
  have h8 : c.toNat ≠ 0x08 := by omega
  have hC : c.toNat ≠ 0x0C := by omega
  rw [quotedChar, if_neg hquote, if_neg hslash, if_neg (hn '\n' (by decide)),
    if_neg (hn '\r' (by decide)), if_neg (hn '\t' (by decide)), if_neg h8, if_neg hC,
    if_neg (Nat.not_lt.2 hlow)]

theorem toList_quoted_plain {s : String} (h : ∀ c ∈ s.toList, Plain c) :
    (quoted s).toList = '"' :: (s.toList ++ ['"']) := by
  have hflat : ∀ l : List Char, (∀ c ∈ l, Plain c) → l.flatMap quotedChar = l := by
    intro l hl
    induction l with
    | nil => rfl
    | cons c l ih =>
      rw [List.flatMap_cons, quotedChar_plain (hl c List.mem_cons_self),
        ih fun d hd => hl d (List.mem_cons_of_mem _ hd), List.singleton_append]
  rw [quoted, String.toList_ofList, hflat _ h]

theorem Writes.text {s : String} (hs : ∀ c ∈ s.toList, Plain c) :
    Writes (quoted s) (.string (plainPieces s.toList)) := by
  refine ⟨?_, fun _ h => ?_⟩
  · rw [toList_quoted_plain hs]
    intro c hc
    simp only [List.mem_cons, List.mem_append, List.not_mem_nil, or_false] at hc
    rcases hc with rfl | hc | rfl
    · decide
    · exact (hs c hc).1
    · decide
  · rw [toList_quoted_plain hs, encode_cons_ascii (by decide), encode_append, List.cons_append,
      List.append_assoc]
    exact h.text hs

/-! ### Records -/

/-- A member of a record to be written: its name, its content as text and its content. -/
structure Part where
  /-- The name. -/
  name : String
  /-- The content as text. -/
  text : String
  /-- The content. -/
  doc : Doc

/-- The member is written as it should be. -/
structure Part.Good (p : Part) : Prop where
  /-- The name stands in quotes as it is. -/
  plain : ∀ c ∈ p.name.toList, Plain c
  /-- The text is the content. -/
  writes : Writes p.text p.doc

theorem Part.good {name text : String} {doc : Doc} (hn : ∀ c ∈ name.toList, Plain c)
    (h : Writes text doc) : Part.Good ⟨name, text, doc⟩ := ⟨hn, h⟩

/-- The text of a record. -/
def recordText (ps : List Part) : String :=
  "\x7b" ++ commaSeparated (ps.map fun p => quoted p.name ++ ":" ++ p.text) ++ "\x7d"

/-- The members as a document has them. -/
def recordMembers (ps : List Part) : List (List Piece × Doc) :=
  ps.map fun p => (plainPieces p.name.toList, p.doc)

theorem Part.Good.visible {p : Part} (h : p.Good) :
    ∀ c ∈ (quoted p.name ++ ":" ++ p.text).toList, Visible c := by
  intro c hc
  simp only [String.toList_append, List.mem_append, List.append_assoc] at hc
  rcases hc with hc | hc | hc
  · exact (Writes.text h.plain).visible c hc
  · rw [List.mem_singleton.1 hc]
    decide
  · exact h.writes.visible c hc

/-- A member is its name, a colon and its content. -/
theorem Part.Good.spells {p : Part} (h : p.Good) {rest : Bytes} {ts : List Token} (he : Ends rest)
    (hs : Spells rest ts) :
    Spells (encode (quoted p.name ++ ":" ++ p.text).toList ++ rest)
      (.string (plainPieces p.name.toList) :: .colon :: (p.doc.tokens ++ ts)) := by
  have hc := (h.writes.spells he hs).colon
  have hn := hc.text h.plain
  rw [String.toList_append, String.toList_append, toList_quoted_plain h.plain, encode_append,
    encode_append, encode_cons_ascii (by decide), encode_append, List.append_assoc, List.append_assoc,
    List.cons_append, List.append_assoc]
  exact hn

theorem commaSeparated_visible {ts : List String} (h : ∀ t ∈ ts, ∀ c ∈ t.toList, Visible c) :
    ∀ c ∈ (commaSeparated ts).toList, Visible c := by
  fun_induction commaSeparated ts with
  | case1 => intro c hc; cases hc
  | case2 s => exact h s List.mem_cons_self
  | case3 s rest _ ih =>
    intro c hc
    simp only [String.toList_append, List.mem_append, List.append_assoc] at hc
    rcases hc with hc | hc | hc
    · exact h s List.mem_cons_self c hc
    · rw [List.mem_singleton.1 hc]
      decide
    · exact ih (fun t ht => h t (List.mem_cons_of_mem _ ht)) c hc

/-- The members of a record with commas between them, up to its end. -/
theorem spells_members {ps : List Part} (h : ∀ p ∈ ps, p.Good) {rest : Bytes} {ts : List Token}
    (hs : Spells rest ts) :
    Spells (encode (commaSeparated (ps.map fun p => quoted p.name ++ ":" ++ p.text)).toList ++
      0x7D :: rest) (Doc.memberTokens (recordMembers ps) ++ ts) := by
  induction ps with
  | nil => exact hs.recordClose
  | cons p ps ih =>
    have hp : p.Good := h p List.mem_cons_self
    cases ps with
    | nil =>
      have := hp.spells (ends_record rest) hs.recordClose
      simpa [commaSeparated, recordMembers, Doc.memberTokens] using this
    | cons q ps =>
      have hq := ih fun r hr => h r (List.mem_cons_of_mem _ hr)
      have := hp.spells (ends_comma _) hq.comma
      simp only [List.map_cons, commaSeparated, String.toList_append, encode_append, List.append_assoc]
        at this ⊢
      simpa [recordMembers, Doc.memberTokens, encode_cons_ascii] using this

/-- A record of what is written as it should be. -/
theorem Writes.record {ps : List Part} (h : ∀ p ∈ ps, p.Good) :
    Writes (recordText ps) (.record (recordMembers ps)) := by
  have hv : ∀ c ∈ (commaSeparated (ps.map fun p => quoted p.name ++ ":" ++ p.text)).toList, Visible c := by
    refine commaSeparated_visible fun t ht => ?_
    obtain ⟨p, hp, rfl⟩ := List.mem_map.1 ht
    exact (h p hp).visible
  have htext : (recordText ps).toList =
      '\x7b' :: ((commaSeparated (ps.map fun p => quoted p.name ++ ":" ++ p.text)).toList ++ ['\x7d']) := by
    simp [recordText]
  refine ⟨?_, fun _ hs => ?_⟩
  · rw [htext]
    intro c hc
    simp only [List.mem_cons, List.mem_append, List.not_mem_nil, or_false] at hc
    rcases hc with rfl | hc | rfl
    · decide
    · exact hv c hc
    · decide
  · rw [htext, encode_cons_ascii (by decide), encode_append, List.cons_append, List.append_assoc]
    exact (spells_members h hs).recordOpen

/-- The names of a record that has been written are read back. -/
theorem named?_recordMembers {ps : List Part} (h : ∀ p ∈ ps, p.Good) :
    Doc.named? (recordMembers ps) = some (ps.map fun p => (p.name, p.doc)) := by
  induction ps with
  | nil => rfl
  | cons p ps ih =>
    have hn := Piece.text?_plain (h p List.mem_cons_self).plain
    have hr := ih fun q hq => h q (List.mem_cons_of_mem _ hq)
    simp only [Doc.named?, recordMembers] at hr
    simp only [Doc.named?, recordMembers, List.map_cons, List.mapM_cons, hn, hr, Option.map_some]
    rfl

/-- A record that has been written shows its members by name. -/
theorem shape_record {ps : List Part} (h : ∀ p ∈ ps, p.Good) :
    HasShape.shape (Doc.record (recordMembers ps)) = .record (ps.map fun p => (p.name, p.doc)) := by
  simp only [HasShape.shape, named?_recordMembers h]
  rfl

end CecRelay.Json
