import CecRelay.Json.Doc
import CecRelay.Proofs.Text.Decimal
import CecRelay.Proofs.Text.Utf8

/-!
# Tokens of what is written

`Spells bytes ts` says that the bytes are the tokens `ts`, one after the other and without blanks.
Plain text in quotes is one token, and so is a number in decimal when something other than a digit
follows (`Spells.text`, `Spells.nat`). The tokens of a document (`Doc.tokens`) are read back as that
document (`Doc.ofTokens?_tokens`).
-/

namespace CecRelay.Json

open Text Utf8

/-! ### Strings -/

/-- The pieces of a string that holds plain text. -/
def plainPieces (s : List Char) : List Piece := s.map fun c => .byte (UInt8.ofNat c.toNat)

theorem pieces?_plain {s : List Char} (h : ∀ c ∈ s, Plain c) (rest : Bytes) :
    pieces? (encode s ++ 0x22 :: rest) = some (plainPieces s, rest) := by
  induction s with
  | nil => simp [pieces?, plainPieces]
  | cons c s ih =>
    obtain ⟨hv, hquote, hslash⟩ := h c List.mem_cons_self
    have h22 : UInt8.ofNat c.toNat ≠ 0x22 := fun heq => hquote (hv.byte_inj (d := '"') (by decide) heq)
    have h5C : UInt8.ofNat c.toNat ≠ 0x5C := fun heq => hslash (hv.byte_inj (d := '\\') (by decide) heq)
    have hlow : ¬ UInt8.ofNat c.toNat < 0x20 := by
      rw [UInt8.lt_iff_toNat_lt, hv.toNat_byte]
      exact Nat.not_lt.2 hv.1
    rw [encode_cons_ascii hv.lt, List.cons_append, pieces?.eq_def]
    split
    next heq => cases heq
    next heq => exact absurd (List.cons.inj heq).1 h22
    next heq => exact absurd (List.cons.inj heq).1 h5C
    next heq => exact absurd (List.cons.inj heq).1 h5C
    next heq =>
      obtain ⟨rfl, rfl⟩ := List.cons.inj heq
      rw [if_neg (by simp [hlow, h5C]), ih fun d hd => h d (List.mem_cons_of_mem _ hd)]
      rfl

theorem Piece.bytes?_plain {s : List Char} (h : ∀ c ∈ s, Visible c) :
    Piece.bytes? (plainPieces s) = some (encode s) := by
  induction s with
  | nil => rfl
  | cons c s ih =>
    have hb : Piece.bytes? (plainPieces (c :: s)) =
        (Piece.bytes? (plainPieces s)).map (UInt8.ofNat c.toNat :: ·) := rfl
    rw [hb, ih fun d hd => h d (List.mem_cons_of_mem _ hd), encode_cons_ascii (h c List.mem_cons_self).lt]
    rfl

/-- The pieces of plain text are read back as that text. -/
theorem Piece.text?_plain {s : String} (h : ∀ c ∈ s.toList, Plain c) :
    Piece.text? (plainPieces s.toList) = some s := by
  rw [Piece.text?, Piece.bytes?_plain (Plain.visible h), Option.bind_some,
    toString?_encode, String.ofList_toList]

/-! ### Numbers -/

/-- A natural number as a numeral. -/
def Numeral.ofNat (n : Nat) : Numeral := ⟨false, (Nat.toDigits 10 n).map fun c => c.toNat - 0x30, [], none⟩

/-- The numeral of a number is written as that number. -/
@[simp] theorem Numeral.nat?_ofNat (n : Nat) : (Numeral.ofNat n).nat? = some n := by
  have h := decimalValue_toDigits n
  rw [decimalValue] at h
  simp only [Numeral.nat?, Numeral.ofNat, List.foldl_map, and_self, if_true]
  exact congrArg some h

/-- Nothing that follows prolongs a number. -/
def Ends (rest : Bytes) : Prop := ∀ b, rest.head? = some b → b = 0x2C ∨ b = 0x5D ∨ b = 0x7D

theorem ends_nil : Ends [] := fun _ h => by cases h

theorem ends_comma (rest : Bytes) : Ends (0x2C :: rest) := fun _ h => by cases h; exact .inl rfl

theorem ends_record (rest : Bytes) : Ends (0x7D :: rest) := fun _ h => by cases h; exact .inr (.inr rfl)

/-- The byte of a decimal digit. -/
theorem digit?_byte {c : Char} (h : isDigit c = true) :
    digit? (UInt8.ofNat c.toNat) = some (c.toNat - 0x30) := by
  have hd := isDigit_iff.1 (isDigit_eq c ▸ h)
  have hn : (UInt8.ofNat c.toNat).toNat = c.toNat := (plain_of_isDigit (isDigit_eq c ▸ h)).1.toNat_byte
  have hlow : (0x30 : UInt8) ≤ UInt8.ofNat c.toNat := by
    rw [UInt8.le_iff_toNat_le, hn]
    exact hd.1
  have hhigh : UInt8.ofNat c.toNat ≤ (0x39 : UInt8) := by
    rw [UInt8.le_iff_toNat_le, hn]
    exact hd.2
  rw [digit?, if_pos ⟨hlow, hhigh⟩, hn]

theorem digits_ends {rest : Bytes} (h : Ends rest) : digits rest = ([], rest) := by
  cases rest with
  | nil => rfl
  | cons b rest =>
    rcases h b rfl with rfl | rfl | rfl <;> rfl

theorem digits_encode {s : List Char} (hs : ∀ c ∈ s, isDigit c = true) {rest : Bytes} (h : Ends rest) :
    digits (encode s ++ rest) = (s.map fun c => c.toNat - 0x30, rest) := by
  induction s with
  | nil => simpa using digits_ends h
  | cons c s ih =>
    have hc : isDigit c = true := hs c List.mem_cons_self
    have hv := (plain_of_isDigit (isDigit_eq c ▸ hc)).1
    rw [encode_cons_ascii hv.lt, List.cons_append, digits, digit?_byte hc]
    simp only [ih fun d hd => hs d (List.mem_cons_of_mem _ hd), List.map_cons]

theorem fractionPart?_ends {rest : Bytes} (h : Ends rest) : fractionPart? rest = some ([], rest) := by
  cases rest with
  | nil => rfl
  | cons b rest =>
    rcases h b rfl with rfl | rfl | rfl <;> rfl

theorem exponentPart?_ends {rest : Bytes} (h : Ends rest) : exponentPart? rest = some (none, rest) := by
  cases rest with
  | nil => rfl
  | cons b rest =>
    rcases h b rfl with rfl | rfl | rfl <;> rfl

/-- The digits of a number are its part before the point: a zero stands alone, and no other number
starts with one. -/
theorem wholePart?_toDigits (n : Nat) {rest : Bytes} (h : Ends rest) :
    wholePart? (encode (Nat.toDigits 10 n) ++ rest) =
      some ((Nat.toDigits 10 n).map fun c => c.toNat - 0x30, rest) := by
  rcases Nat.eq_zero_or_pos n with rfl | hn
  · rw [Nat.toDigits_zero]
    rfl
  · have hd := digits_encode (fun _ hc => isDigit_of_mem_toDigits (n := n) hc) h
    have hhead := head?_toDigits hn
    obtain ⟨c, s, hcs⟩ := List.exists_cons_of_ne_nil (Nat.toDigits_ne_nil (n := n) (b := 10))
    have hc : isDigit c = true := isDigit_of_mem_toDigits (n := n) (by rw [hcs]; exact List.mem_cons_self)
    have hv := (plain_of_isDigit (isDigit_eq c ▸ hc)).1
    rw [hcs] at hd hhead ⊢
    rw [encode_cons_ascii hv.lt, List.cons_append] at hd ⊢
    have h30 : UInt8.ofNat c.toNat ≠ 0x30 := fun heq =>
      hhead (congrArg some (hv.byte_inj (d := '0') (by decide) heq))
    rw [wholePart?.eq_def]
    split
    next heq => exact absurd (List.cons.inj heq).1 h30
    next => rw [hd]; rfl

/-- A number in decimal is read as its numeral. -/
theorem numeral?_toDigits (n : Nat) {rest : Bytes} (h : Ends rest) :
    numeral? (encode (Nat.toDigits 10 n) ++ rest) = some (Numeral.ofNat n, rest) := by
  have hw := wholePart?_toDigits n h
  obtain ⟨c, s, hcs⟩ := List.exists_cons_of_ne_nil (Nat.toDigits_ne_nil (n := n) (b := 10))
  have hc : isDigit c = true := isDigit_of_mem_toDigits (n := n) (by rw [hcs]; exact List.mem_cons_self)
  have hv := (plain_of_isDigit (isDigit_eq c ▸ hc)).1
  have h2D : UInt8.ofNat c.toNat ≠ 0x2D := by
    intro heq
    rw [hv.byte_inj (d := '-') (by decide) heq] at hc
    exact absurd hc (by decide)
  have hu : unsigned? false (encode (Nat.toDigits 10 n) ++ rest) = some (Numeral.ofNat n, rest) := by
    rw [unsigned?, hw]
    simp only [Option.bind_eq_bind, Option.bind_some, fractionPart?_ends h, exponentPart?_ends h]
    rfl
  rw [hcs, encode_cons_ascii hv.lt, List.cons_append] at hu ⊢
  rw [numeral?.eq_def]
  split
  next heq => exact absurd (List.cons.inj heq).1 h2D
  next => exact hu

/-! ### Tokens -/

/-- The bytes are the tokens, one after the other and without blanks. -/
inductive Spells : Bytes → List Token → Prop
  /-- Nothing is no token. -/
  | nil : Spells [] []
  /-- The first token, and the rest. -/
  | cons {b : UInt8} {r rest : Bytes} {t : Token} {ts : List Token} : isSpace b = false →
    token? b r = some (t, rest) → rest.length ≤ r.length → Spells rest ts → Spells (b :: r) (t :: ts)

namespace Spells

/-- Every token takes a byte, so as many steps as there are bytes are enough. -/
theorem tokensWithin {r : Bytes} {ts : List Token} (h : Spells r ts) {fuel : Nat} (hf : r.length ≤ fuel) :
    Json.tokensWithin fuel r = some ts := by
  induction h generalizing fuel with
  | nil => cases fuel <;> rfl
  | cons hb ht hlen _ ih =>
    cases fuel with
    | zero => simp at hf
    | succ fuel =>
      simp only [List.length_cons, Nat.add_le_add_iff_right] at hf
      simp only [Json.tokensWithin, hb, Bool.false_eq_true, if_false, ht, Option.bind_some,
        ih (hlen.trans hf), Option.map_some]

theorem tokens? {r : Bytes} {ts : List Token} (h : Spells r ts) : Json.tokens? r = some ts :=
  h.tokensWithin (Nat.le_refl _)

variable {rest : Bytes} {ts : List Token}

theorem listOpen (h : Spells rest ts) : Spells (0x5B :: rest) (.listOpen :: ts) :=
  .cons rfl rfl (Nat.le_refl _) h

theorem listClose (h : Spells rest ts) : Spells (0x5D :: rest) (.listClose :: ts) :=
  .cons rfl rfl (Nat.le_refl _) h

theorem recordOpen (h : Spells rest ts) : Spells (0x7B :: rest) (.recordOpen :: ts) :=
  .cons rfl rfl (Nat.le_refl _) h

theorem recordClose (h : Spells rest ts) : Spells (0x7D :: rest) (.recordClose :: ts) :=
  .cons rfl rfl (Nat.le_refl _) h

theorem comma (h : Spells rest ts) : Spells (0x2C :: rest) (.comma :: ts) :=
  .cons rfl rfl (Nat.le_refl _) h

theorem colon (h : Spells rest ts) : Spells (0x3A :: rest) (.colon :: ts) :=
  .cons rfl rfl (Nat.le_refl _) h

theorem null (h : Spells rest ts) : Spells (0x6E :: 0x75 :: 0x6C :: 0x6C :: rest) (.null :: ts) := by
  have ht : token? 0x6E (0x75 :: 0x6C :: 0x6C :: rest) = some (.null, rest) := rfl
  exact .cons rfl ht (by simp only [List.length_cons]; omega) h

theorem bool_true (h : Spells rest ts) :
    Spells (0x74 :: 0x72 :: 0x75 :: 0x65 :: rest) (.bool true :: ts) := by
  have ht : token? 0x74 (0x72 :: 0x75 :: 0x65 :: rest) = some (.bool true, rest) := rfl
  exact .cons rfl ht (by simp only [List.length_cons]; omega) h

theorem bool_false (h : Spells rest ts) :
    Spells (0x66 :: 0x61 :: 0x6C :: 0x73 :: 0x65 :: rest) (.bool false :: ts) := by
  have ht : token? 0x66 (0x61 :: 0x6C :: 0x73 :: 0x65 :: rest) = some (.bool false, rest) := rfl
  exact .cons rfl ht (by simp only [List.length_cons]; omega) h

/-- Plain text in quotes is one token. -/
theorem text {s : List Char} (hs : ∀ c ∈ s, Plain c) (h : Spells rest ts) :
    Spells (0x22 :: (encode s ++ 0x22 :: rest)) (.string (plainPieces s) :: ts) := by
  refine .cons rfl ?_ ?_ h
  · have ht : token? 0x22 (encode s ++ 0x22 :: rest) =
        (pieces? (encode s ++ 0x22 :: rest)).map fun p => (.string p.1, p.2) := rfl
    rw [ht, pieces?_plain hs]
    rfl
  · simp only [List.length_append, List.length_cons]
    omega

/-- A number in decimal is one token, when nothing prolongs it. -/
theorem nat (n : Nat) (he : Ends rest) (h : Spells rest ts) :
    Spells (encode (Nat.toDigits 10 n) ++ rest) (.numeral (.ofNat n) :: ts) := by
  have hnum := numeral?_toDigits n he
  obtain ⟨c, s, hcs⟩ := List.exists_cons_of_ne_nil (Nat.toDigits_ne_nil (n := n) (b := 10))
  have hc : isDigit c = true := isDigit_of_mem_toDigits (n := n) (by rw [hcs]; exact List.mem_cons_self)
  obtain ⟨hlow, hhigh⟩ := isDigit_iff.1 (isDigit_eq c ▸ hc)
  have hv := (plain_of_isDigit (isDigit_eq c ▸ hc)).1
  rw [hcs, encode_cons_ascii hv.lt, List.cons_append] at hnum ⊢
  generalize hm : c.toNat = m at *
  have ht : isSpace (UInt8.ofNat m) = false ∧ ∀ r, token? (UInt8.ofNat m) r =
      (numeral? (UInt8.ofNat m :: r)).map fun p => (.numeral p.1, p.2) := by
    interval_cases m <;> exact ⟨rfl, fun _ => rfl⟩
  refine .cons ht.1 ?_ ?_ h
  · rw [ht.2, hnum]
    rfl
  · simp only [List.length_append]
    omega

end Spells

/-! ### Documents -/

mutual

/-- The tokens of a document. -/
def Doc.tokens : Doc → List Token
  | .null => [.null]
  | .bool b => [.bool b]
  | .number n => [.numeral n]
  | .string ps => [.string ps]
  | .list items => .listOpen :: Doc.itemTokens items
  | .record members => .recordOpen :: Doc.memberTokens members

/-- The tokens of the items of a list, and of its end. -/
def Doc.itemTokens : List Doc → List Token
  | [] => [.listClose]
  | [item] => item.tokens ++ [.listClose]
  | item :: next :: items => item.tokens ++ .comma :: Doc.itemTokens (next :: items)

/-- The tokens of the members of a record, and of its end. -/
def Doc.memberTokens : List (List Piece × Doc) → List Token
  | [] => [.recordClose]
  | [(name, content)] => .string name :: .colon :: (content.tokens ++ [.recordClose])
  | (name, content) :: next :: members =>
    .string name :: .colon :: (content.tokens ++ .comma :: Doc.memberTokens (next :: members))

end

/-- A document does not start with the end of a list. -/
theorem Doc.tokens_eq_cons (d : Doc) : ∃ t ts, d.tokens = t :: ts ∧ t ≠ .listClose := by
  cases d <;> exact ⟨_, _, rfl, by simp⟩

/-- A list with items in it is read item by item. -/
theorem Doc.read_listOpen (fuel : Nat) {t : Token} (ht : t ≠ .listClose) (ts : List Token) :
    Doc.read (fuel + 1) (.listOpen :: t :: ts) =
      (Doc.readItems fuel (t :: ts)).map fun (items, ts) => (.list items, ts) := by
  cases t <;> first | rfl | exact absurd rfl ht

/-- The tokens of a document, of the items of a list and of the members of a record are read as what
they belong to, whatever follows. The induction is on the steps left: every reader hands one step
less to the readers of its parts. -/
theorem Doc.read_tokens (fuel : Nat) :
    (∀ (d : Doc) (ts : List Token), 2 * d.tokens.length ≤ fuel →
      Doc.read fuel (d.tokens ++ ts) = some (d, ts)) ∧
    (∀ (item : Doc) (items : List Doc) (ts : List Token),
      2 * (Doc.itemTokens (item :: items)).length ≤ fuel →
      Doc.readItems fuel (Doc.itemTokens (item :: items) ++ ts) = some (item :: items, ts)) ∧
    (∀ (name : List Piece) (content : Doc) (members : List (List Piece × Doc)) (ts : List Token),
      2 * (Doc.memberTokens ((name, content) :: members)).length ≤ fuel →
      Doc.readMembers fuel (Doc.memberTokens ((name, content) :: members) ++ ts) =
        some ((name, content) :: members, ts)) := by
  induction fuel with
  | zero =>
    refine ⟨fun d ts hf => ?_, fun item items ts hf => ?_, fun name content members ts hf => ?_⟩
    · obtain ⟨t, us, h, -⟩ := d.tokens_eq_cons
      simp [h] at hf
    · cases items <;> simp [Doc.itemTokens] at hf
    · cases members <;> simp [Doc.memberTokens] at hf
  | succ fuel ih =>
    obtain ⟨ihd, ihi, ihm⟩ := ih
    refine ⟨fun d ts hf => ?_, fun item items ts hf => ?_, fun name content members ts hf => ?_⟩
    · match d with
      | .null | .bool _ | .number _ | .string _ | .list [] | .record [] => rfl
      | .list (item :: items) =>
        simp only [Doc.tokens, List.length_cons] at hf
        have hi := ihi item items ts (by omega)
        obtain ⟨t, us, ht, hne⟩ : ∃ t us, Doc.itemTokens (item :: items) = t :: us ∧ t ≠ .listClose := by
          obtain ⟨t, us, h, hne⟩ := item.tokens_eq_cons
          cases items <;> simp only [Doc.itemTokens, h] <;> exact ⟨t, _, rfl, hne⟩
        rw [ht, List.cons_append] at hi
        rw [Doc.tokens, ht, List.cons_append, List.cons_append, Doc.read_listOpen fuel hne, hi]
        rfl
      | .record ((name, content) :: members) =>
        simp only [Doc.tokens, List.length_cons] at hf
        have hm := ihm name content members ts (by omega)
        obtain ⟨us, ht⟩ : ∃ us, Doc.memberTokens ((name, content) :: members) = .string name :: us := by
          cases members <;> exact ⟨_, rfl⟩
        rw [ht, List.cons_append] at hm
        have hr : Doc.read (fuel + 1) (.recordOpen :: .string name :: (us ++ ts)) =
            (Doc.readMembers fuel (.string name :: (us ++ ts))).map fun p => (.record p.1, p.2) := rfl
        rw [Doc.tokens, ht, List.cons_append, List.cons_append, hr, hm]
        rfl
    · cases items with
      | nil =>
        simp only [Doc.itemTokens, List.length_append, List.length_singleton] at hf
        have hi := ihd item (.listClose :: ts) (by omega)
        rw [Doc.itemTokens, List.append_assoc, List.singleton_append, Doc.readItems, hi]
      | cons next items =>
        simp only [Doc.itemTokens, List.length_append, List.length_cons] at hf
        have hi := ihd item (.comma :: (Doc.itemTokens (next :: items) ++ ts)) (by omega)
        have hr := ihi next items ts (by omega)
        rw [Doc.itemTokens, List.append_assoc, List.cons_append, Doc.readItems, hi]
        simp only [hr, Option.map_some]
    · cases members with
      | nil =>
        simp only [Doc.memberTokens, List.length_append, List.length_cons] at hf
        have hc := ihd content (.recordClose :: ts) (by omega)
        rw [Doc.memberTokens, List.cons_append, List.cons_append, List.append_assoc,
          List.singleton_append, Doc.readMembers, hc]
      | cons next members =>
        obtain ⟨next, inner⟩ := next
        simp only [Doc.memberTokens, List.length_append, List.length_cons] at hf
        have hc := ihd content (.comma :: (Doc.memberTokens ((next, inner) :: members) ++ ts)) (by omega)
        have hr := ihm next inner members ts (by omega)
        rw [Doc.memberTokens, List.cons_append, List.cons_append, List.append_assoc, List.cons_append,
          Doc.readMembers, hc]
        simp only [hr, Option.map_some]

/-- The tokens of a document spell that document. -/
theorem Doc.ofTokens?_tokens (d : Doc) : Doc.ofTokens? d.tokens = some d := by
  have h := (Doc.read_tokens (2 * d.tokens.length + 1)).1 d [] (Nat.le_succ _)
  rw [List.append_nil] at h
  rw [Doc.ofTokens?, h]

/-- Bytes that spell the tokens of a document are read as that document. -/
theorem Spells.ofBytes? {r : Bytes} {d : Doc} (h : Spells r d.tokens) : Doc.ofBytes? r = some d := by
  rw [Doc.ofBytes?, h.tokens?, Option.bind_some, Doc.ofTokens?_tokens]

end CecRelay.Json
