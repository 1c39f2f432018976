import CecRelay.Config.Lists
import CecRelay.Proofs.Text.Names
import CecRelay.Proofs.Text.Numeral
import CecRelay.Proofs.Text.Search
import Mathlib.Data.List.Forall2

/-!
# Lists on the command line in parts

What the entries of a list say does not depend on how they are put together. The addresses of devices, and the warnings
about the parts that are none, are those of one list of entries followed by those of the next, and it makes no
difference whether entries stand apart or in one entry with commas between them (`Devices.ofEntries_append`,
`Devices.ofEntries_intercalate`). The overrides of the key table are those of the next list put over those of the first
one (`Overrides.ofEntries_append`). An entry with one colon is an override (`Overrides.ofEntry_named`), and any other
entry changes nothing (`Overrides.ofEntry_eq_none`). `entries_in_parts` puts this together.
-/

namespace CecRelay

open Text

/-! ### Devices -/

namespace Devices

/-- The parts of entries, without the blanks at their ends. -/
def texts (entries : List String) : List (List Char) := (entries.flatMap parts).map trim

/-- The address that a text stands for. -/
def address? (text : List Char) : Option UInt8 := (readByte 10 text).toOption

/-- A text says something, and that is no address. -/
def Unread (text : List Char) : Prop := text ≠ [] ∧ address? text = none

instance (text : List Char) : Decidable (Unread text) := inferInstanceAs (Decidable (_ ∧ _))

/-- A warning is about a text that is no address, and gives the cause. -/
def About (text : List Char) (w : Warning) : Prop :=
  ∃ cause, readByte 10 text = .error cause ∧ w = .deviceAddress (String.ofList text) cause

variable {entries more : List String} {part text : List Char}

/-- Only the parts of the entries matter. -/
theorem ofEntries_congr (h : entries.flatMap parts = more.flatMap parts) : ofEntries entries = ofEntries more := by
  rw [ofEntries, h, ofEntries]

theorem ofEntries_append (entries more : List String) : ofEntries (entries ++ more) =
    ((ofEntries entries).1 ++ (ofEntries more).1, (ofEntries entries).2 ++ (ofEntries more).2) := by
  simp [ofEntries]

/-- Entries may stand in one entry with commas between them. -/
theorem ofEntries_intercalate (entries : List String) : ofEntries [",".intercalate entries] = ofEntries entries := by
  cases entries with
  | nil => rfl
  | cons entry entries =>
    have hsome : (entry :: entries).map String.toList ≠ [] := by simp
    refine ofEntries_congr ?_
    rw [List.flatMap_singleton, parts, String.toList_intercalate]
    exact (splitAt_intercalate ',' hsome).trans (List.flatMap_map _ _ _)

/-- A part is empty, or an address, or it is warned about. -/
theorem ofPart_cases (part : List Char) :
    (trim part = [] ∧ ofPart part = ([], [])) ∨
      (∃ address, address? (trim part) = some address ∧ ofPart part = ([address], [])) ∨
      (Unread (trim part) ∧ ∃ w, About (trim part) w ∧ ofPart part = ([], [w])) := by
  by_cases hempty : trim part = []
  · refine .inl ⟨hempty, ?_⟩
    simp only [ofPart, hempty, if_true]
  · cases hread : readByte 10 (trim part) with
    | ok address =>
      refine .inr (.inl ⟨address, ?_, ?_⟩)
      · rw [address?, hread]
        rfl
      · simp only [ofPart, hempty, if_false, hread]
    | error cause =>
      refine .inr (.inr ⟨⟨hempty, ?_⟩, _, ⟨cause, hread, rfl⟩, ?_⟩)
      · rw [address?, hread]
        rfl
      · simp only [ofPart, hempty, if_false, hread]

theorem addresses_ofEntries (entries : List String) : (ofEntries entries).1 = (texts entries).filterMap address? := by
  have hnil : address? [] = none := rfl
  rw [ofEntries, texts]
  induction entries.flatMap parts with
  | nil => rfl
  | cons part rest ih =>
    simp only [List.map_cons, List.flatMap_cons] at ih ⊢
    rcases ofPart_cases part with ⟨htext, hpart⟩ | ⟨address, htext, hpart⟩ | ⟨⟨-, htext⟩, w, -, hpart⟩
    · simp [hpart, htext, hnil, ih]
    · simp [hpart, htext, ih]
    · simp [hpart, htext, ih]

theorem warnings_ofEntries (entries : List String) :
    List.Forall₂ About ((texts entries).filter fun text => Unread text) (ofEntries entries).2 := by
  rw [ofEntries, texts]
  induction entries.flatMap parts with
  | nil => exact .nil
  | cons part rest ih =>
    simp only [List.map_cons, List.flatMap_cons] at ih ⊢
    rcases ofPart_cases part with ⟨htext, hpart⟩ | ⟨address, htext, hpart⟩ | ⟨hunread, w, habout, hpart⟩
    · have hsaid : ¬ Unread (trim part) := fun h => h.1 htext
      simpa [hpart, hsaid] using ih
    · have hsaid : ¬ Unread (trim part) := by
        intro h
        rw [h.2] at htext
        cases htext
      simpa [hpart, hsaid] using ih
    · simp only [hpart, List.filter_cons, hunread, decide_true, if_true, List.singleton_append]
      exact .cons habout ih

end Devices

/-! ### Overrides -/

namespace Overrides

/-- The input code that a text stands for. -/
def code? (text : List Char) : Option UInt16 := (readUInt16 text).toOption

variable {entry : String} {name codes : List Char} {pieces : List (List Char)}

theorem codes_ofPart (pieces : List (List Char)) :
    (pieces.map ofPart).flatMap (·.1) = (pieces.map trim).filterMap code? := by
  induction pieces with
  | nil => rfl
  | cons piece rest ih =>
    simp only [List.map_cons, List.flatMap_cons] at ih ⊢
    rw [ih, List.filterMap_cons, ofPart, code?]
    cases readUInt16 (trim piece) with
    | ok code => rfl
    | error cause => rfl

/-- The pieces of an override are its name and its codes. -/
theorem cut?_eq (hentry : entry.toList = name ++ ':' :: codes) (hname : ':' ∉ name) (hcodes : ':' ∉ codes) :
    cut? entry = some (String.ofList (trim name), codes) := by
  have hpieces : splitAt ':' entry.toList = [name, codes] := by
    refine splitAt_eq_iff.2 ⟨by simp, ?_, ?_⟩
    · simp [hname, hcodes]
    · simp [hentry]
  rw [cut?, hpieces]

theorem cut?_eq_none_iff : cut? entry = none ↔ entry.toList.count ':' ≠ 1 := by
  have hlength := length_splitAt ':' entry.toList
  rw [cut?]
  split
  next name codes hpieces =>
    have hcount : entry.toList.count ':' = 1 := by
      rw [hpieces] at hlength
      exact (Nat.succ.inj hlength).symm
    simp [hcount]
  next hnot =>
    refine iff_of_true rfl fun hcount => ?_
    rw [hcount] at hlength
    obtain ⟨name, codes, hpieces⟩ := List.length_eq_two.1 hlength
    exact hnot name codes hpieces

/-- An override is its name and those of its codes that can be read, in order. -/
theorem ofEntry_named (hentry : entry.toList = name ++ ':' :: codes) (hname : ':' ∉ name) (hcodes : ':' ∉ codes)
    (hpieces : Between '+' codes pieces) :
    (ofEntry entry).1 = some (String.ofList (trim name), (pieces.map trim).filterMap code?) := by
  simp only [ofEntry, cut?_eq hentry hname hcodes]
  rw [splitAt_eq_iff.2 hpieces, codes_ofPart]

/-- An entry without a colon or with more than one is no override. -/
theorem ofEntry_eq_none (h : entry.toList.count ':' ≠ 1) : ofEntry entry = (none, [.keymapEntry entry]) := by
  simp only [ofEntry, cut?_eq_none_iff.2 h]

theorem ofEntries_append (entries more : List String) : ofEntries (entries ++ more) =
    ((ofEntries entries).1.extend (ofEntries more).1, (ofEntries entries).2 ++ (ofEntries more).2) := by
  simp only [ofEntries, List.map_append, List.filterMap_append, List.flatMap_append, NameTable.ofList_append]

/-- An entry that is no override does not change what is overridden. -/
theorem ofEntries_passed (entries more : List String) (h : entry.toList.count ':' ≠ 1) :
    (ofEntries (entries ++ entry :: more)).1 = (ofEntries (entries ++ more)).1 := by
  simp only [ofEntries, List.map_append, List.map_cons, List.filterMap_append, List.filterMap_cons,
    ofEntry_eq_none h]

theorem ofEntries_named (hentry : entry.toList = name ++ ':' :: codes) (hname : ':' ∉ name) (hcodes : ':' ∉ codes)
    (hpieces : Between '+' codes pieces) :
    (ofEntries [entry]).1 = [(String.ofList (trim name), (pieces.map trim).filterMap code?)] := by
  simp only [ofEntries, List.map_cons, List.map_nil, List.filterMap_cons, ofEntry_named hentry hname hcodes hpieces]
  rfl

/-- Name by name, the later entries win. -/
theorem lookup_ofEntries_append (entries more : List String) (name : String) :
    List.lookup name (ofEntries (entries ++ more)).1 =
      (List.lookup name (ofEntries more).1).or (List.lookup name (ofEntries entries).1) := by
  rw [ofEntries_append]
  exact NameTable.Sorted.lookup_extend _ (NameTable.Sorted.ofList _) name

end Overrides

/-! ### Both lists -/

/-- The devices of entries followed by others are those of the first followed by those of the others, and so are the
warnings; entries may as well stand in one entry with commas between them. The devices are the parts of the entries
between the commas, trimmed, that are numbers of eight bits, in order, and each other part that is not empty is warned
about once, in order.

The overrides of entries followed by others are those of the others put over those of the first: a name has what the
others say of it, and else what the first say. An entry that has no colon, or more than one, changes nothing. An entry
with one colon overrides the name in front of it, trimmed, with those of the codes behind it, between the plus signs and
trimmed, that are numbers of sixteen bits, in order; there may be none. -/
theorem entries_in_parts (xs ys : List String) :
    (Devices.ofEntries (xs ++ ys) =
        ((Devices.ofEntries xs).1 ++ (Devices.ofEntries ys).1, (Devices.ofEntries xs).2 ++ (Devices.ofEntries ys).2) ∧
      Devices.ofEntries [",".intercalate xs] = Devices.ofEntries xs ∧
      (∀ entry pieces, Devices.parts entry = pieces ↔ Between ',' entry.toList pieces) ∧
      (Devices.ofEntries xs).1 = (Devices.texts xs).filterMap Devices.address? ∧
      (∀ text address, Devices.address? text = some address ↔ IsNumeral 10 address.toNat text) ∧
      List.Forall₂ Devices.About ((Devices.texts xs).filter fun text => Devices.Unread text)
        (Devices.ofEntries xs).2) ∧
    Overrides.ofEntries (xs ++ ys) =
        ((Overrides.ofEntries xs).1.extend (Overrides.ofEntries ys).1,
          (Overrides.ofEntries xs).2 ++ (Overrides.ofEntries ys).2) ∧
      (∀ name, List.lookup name (Overrides.ofEntries (xs ++ ys)).1 =
        (List.lookup name (Overrides.ofEntries ys).1).or (List.lookup name (Overrides.ofEntries xs).1)) ∧
      (∀ entry : String, entry.toList.count ':' ≠ 1 →
        (Overrides.ofEntries (xs ++ entry :: ys)).1 = (Overrides.ofEntries (xs ++ ys)).1) ∧
      (∀ (entry : String) name codes pieces, entry.toList = name ++ ':' :: codes → ':' ∉ name → ':' ∉ codes →
        Between '+' codes pieces → (Overrides.ofEntries [entry]).1 =
          [(String.ofList (trim name), (pieces.map trim).filterMap Overrides.code?)]) ∧
      ∀ text code, Overrides.code? text = some code ↔ IsNumeral 10 code.toNat text := by
  refine ⟨⟨Devices.ofEntries_append xs ys, Devices.ofEntries_intercalate xs, fun entry pieces => splitAt_eq_iff,
    Devices.addresses_ofEntries xs, fun text address => readByte_eq_some_iff, Devices.warnings_ofEntries xs⟩,
    Overrides.ofEntries_append xs ys, Overrides.lookup_ofEntries_append xs ys,
    fun entry => Overrides.ofEntries_passed xs ys, fun entry name codes pieces => Overrides.ofEntries_named,
    fun text code => readUInt16_eq_some_iff⟩

/-- Devices in several entries and in one, with a part that is warned about and an empty one; and a key that is
overridden twice, with an entry between that is none. -/
theorem entries_in_parts_mixed :
    Devices.ofEntries [",".intercalate ["0,1", " 4 ", "x", ""]] = ([0, 1, 4], [.deviceAddress "x" .invalidDigit]) ∧
      (Overrides.ofEntries [" Up :x+103"]).1 = [("Up", [103])] ∧
      (Overrides.ofEntries (["F1:29+46", "Up:1"] ++ "a:b:c" :: [" Up :x+103"])).1 =
        [("F1", [29, 46]), ("Up", [103])] := by
  obtain ⟨⟨-, hjoined, -⟩, -⟩ := entries_in_parts ["0,1", " 4 ", "x", ""] []
  obtain ⟨-, hlater, -, hpassed, hnamed, -⟩ := entries_in_parts ["F1:29+46", "Up:1"] [" Up :x+103"]
  have hpieces : Between '+' "x+103".toList [['x'], "103".toList] := splitAt_eq_iff.1 (by decide)
  have hup : (Overrides.ofEntries [" Up :x+103"]).1 = [("Up", [103])] := by
    rw [hnamed " Up :x+103" " Up ".toList _ _ (by decide) (by decide) (by decide) hpieces]
    decide +kernel
  refine ⟨?_, hup, ?_⟩
  · rw [hjoined]
    decide +kernel
  · rw [hpassed "a:b:c" (by decide), hlater, hup]
    decide +kernel

end CecRelay
