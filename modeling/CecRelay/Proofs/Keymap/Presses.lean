import CecRelay.Proofs.Config.KeyOverrides
import CecRelay.Proofs.Text.ByteOrder

/-!
# What a press makes

The table of keys is the base table with the overrides laid over it in the order of their names. A key may have many
names; the last of them decides (`KeyTable.stroke?_of_last_name`). Names that no key has are passed over, each with a
warning (`KeyTable.warnings_withOverrides`), and leave no trace in the table (`KeyTable.withOverrides_filter`). A press
makes the stroke of its key, or nothing if that stroke is empty, or a warning if the key has no entry
(`KeyTable.strokes_eq`, `KeyTable.pressWarnings_eq`). `KeyTable.presses_of_overrides` puts this together for a table of
names in the order of their bytes.
-/

namespace CecRelay

/-- The names of a table sorted by name stand in the order of their bytes. -/
theorem NameTable.Sorted.bytes {α : Type} {t : NameTable α} (h : t.Sorted) :
    (t.map (·.1)).Pairwise fun m n => Utf8.ofString m < Utf8.ofString n :=
  List.pairwise_map.2 (h.imp fun hlt => Utf8.ofString_lt_iff.2 hlt)

namespace KeyTable

open Overrides

/-- The names of overrides that stand for a key, in order. -/
def namesFor (code : UInt8) (os : List (String × Stroke)) : List String :=
  (os.map (·.1)).filter fun name => KeyName.code? name = some code

variable {t : KeyTable} {os : List (String × Stroke)} {code : UInt8}

/-! ### Overrides -/

theorem namesFor_eq (code : UInt8) (os : List (String × Stroke)) :
    namesFor code os = (os.filter fun e => For code e).map (·.1) := by
  rw [namesFor, List.filter_map]
  rfl

/-- The last override for a key is the last of its overrides. -/
theorem last?_eq (code : UInt8) (os : List (String × Stroke)) :
    last? code os = (os.filter fun e => For code e).getLast? := by
  rw [last?, ← List.head?_filter, List.filter_reverse, List.head?_reverse]

/-- A key without overrides keeps its entry. -/
theorem stroke?_of_no_name (h : namesFor code os = []) : (t.withOverrides os).1.stroke? code = t.stroke? code := by
  rw [namesFor_eq, List.map_eq_nil_iff] at h
  rw [stroke?_withOverrides, last?_eq, h]
  rfl

/-- The last name of a key decides. -/
theorem stroke?_of_last_name {u : NameTable Stroke} (hsorted : u.Sorted) {names : List String} {name : String}
    {stroke : Stroke} (h : namesFor code u = names ++ [name]) (hmem : (name, stroke) ∈ u) :
    (t.withOverrides u).1.stroke? code = some stroke := by
  rw [namesFor_eq, List.map_eq_append_iff] at h
  obtain ⟨es, last, hfilter, -, hlast⟩ := h
  obtain ⟨⟨name', stroke'⟩, rfl, rfl⟩ := List.map_eq_singleton_iff.1 hlast
  have hin : (name', stroke') ∈ u :=
    List.mem_of_mem_filter (hfilter ▸ List.mem_append_right es List.mem_cons_self)
  -- the name stands once in the table
  have hsame : some stroke' = some stroke := by
    rw [← hsorted.mem_iff_lookup.1 hin, ← hsorted.mem_iff_lookup.1 hmem]
  rw [stroke?_withOverrides, last?_eq, hfilter, List.getLast?_concat]
  exact hsame

/-- Names that no key has leave no trace in the table. -/
theorem withOverrides_filter (t : KeyTable) (os : List (String × Stroke)) :
    (t.withOverrides (os.filter fun e => KeyName.code? e.1 ≠ none)).1 = (t.withOverrides os).1 := by
  induction os generalizing t with
  | nil => rfl
  | cons e os ih =>
    obtain ⟨name, stroke⟩ := e
    rw [List.filter_cons]
    split
    next => simp only [withOverrides, ih]
    next hskip =>
      have hnone : KeyName.code? name = none := by simpa using hskip
      simp only [withOverrides, override, hnone, ih]

/-- Each of them is warned about once, in order. -/
theorem warnings_withOverrides (t : KeyTable) (os : List (String × Stroke)) :
    (t.withOverrides os).2 = ((os.map (·.1)).filter fun name => KeyName.code? name = none).map .keyName := by
  induction os generalizing t with
  | nil => rfl
  | cons e os ih =>
    obtain ⟨name, stroke⟩ := e
    cases hname : KeyName.code? name with
    | none => simp [withOverrides, override, hname, ih]
    | some code => simp [withOverrides, override, hname, ih]

/-! ### Presses -/

/-- Presses make the strokes of their keys that are not empty. -/
theorem strokes_eq (t : KeyTable) (codes : List UInt8) :
    t.strokes codes = (codes.filterMap t.stroke?).filter (· ≠ []) := by
  rw [strokes, List.filter_filterMap]
  refine List.filterMap_congr fun code _ => ?_
  rw [press]
  cases t.stroke? code with
  | none => rfl
  | some stroke =>
    cases stroke with
    | nil | cons => rfl

/-- Presses of keys without an entry are warned about. -/
theorem pressWarnings_eq (t : KeyTable) (codes : List UInt8) :
    t.pressWarnings codes = (codes.filter fun code => t.stroke? code = none).map .unmappedKey := by
  rw [pressWarnings]
  induction codes with
  | nil => rfl
  | cons code codes ih =>
    rw [List.flatMap_cons, ih, List.filter_cons, press]
    cases h : t.stroke? code with
    | none => rfl
    | some stroke => cases stroke <;> rfl

/-- A table of overrides is sorted by name, which is the order of bytes. A key has the stroke of the last of its names,
or else that of the base table. Names that no key has change no entry and are warned about once each, in order.
Presses make the strokes of their keys that are not empty, in order, and are warned about exactly if their key has no
entry; so an override without codes silences a key without a warning. -/
theorem presses_of_overrides (u : NameTable Stroke) (hsorted : u.Sorted) :
    (u.map (·.1)).Pairwise (fun m n => Utf8.ofString m < Utf8.ofString n) ∧
    (∀ code, (namesFor code u = [] → (ofOverrides u).1.stroke? code = baseTable.stroke? code) ∧
      ∀ names name stroke, namesFor code u = names ++ [name] → (name, stroke) ∈ u →
        (ofOverrides u).1.stroke? code = some stroke) ∧
    (ofOverrides (u.filter fun e => KeyName.code? e.1 ≠ none)).1 = (ofOverrides u).1 ∧
    (ofOverrides u).2 = ((u.map (·.1)).filter fun name => KeyName.code? name = none).map .keyName ∧
    (∀ codes, (ofOverrides u).1.strokes codes = (codes.filterMap (ofOverrides u).1.stroke?).filter (· ≠ []) ∧
      (ofOverrides u).1.pressWarnings codes =
        (codes.filter fun code => (ofOverrides u).1.stroke? code = none).map .unmappedKey) ∧
    ∀ code names name, namesFor code u = names ++ [name] → (name, []) ∈ u →
      (ofOverrides u).1.press code = (none, []) := by
  refine ⟨hsorted.bytes, fun code => ⟨stroke?_of_no_name, fun names name stroke => stroke?_of_last_name hsorted⟩,
    withOverrides_filter _ _, warnings_withOverrides _ _, fun codes => ⟨strokes_eq _ codes, pressWarnings_eq _ codes⟩,
    fun code names name h hmem => ?_⟩
  have hsilent : (ofOverrides u).1.stroke? code = some [] := stroke?_of_last_name hsorted h hmem
  rw [press, hsilent]

/-- Three spellings of one key, a name that no key has, and a key that is silenced. -/
def mixedNames : NameTable Stroke := [("0x09", [5]), ("Home", [6]), ("bogus", [7]), ("root_menu", [8]), ("up", [])]

/-- The last spelling decides, and the silenced key makes neither a stroke nor a warning. -/
theorem presses_of_mixed_names :
    mixedNames.Sorted ∧ namesFor 9 mixedNames = ["0x09", "Home", "root_menu"] ∧
      (ofOverrides mixedNames).1.stroke? 9 = some [8] ∧ (ofOverrides mixedNames).2 = [.keyName "bogus"] ∧
      (ofOverrides mixedNames).1.press 1 = (none, []) ∧
      (ofOverrides mixedNames).1.strokes [1, 9, 0x7F] = [[8]] ∧
      (ofOverrides mixedNames).1.pressWarnings [1, 9, 0x7F] = [.unmappedKey 0x7F] := by
  have hsorted : mixedNames.Sorted := by
    rw [NameTable.Sorted, mixedNames]
    decide +kernel
  have hhome : namesFor 9 mixedNames = ["0x09", "Home"] ++ ["root_menu"] := by decide +kernel
  have hup : namesFor 1 mixedNames = [] ++ ["up"] := by decide +kernel
  obtain ⟨-, hstrokes, -, hwarnings, hpresses, hsilent⟩ := presses_of_overrides mixedNames hsorted
  have hnine := (hstrokes 9).2 _ _ [8] hhome (by decide)
  refine ⟨hsorted, hhome, hnine, ?_, hsilent 1 _ _ hup (by decide), ?_, ?_⟩
  · rw [hwarnings]
    decide +kernel
  · rw [(hpresses _).1]
    decide +kernel
  · rw [(hpresses _).2]
    decide +kernel

end KeyTable
end CecRelay
