import CecRelay.Keymap.KeyName
import CecRelay.Proofs.Text.Decimal
import CecRelay.Proofs.Text.Search
import Mathlib

/-!
# The spellings of a key name

The case of the letters of a name makes no difference, nor which of a space, an underscore or a hyphen stands between
its words (`KeyName.Alike`). At the ends of a name it does. Blanks are taken off there first, and only then do
underscores and hyphens count as blanks: a name that still has one of these at an end (`KeyName.Hangs`) is the name of
no key (`KeyName.code?_of_hangs`). Every other name has the code of the name with spaces for them
(`KeyName.code?_spaced`). So two spellings of a name have the same code, unless one of them hangs, the other one does
not, and there is a key of that name (`KeyName.same_code_iff`).
-/

namespace CecRelay

/-! ### Letters -/

namespace Text

variable {c d : Char}

theorem toLower_of_not_isAlpha (h : c.isAlpha = false) : c.toLower = c := by
  apply Char.toLower_eq_of_not_isUpper
  intro hupper
  rw [Char.isAlpha, hupper, Bool.true_or] at h
  cases h

/-- What is no letter has no other case. -/
theorem toLower_eq_iff (hd : d.isAlpha = false) : c.toLower = d ↔ c = d := by
  constructor
  · intro h
    have hc : c.isAlpha = false := by rw [← Char.isAlpha_toLower_eq_isAlpha, h, hd]
    rw [← h, toLower_of_not_isAlpha hc]
  · rintro rfl
    exact toLower_of_not_isAlpha hd

/-- A letter is no blank. -/
theorem isBlank_of_isAlpha (h : c.isAlpha = true) : isBlank c = false := by
  have hrange : (65 ≤ c.toNat ∧ c.toNat ≤ 90) ∨ (97 ≤ c.toNat ∧ c.toNat ≤ 122) := by
    simpa [Char.isAlpha, Char.isUpper, Char.isLower, UInt32.le_iff_toNat_le] using h
  simp only [isBlank, Bool.or_eq_false_iff, Bool.and_eq_false_iff, decide_eq_false_iff_not, beq_eq_false_iff_ne]
  omega

theorem isBlank_toLower (c : Char) : isBlank c.toLower = isBlank c := by
  by_cases hc : c.isAlpha = true
  · have hlower : c.toLower.isAlpha = true := by rw [Char.isAlpha_toLower_eq_isAlpha, hc]
    rw [isBlank_of_isAlpha hc, isBlank_of_isAlpha hlower]
  · rw [toLower_of_not_isAlpha (Bool.eq_false_iff.2 hc)]

end Text

namespace KeyName

open Text

variable {c d : Char} {name other : String} {s : List Char}

/-- What may stand between the words of a name. -/
def separators : List Char := [' ', '_', '-']

/-- What two spellings of a name may have in one place. -/
inductive Same (c d : Char) : Prop
  /-- The same character, or a letter in both cases. -/
  | letter : c.toLower = d.toLower → Same c d
  /-- Two separators. -/
  | separator : c ∈ separators → d ∈ separators → Same c d

/-- Two spellings of one name. -/
def Alike (name other : String) : Prop := List.Forall₂ Same name.toList other.toList

/-- With the blanks at its ends taken off, a name begins or ends with an underscore or a hyphen. -/
def Hangs (name : String) : Prop :=
  ∃ c ∈ ['_', '-'], c ∈ (trim name.toList).head? ∨ c ∈ (trim name.toList).getLast?

-- The two characters are tried; the instance found otherwise goes through all characters.
instance : Decidable (Hangs name) :=
  List.decidableBEx (fun c => c ∈ (trim name.toList).head? ∨ c ∈ (trim name.toList).getLast?) ['_', '-']

/-- A name with spaces for its underscores and hyphens. -/
def spaced (name : String) : String := String.ofList (name.toList.map fun c => if c ∈ separators then ' ' else c)

/-! ### Separators -/

theorem mem_separators : c ∈ separators ↔ c = ' ' ∨ c = '_' ∨ c = '-' := by
  simp [separators]

theorem toLower_mem_separators : c.toLower ∈ separators ↔ c ∈ separators := by
  rw [mem_separators, mem_separators, toLower_eq_iff rfl, toLower_eq_iff rfl, toLower_eq_iff rfl]

theorem plain_of_not_separator (h : c ∉ separators) : plain c = c.toLower := by
  rw [mem_separators, not_or] at h
  exact if_neg h.2

theorem plain_eq_space_iff : plain c = ' ' ↔ c ∈ separators := by
  constructor
  · intro h
    by_contra hc
    rw [plain_of_not_separator hc] at h
    refine hc (toLower_mem_separators.1 ?_)
    rw [h]
    decide
  · intro h
    rcases mem_separators.1 h with rfl | rfl | rfl <;> rfl

/-- In one place two spellings may have what is the same in the one spelling used here. -/
theorem same_iff : Same c d ↔ plain c = plain d := by
  constructor
  · rintro (h | ⟨hc, hd⟩)
    · by_cases hc : c ∈ separators
      · have hd : d ∈ separators := by rwa [← toLower_mem_separators, ← h, toLower_mem_separators]
        rw [plain_eq_space_iff.2 hc, plain_eq_space_iff.2 hd]
      · have hd : d ∉ separators := by rwa [← toLower_mem_separators, ← h, toLower_mem_separators]
        rw [plain_of_not_separator hc, plain_of_not_separator hd, h]
    · rw [plain_eq_space_iff.2 hc, plain_eq_space_iff.2 hd]
  · intro h
    by_cases hc : c ∈ separators
    · rw [plain_eq_space_iff.2 hc, eq_comm, plain_eq_space_iff] at h
      exact .separator hc h
    · have hd : d ∉ separators := by rwa [← plain_eq_space_iff, ← h, plain_eq_space_iff]
      rw [plain_of_not_separator hc, plain_of_not_separator hd] at h
      exact .letter h

/-- Two spellings of a name are the same in the one spelling used here. -/
theorem alike_iff : Alike name other ↔ name.toList.map plain = other.toList.map plain := by
  have hsame : Same = fun c d => plain c = plain d := funext fun c => funext fun d => propext same_iff
  rw [← List.forall₂_eq_eq_eq, List.forall₂_map_left_iff, List.forall₂_map_right_iff, Alike, hsame]

/-! ### Blanks at the ends -/

theorem isBlank_plain_of_isBlank (h : isBlank c = true) : isBlank (plain c) = true := by
  by_cases hc : c ∈ separators
  · rw [plain_eq_space_iff.2 hc]
    rfl
  · rw [plain_of_not_separator hc, isBlank_toLower, h]

/-- Only underscores and hyphens come to count as blanks. -/
theorem isBlank_plain_of_not_isBlank (h : isBlank c = false) (hc : c ∉ ['_', '-']) : isBlank (plain c) = false := by
  have hnot : c ∉ separators := by
    rw [separators, List.mem_cons, not_or]
    refine ⟨?_, hc⟩
    rintro rfl
    cases h
  rw [plain_of_not_separator hnot, isBlank_toLower, h]

/-- If no underscore or hyphen is at the ends of a trimmed text, it makes no difference whether these count as blanks
before or after trimming. -/
theorem normal_eq (hhead : ∀ c ∈ (trim s).head?, c ∉ ['_', '-']) (hlast : ∀ c ∈ (trim s).getLast?, c ∉ ['_', '-']) :
    normal s = trim (s.map plain) := by
  symm
  apply trim_map
  · intro c
    exact isBlank_plain_of_isBlank
  · intro c hc
    exact isBlank_plain_of_not_isBlank (isBlank_head?_trim s c hc) (hhead c hc)
  · intro c hc
    exact isBlank_plain_of_not_isBlank (isBlank_getLast?_trim s c hc) (hlast c hc)

/-- The code of a name that does not hang is that of the one spelling used here, trimmed afterwards. -/
theorem code?_of_not_hangs (h : ¬ Hangs name) : code? name = codeOfNormal? (trim (name.toList.map plain)) := by
  rw [code?, normal_eq]
  · intro c hc hin
    exact h ⟨c, hin, .inl hc⟩
  · intro c hc hin
    exact h ⟨c, hin, .inr hc⟩

/-- There are no underscores and hyphens in a name with spaces for them. -/
theorem not_mem_spaced (h : c ∈ (spaced name).toList) : c ∉ ['_', '-'] := by
  rw [spaced, String.toList_ofList] at h
  obtain ⟨d, -, rfl⟩ := List.mem_map.1 h
  split
  · decide
  next hd =>
    rw [separators, List.mem_cons, not_or] at hd
    exact hd.2

theorem not_hangs_spaced (name : String) : ¬ Hangs (spaced name) := by
  rintro ⟨c, hin, hc | hc⟩
  · exact not_mem_spaced (mem_of_mem_trim (List.mem_of_mem_head? hc)) hin
  · exact not_mem_spaced (mem_of_mem_trim (List.mem_of_mem_getLast? hc)) hin

/-- In the one spelling used here a name is the same with spaces for its underscores and hyphens. -/
theorem map_plain_spaced (name : String) : (spaced name).toList.map plain = name.toList.map plain := by
  rw [spaced, String.toList_ofList, List.map_map]
  refine List.map_congr_left fun c _ => ?_
  rw [Function.comp_apply]
  split
  next hc => rw [plain_eq_space_iff.2 hc, plain_eq_space_iff.2 (by decide)]
  next => rfl

/-- A name that does not hang has the code of the name with spaces for its underscores and hyphens. -/
theorem code?_spaced (h : ¬ Hangs name) : code? (spaced name) = code? name := by
  rw [code?_of_not_hangs (not_hangs_spaced name), map_plain_spaced, code?_of_not_hangs h]

/-- With spaces for underscores and hyphens all spellings of a name have the same code. -/
theorem code?_spaced_of_alike (h : Alike name other) : code? (spaced name) = code? (spaced other) := by
  rw [code?_of_not_hangs (not_hangs_spaced name), code?_of_not_hangs (not_hangs_spaced other), map_plain_spaced,
    map_plain_spaced, alike_iff.1 h]

/-! ### Names that hang -/

/-- No key has a name that begins or ends with a space, and no numeral has a space in it. -/
theorem codeOfNormal?_eq_none (h : ' ' ∈ s.head? ∨ ' ' ∈ s.getLast?) : codeOfNormal? s = none := by
  have hspace : ' ' ∈ s := h.elim List.mem_of_mem_head? List.mem_of_mem_getLast?
  have hunread : ∀ {radix : Nat} {t : List Char}, ' ' ∈ t → (readByte radix t).toOption = none := by
    intro radix t ht
    refine Option.eq_none_iff_forall_ne_some.2 fun code hcode => ?_
    exact absurd ((readByte_eq_some_iff.1 hcode).isBlank_of_mem ht) (by decide)
  have hnames : ∀ e ∈ codes, e.1.toList.head? ≠ some ' ' ∧ e.1.toList.getLast? ≠ some ' ' := by decide
  have hlookup : codes.lookup (String.ofList s) = none := by
    refine List.lookup_eq_none_iff.2 fun e he => bne_iff_ne.2 fun heq => ?_
    have hs : s = e.1.toList := by rw [← heq, String.toList_ofList]
    rw [hs] at h
    exact h.elim (hnames e he).1 (hnames e he).2
  rw [codeOfNormal?, hlookup]
  cases hhex : afterLead? ['0', 'x'] s with
  | none => exact hunread hspace
  | some digits =>
    -- the space does not stand in the mark of a hexadecimal number, so it stands among the digits
    rw [afterLead?_eq_some_iff.1 hhex] at hspace
    exact hunread ((List.mem_append.1 hspace).resolve_left (by decide))

/-- A name that hangs is the name of no key. -/
theorem code?_of_hangs (h : Hangs name) : code? name = none := by
  obtain ⟨c, hin, hend⟩ := h
  have hplain : plain c = ' ' := plain_eq_space_iff.2 (List.mem_cons_of_mem ' ' hin)
  refine codeOfNormal?_eq_none (hend.imp (fun hc => ?_) fun hc => ?_)
  · rw [normal, List.head?_map, Option.mem_def.1 hc, Option.map_some, hplain]
    rfl
  · rw [normal, List.getLast?_map, Option.mem_def.1 hc, Option.map_some, hplain]
    rfl

/-- Two spellings of a name have the same code if they do not hang, and a spelling that hangs has none. So they have
the same code exactly if both of them hang or neither does, or no key has that name with spaces between its words. -/
theorem same_code_iff (h : Alike name other) :
    (¬ Hangs name → ¬ Hangs other → code? name = code? other) ∧ (Hangs name → code? name = none) ∧
      (code? name = code? other ↔ (Hangs name ↔ Hangs other) ∨ code? (spaced name) = none) := by
  have hspaced := code?_spaced_of_alike h
  refine ⟨fun hname hother => ?_, code?_of_hangs, ?_⟩
  · rw [← code?_spaced hname, hspaced, code?_spaced hother]
  · by_cases hname : Hangs name
    · by_cases hother : Hangs other
      · simp [hname, hother, code?_of_hangs]
      · rw [code?_of_hangs hname, hspaced, code?_spaced hother]
        simp [hname, hother, eq_comm]
    · by_cases hother : Hangs other
      · rw [code?_of_hangs hother, code?_spaced hname]
        simp [hname, hother]
      · rw [← code?_spaced hname, ← code?_spaced hother, hspaced]
        simp [hname, hother]

/-- A key may be named in capitals and with a hyphen between the words. With an underscore in front its name is that of
no key, while a space in front is passed over. -/
theorem same_code_unless_hanging :
    Alike "root_menu" "ROOT-Menu" ∧ code? "root_menu" = code? "ROOT-Menu" ∧ code? "ROOT-Menu" = some 9 ∧
      Alike "_up" " UP" ∧ code? "_up" = none ∧ code? " UP" = some 1 ∧ code? "_up" ≠ code? " UP" := by
  have hmenus : Alike "root_menu" "ROOT-Menu" := alike_iff.2 (by decide)
  have hups : Alike "_up" " UP" := alike_iff.2 (by decide)
  obtain ⟨hsame, -, -⟩ := same_code_iff hmenus
  obtain ⟨-, hnone, hiff⟩ := same_code_iff hups
  refine ⟨hmenus, hsame (by decide) (by decide), by decide, hups, hnone (by decide), by decide, fun heq => ?_⟩
  rcases hiff.1 heq with hhang | hspaced
  · exact absurd (hhang.1 (by decide)) (by decide)
  · exact absurd hspaced (by decide)

end KeyName
end CecRelay
