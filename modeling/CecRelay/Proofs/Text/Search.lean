import CecRelay.Text.Blank
import CecRelay.Text.Search
import Mathlib.Data.List.Infix

/-!
# What is found in a text

A search for a marker ends at its first occurrence (`after?_eq_some_iff`), and it fails exactly in a text that does
not hold the marker anywhere (`holds_iff`). A cut at a character leaves in front what does not have this character
(`cutAt?_eq_some_iff`), and the cuts at all places of a character leave the one way to write the text as pieces without
it (`splitAt_eq_iff`). Trimming takes off nothing but blanks (`exists_trim`), so it does not change whether a text
holds a marker that has none (`infix_trim_iff`), and it takes off all that are at the ends (`trim_append`).
-/

namespace CecRelay.Text

variable {lead marker s t before rest : List Char} {sep c : Char}

/-! ### Markers -/

theorem leads_iff : (afterLead? lead s).isSome = true ↔ lead <+: s := by
  rw [Option.isSome_iff_exists]
  constructor
  · rintro ⟨rest, h⟩
    exact ⟨rest, (afterLead?_eq_some_iff.1 h).symm⟩
  · rintro ⟨rest, h⟩
    exact ⟨rest, afterLead?_eq_some_iff.2 h.symm⟩

/-- A text holds a marker, and nowhere earlier: `before` stands in front of it and `rest` behind it. -/
structure FirstOf (marker s before rest : List Char) : Prop where
  /-- The marker stands between the two. -/
  eq : s = before ++ marker ++ rest
  /-- Wherever it stands too, there is no less in front of it. -/
  first : ∀ front behind, s = front ++ marker ++ behind → before.length ≤ front.length

/-- There is one first occurrence. -/
theorem FirstOf.unique {before' rest' : List Char} (h : FirstOf marker s before rest)
    (h' : FirstOf marker s before' rest') : before = before' ∧ rest = rest' := by
  have hlength : before.length = before'.length := Nat.le_antisymm (h.first _ _ h'.eq) (h'.first _ _ h.eq)
  have heq := h.eq.symm.trans h'.eq
  rw [List.append_assoc, List.append_assoc] at heq
  obtain ⟨hbefore, hbehind⟩ := List.append_inj heq hlength
  exact ⟨hbefore, List.append_cancel_left hbehind⟩

/-- A marker that a text starts with stands first at its start. -/
theorem FirstOf.nil_iff : FirstOf marker s [] rest ↔ s = marker ++ rest := by
  constructor
  · intro h
    exact h.eq
  · intro h
    exact ⟨h, fun _ _ _ => Nat.zero_le _⟩

/-- With a character in front that does not begin the marker, the first occurrence stays the first. -/
theorem FirstOf.cons_iff (hlead : ¬ marker <+: c :: s) :
    (∃ before, FirstOf marker (c :: s) before rest) ↔ ∃ before, FirstOf marker s before rest := by
  constructor
  · rintro ⟨before, heq, hfirst⟩
    cases before with
    | nil => exact absurd ⟨rest, heq.symm⟩ hlead
    | cons d before =>
      obtain ⟨rfl, hs⟩ := List.cons.inj heq
      refine ⟨before, hs, fun front behind hfront => ?_⟩
      have hle := hfirst (c :: front) behind (congrArg (c :: ·) hfront)
      exact Nat.le_of_succ_le_succ hle
  · rintro ⟨before, heq, hfirst⟩
    refine ⟨c :: before, congrArg (c :: ·) heq, fun front behind hfront => ?_⟩
    cases front with
    | nil => exact absurd ⟨behind, hfront.symm⟩ hlead
    | cons d front => exact Nat.succ_le_succ (hfirst front behind (List.cons.inj hfront).2)

/-- A search ends at the first occurrence of the marker. -/
theorem after?_eq_some_iff : after? marker s = some rest ↔ ∃ before, FirstOf marker s before rest := by
  induction s with
  | nil =>
    rw [after?, afterLead?_eq_some_iff]
    constructor
    · intro h
      exact ⟨[], FirstOf.nil_iff.2 h⟩
    · rintro ⟨before, h⟩
      obtain ⟨hfront, rfl⟩ := List.append_eq_nil_iff.1 h.eq.symm
      rw [(List.append_eq_nil_iff.1 hfront).2]
      rfl
  | cons c s ih =>
    rw [after?]
    cases hlead : afterLead? marker (c :: s) with
    | some found =>
      have hfound := FirstOf.nil_iff.2 (afterLead?_eq_some_iff.1 hlead)
      rw [Option.some_or]
      constructor
      · rintro ⟨⟩
        exact ⟨[], hfound⟩
      · rintro ⟨before, h⟩
        rw [(h.unique hfound).2]
    | none =>
      have hnot : ¬ marker <+: c :: s := by
        rw [← leads_iff, hlead]
        exact Bool.false_ne_true
      rw [Option.none_or, ih, FirstOf.cons_iff hnot]

/-- A text holds a marker exactly if the marker stands somewhere in it. -/
theorem holds_iff : holds marker s = true ↔ marker <:+: s := by
  rw [holds]
  induction s with
  | nil =>
    rw [after?, leads_iff]
    constructor
    · intro h
      exact h.isInfix
    · intro h
      rw [List.eq_nil_of_infix_nil h]
  | cons c s ih =>
    rw [after?, Option.isSome_or, Bool.or_eq_true, leads_iff, ih, List.infix_cons_iff]

theorem after?_eq_none_iff : after? marker s = none ↔ ¬ marker <:+: s := by
  rw [← holds_iff, holds, Bool.not_eq_true, Option.isSome_eq_false_iff, Option.isNone_iff_eq_none]

theorem beforeTail?_eq_some_iff {tail : List Char} : beforeTail? tail s = some before ↔ s = before ++ tail := by
  rw [beforeTail?, Option.map_eq_some_iff]
  constructor
  · rintro ⟨reversed, h, rfl⟩
    rw [← List.reverse_reverse s, afterLead?_eq_some_iff.1 h, List.reverse_append, List.reverse_reverse]
  · rintro rfl
    refine ⟨before.reverse, afterLead?_eq_some_iff.2 ?_, List.reverse_reverse before⟩
    rw [List.reverse_append]

/-! ### Markers in texts put together -/

/-- A marker does not reach across a character that it does not have. -/
theorem infix_append_cons_iff (hc : c ∉ marker) :
    marker <:+: s ++ c :: t ↔ marker <:+: s ∨ marker <:+: t := by
  have hlead : ∀ {l}, l <+: c :: t → c ∉ l → l = [] := by
    intro l hl hcl
    cases l with
    | nil => rfl
    | cons d l =>
      rw [(List.cons_prefix_cons.1 hl).1] at hcl
      exact absurd List.mem_cons_self hcl
  constructor
  · intro h
    rcases List.infix_append_iff.1 h with hs | ht | ⟨front, behind, rfl, hfront, hbehind⟩
    · exact .inl hs
    · rcases List.infix_cons_iff.1 ht with hprefix | ht
      · rw [hlead hprefix hc]
        exact .inl List.nil_infix
      · exact .inr ht
    · rw [hlead hbehind fun hmem => hc (List.mem_append_right front hmem), List.append_nil]
      exact .inl hfront.isInfix
  · rintro (h | h)
    · exact h.trans (List.prefix_append s _).isInfix
    · exact h.trans ((List.suffix_cons c t).trans (List.suffix_append s _)).isInfix

/-- In a text without the first character of a marker the marker does not begin. -/
theorem infix_append_iff_of_not_mem (hc : c ∉ s) : c :: marker <:+: s ++ t ↔ c :: marker <:+: t := by
  constructor
  · intro h
    rcases List.infix_append_iff.1 h with hs | ht | ⟨front, behind, heq, hfront, hbehind⟩
    · exact absurd (hs.subset List.mem_cons_self) hc
    · exact ht
    · cases front with
      | nil =>
        rw [heq]
        exact hbehind.isInfix
      | cons d front =>
        rw [← (List.cons.inj heq).1] at hfront
        exact absurd (hfront.subset List.mem_cons_self) hc
  · intro h
    exact h.trans (List.suffix_append s t).isInfix

/-- A marker that has its first character nowhere else is not found across another place of that character: it begins
there or later, unless it is found in front of that place. -/
theorem length_le_of_eq_append {front behind : List Char} (hc : c ∉ marker) (hs : ¬ c :: marker <:+: s)
    (h : s ++ c :: t = front ++ (c :: marker) ++ behind) : s.length ≤ front.length := by
  rw [List.append_assoc] at h
  rcases List.append_eq_append_iff.1 h with ⟨more, rfl, -⟩ | ⟨more, rfl, hmore⟩
  · rw [List.length_append]
    exact Nat.le_add_right _ _
  · rcases List.append_eq_append_iff.1 hmore with ⟨later, rfl, -⟩ | ⟨later, hsplit, hrest⟩
    · -- the marker ends in front of that place
      exact absurd ⟨front, later, List.append_assoc ..⟩ hs
    · cases more with
      | nil => exact Nat.le_of_eq (by rw [List.append_nil])
      | cons d more =>
        rw [List.cons_append] at hsplit
        obtain ⟨rfl, hmarker⟩ := List.cons.inj hsplit
        cases later with
        | nil =>
          rw [List.append_nil] at hmarker
          exact absurd ⟨front, [], by rw [hmarker, List.append_nil]⟩ hs
        | cons e later =>
          rw [List.cons_append] at hrest
          rw [hmarker, (List.cons.inj hrest).1] at hc
          exact absurd (List.mem_append_right more List.mem_cons_self) hc

/-- Such a marker stands first behind a text that does not hold it. -/
theorem FirstOf.of_not_infix (hc : c ∉ marker) (hs : ¬ c :: marker <:+: s) :
    FirstOf (c :: marker) (s ++ (c :: marker) ++ rest) s rest := by
  refine ⟨rfl, fun front behind heq => ?_⟩
  rw [List.append_assoc, List.cons_append] at heq
  exact length_le_of_eq_append hc hs heq

theorem infix_append_cons_self_iff (hc : c ∉ marker) (hs : ¬ c :: marker <:+: s) :
    c :: marker <:+: s ++ c :: t ↔ c :: marker <:+: c :: t := by
  constructor
  · rintro ⟨front, behind, heq⟩
    have hle := length_le_of_eq_append hc hs heq.symm
    refine ⟨front.drop s.length, behind, ?_⟩
    have hdrop : (s ++ c :: t).drop s.length = c :: t := List.drop_left
    rw [← hdrop, ← heq, List.append_assoc, List.append_assoc, List.drop_append_of_le_length hle]
  · intro h
    exact h.trans (List.suffix_append s _).isInfix

/-! ### Single characters -/

/-- A cut at a character is one at its first occurrence. -/
theorem cutAt?_eq_some_iff : cutAt? sep s = some (before, rest) ↔ s = before ++ sep :: rest ∧ sep ∉ before := by
  induction s generalizing before with
  | nil => simp [cutAt?]
  | cons c s ih =>
    rw [cutAt?]
    by_cases hc : c = sep
    · subst hc
      rw [if_pos rfl]
      constructor
      · rintro ⟨⟩
        exact ⟨rfl, List.not_mem_nil⟩
      · rintro ⟨heq, hnot⟩
        cases before with
        | nil => rw [(List.cons.inj heq).2]
        | cons d before =>
          rw [(List.cons.inj heq).1] at hnot
          exact absurd List.mem_cons_self hnot
    · rw [if_neg hc, Option.map_eq_some_iff]
      constructor
      · rintro ⟨⟨front, behind⟩, h, heq⟩
        cases heq
        obtain ⟨rfl, hnot⟩ := ih.1 h
        refine ⟨rfl, ?_⟩
        simp [hnot, Ne.symm hc]
      · rintro ⟨heq, hnot⟩
        cases before with
        | nil => exact absurd (List.cons.inj heq).1 hc
        | cons d before =>
          obtain ⟨rfl, hs⟩ := List.cons.inj heq
          exact ⟨(before, rest), ih.2 ⟨hs, fun hmem => hnot (List.mem_cons_of_mem c hmem)⟩, rfl⟩

/-! ### Pieces -/

/-- The pieces of a text: there is no separator in any of them, and there is one between each two. -/
structure Between (sep : Char) (s : List Char) (pieces : List (List Char)) : Prop where
  /-- There is a piece, which may be empty. -/
  ne_nil : pieces ≠ []
  /-- No piece has a separator. -/
  not_mem : ∀ piece ∈ pieces, sep ∉ piece
  /-- With a separator between each two of them the pieces are the text. -/
  joined : [sep].intercalate pieces = s

theorem splitAt_eq_splitOn (sep : Char) (s : List Char) : splitAt sep s = s.splitOn sep := by
  induction s with
  | nil => rfl
  | cons c s ih =>
    rw [splitAt, ih, List.splitOn_cons_eq_if_modifyHead]
    by_cases hc : c = sep
    · simp [hc]
    · obtain ⟨piece, pieces, hs⟩ := List.exists_cons_of_ne_nil (List.splitOn_ne_nil sep s)
      simp [hc, hs]

theorem not_mem_of_mem_splitAt {piece : List Char} (h : piece ∈ splitAt sep s) : sep ∉ piece := by
  induction s generalizing piece with
  | nil =>
    rw [splitAt, List.mem_singleton] at h
    rw [h]
    exact List.not_mem_nil
  | cons c s ih =>
    rw [splitAt] at h
    split at h
    next hc =>
      rcases List.mem_cons.1 h with rfl | h
      · exact List.not_mem_nil
      · exact ih h
    next hc =>
      split at h
      next hs => exact absurd hs (splitAt_ne_nil sep s)
      next first rest hs =>
        rcases List.mem_cons.1 h with rfl | h
        · rw [List.mem_cons, not_or]
          exact ⟨Ne.symm hc, ih (hs ▸ List.mem_cons_self)⟩
        · exact ih (hs ▸ List.mem_cons_of_mem first h)

/-- A text has its pieces, and no others. -/
theorem splitAt_eq_iff {pieces : List (List Char)} : splitAt sep s = pieces ↔ Between sep s pieces := by
  constructor
  · rintro rfl
    refine ⟨splitAt_ne_nil sep s, fun piece => not_mem_of_mem_splitAt, ?_⟩
    rw [splitAt_eq_splitOn, List.intercalate_splitOn]
  · rintro ⟨hne, hnot, rfl⟩
    rw [splitAt_eq_splitOn, List.splitOn_intercalate sep hnot hne]

/-- At a separator the pieces of a text fall apart. -/
theorem splitAt_append_cons (sep : Char) (s t : List Char) :
    splitAt sep (s ++ sep :: t) = splitAt sep s ++ splitAt sep t := by
  rw [splitAt_eq_splitOn, splitAt_eq_splitOn, splitAt_eq_splitOn, List.splitOn_append_cons_self]

/-- The pieces of texts with a separator between each two of them are the pieces of these texts. -/
theorem splitAt_intercalate (sep : Char) {texts : List (List Char)} (h : texts ≠ []) :
    splitAt sep ([sep].intercalate texts) = texts.flatMap (splitAt sep) := by
  induction texts with
  | nil => exact absurd rfl h
  | cons t texts ih =>
    cases texts with
    | nil => simp
    | cons u texts =>
      rw [List.flatMap_cons, List.intercalate_cons_cons, List.append_assoc, List.singleton_append,
        splitAt_append_cons, ih (List.cons_ne_nil u texts)]

/-- There is one piece more than there are separators. -/
theorem length_splitAt (sep : Char) (s : List Char) : (splitAt sep s).length = s.count sep + 1 := by
  induction s with
  | nil => rfl
  | cons c s ih =>
    rw [splitAt]
    by_cases hc : c = sep
    · simp [hc, ih]
    · obtain ⟨piece, pieces, hs⟩ := List.exists_cons_of_ne_nil (splitAt_ne_nil sep s)
      rw [hs, List.length_cons] at ih
      simp [hc, hs, ih]

/-! ### Blanks at the ends -/

/-- What trimming takes off at the ends are blanks. -/
theorem exists_trim (s : List Char) : ∃ front behind, s = front ++ trim s ++ behind ∧
    (∀ c ∈ front, isBlank c = true) ∧ ∀ c ∈ behind, isBlank c = true := by
  refine ⟨s.takeWhile isBlank, ((trimStart s).reverse.takeWhile isBlank).reverse, ?_, ?_, ?_⟩
  · have hend : trim s ++ ((trimStart s).reverse.takeWhile isBlank).reverse = trimStart s := by
      rw [trim, trimEnd, ← List.reverse_append, List.takeWhile_append_dropWhile, List.reverse_reverse]
    rw [List.append_assoc, hend, trimStart, List.takeWhile_append_dropWhile]
  · intro c hc
    exact List.all_eq_true.1 List.all_takeWhile c hc
  · intro c hc
    exact List.all_eq_true.1 List.all_takeWhile c (List.mem_reverse.1 hc)

theorem mem_of_mem_trim (h : c ∈ trim s) : c ∈ s := by
  obtain ⟨front, behind, hs, -, -⟩ := exists_trim s
  rw [hs]
  exact List.mem_append_left behind (List.mem_append_right front h)

/-- Trimming leaves the start of a text if that starts with no blank and something other than blanks follows. -/
theorem prefix_trim_append (hlead : ∀ d ∈ lead.head?, isBlank d = false) (hc : c ∈ rest)
    (hblank : isBlank c = false) : lead <+: trim (lead ++ rest) := by
  obtain ⟨front, behind, hs, hfront, hbehind⟩ := exists_trim (lead ++ rest)
  cases lead with
  | nil => exact List.nil_prefix
  | cons d lead =>
    cases front with
    | cons e front =>
      have hfirst := hfront e List.mem_cons_self
      rw [← (List.cons.inj hs).1, hlead d rfl] at hfirst
      cases hfirst
    | nil =>
      rw [List.nil_append] at hs
      rcases List.append_eq_append_iff.1 hs with ⟨more, hmore, -⟩ | ⟨more, -, hmore⟩
      · rw [hmore]
        exact List.prefix_append _ _
      · have hlast := hbehind c (hmore ▸ List.mem_append_right more hc)
        rw [hblank] at hlast
        cases hlast

/-- A marker without blanks does not reach into blanks in front of a text. -/
theorem infix_of_infix_blanks_append {front : List Char} (hmarker : ∀ c ∈ marker, isBlank c = false)
    (hfront : ∀ c ∈ front, isBlank c = true) (h : marker <:+: front ++ s) : marker <:+: s := by
  induction front with
  | nil => exact h
  | cons c front ih =>
    rcases List.infix_cons_iff.1 h with hlead | hlater
    · cases marker with
      | nil => exact List.nil_infix
      | cons d marker =>
        have hblank := hfront c List.mem_cons_self
        rw [← (List.cons_prefix_cons.1 hlead).1, hmarker d List.mem_cons_self] at hblank
        cases hblank
    · exact ih (fun d hd => hfront d (List.mem_cons_of_mem c hd)) hlater

theorem infix_trim_iff (hmarker : ∀ c ∈ marker, isBlank c = false) : marker <:+: trim s ↔ marker <:+: s := by
  obtain ⟨front, behind, hs, hfront, hbehind⟩ := exists_trim s
  constructor
  · intro h
    rw [hs]
    exact h.trans (List.infix_append front (trim s) behind)
  · intro h
    rw [hs, List.append_assoc] at h
    -- behind the text the same holds as in front of it, read backwards
    have hreversed := List.reverse_infix.2 (infix_of_infix_blanks_append hmarker hfront h)
    rw [List.reverse_append] at hreversed
    refine List.reverse_infix.1 (infix_of_infix_blanks_append ?_ ?_ hreversed)
    · intro c hc
      exact hmarker c (List.mem_reverse.1 hc)
    · intro c hc
      exact hbehind c (List.mem_reverse.1 hc)

theorem trimStart_append {front : List Char} (hfront : ∀ d ∈ front, isBlank d = true)
    (hs : ∀ d ∈ s.head?, isBlank d = false) : trimStart (front ++ s) = s := by
  rw [trimStart, List.dropWhile_append_of_pos hfront]
  cases s with
  | nil => rfl
  | cons d s => exact trimStart_cons_of_not_blank (hs d rfl)

theorem trimEnd_append {behind : List Char} (hbehind : ∀ d ∈ behind, isBlank d = true)
    (hs : ∀ d ∈ s.getLast?, isBlank d = false) : trimEnd (s ++ behind) = s := by
  have hreversed : trimStart (behind.reverse ++ s.reverse) = s.reverse := by
    refine trimStart_append (fun d hd => hbehind d (List.mem_reverse.1 hd)) fun d hd => hs d ?_
    rwa [List.head?_reverse] at hd
  rw [trimStart] at hreversed
  rw [trimEnd, List.reverse_append, hreversed, List.reverse_reverse]

/-- Trimming takes off the blanks around a text that neither begins nor ends with one. -/
theorem trim_append {front behind : List Char} (hfront : ∀ d ∈ front, isBlank d = true)
    (hbehind : ∀ d ∈ behind, isBlank d = true) (hhead : ∀ d ∈ s.head?, isBlank d = false)
    (hlast : ∀ d ∈ s.getLast?, isBlank d = false) : trim (front ++ s ++ behind) = s := by
  cases s with
  | nil =>
    have hblank : ∀ d ∈ front ++ behind, isBlank d = true := List.forall_mem_append.2 ⟨hfront, hbehind⟩
    have hall : trimStart (front ++ behind ++ []) = [] := trimStart_append hblank fun d hd => by cases hd
    rw [List.append_nil] at hall
    rw [List.append_nil, trim, hall]
    rfl
  | cons d s =>
    have hstart : trimStart (front ++ (d :: s ++ behind)) = d :: s ++ behind := trimStart_append hfront hhead
    rw [trim, List.append_assoc, hstart, trimEnd_append hbehind hlast]

/-- A text that has been trimmed begins with no blank. -/
theorem isBlank_head?_trim (s : List Char) : ∀ d ∈ (trim s).head?, isBlank d = false := by
  intro d hd
  have hpart : trim s <+: trimStart s := by
    rw [trim, trimEnd, ← List.reverse_suffix, List.reverse_reverse]
    exact List.dropWhile_suffix isBlank
  obtain ⟨behind, heq⟩ := hpart
  have hhead : (trimStart s).head? = some d := by
    rw [← heq, List.head?_append, Option.mem_def.1 hd, Option.some_or]
  have hfirst := List.head?_dropWhile_not isBlank s
  rw [← trimStart, hhead] at hfirst
  exact hfirst

/-- Nor does it end with one. -/
theorem isBlank_getLast?_trim (s : List Char) : ∀ d ∈ (trim s).getLast?, isBlank d = false := by
  intro d hd
  have hfirst := List.head?_dropWhile_not isBlank (trimStart s).reverse
  rw [trim, trimEnd, List.getLast?_reverse] at hd
  rw [Option.mem_def.1 hd] at hfirst
  exact hfirst

/-- The characters of a text may be changed before or after trimming, if blanks stay blanks and none comes to the ends
of what trimming leaves. -/
theorem trim_map {f : Char → Char} (hblank : ∀ d, isBlank d = true → isBlank (f d) = true)
    (hhead : ∀ d ∈ (trim s).head?, isBlank (f d) = false) (hlast : ∀ d ∈ (trim s).getLast?, isBlank (f d) = false) :
    trim (s.map f) = (trim s).map f := by
  obtain ⟨front, behind, hs, hfront, hbehind⟩ := exists_trim s
  have hmap : s.map f = front.map f ++ (trim s).map f ++ behind.map f := by
    rw [← List.map_append, ← List.map_append, ← hs]
  rw [hmap]
  refine trim_append (List.forall_mem_map.2 fun d hd => hblank d (hfront d hd))
    (List.forall_mem_map.2 fun d hd => hblank d (hbehind d hd)) ?_ ?_
  · intro e he
    rw [List.head?_map] at he
    obtain ⟨d, hd, rfl⟩ := Option.map_eq_some_iff.1 he
    exact hhead d hd
  · intro e he
    rw [List.getLast?_map] at he
    obtain ⟨d, hd, rfl⟩ := Option.map_eq_some_iff.1 he
    exact hlast d hd

end CecRelay.Text
