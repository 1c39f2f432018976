import CecRelay.Text.NameTable
import Mathlib.Data.List.Induction
import Mathlib.Data.List.Pairwise
import Mathlib.Data.String.Basic

/-!
# Tables sorted by name

Putting a name into a table keeps it sorted (`NameTable.Sorted.insert`), and so do the tables that are made of
lists or laid over each other. In a sorted table each name stands once, so an entry is in it just if looking up its
name gives its contents (`NameTable.Sorted.mem_iff_lookup`), and the table is known by these (`NameTable.Sorted.ext`).
When entries are put over a table, the last one of a name wins over the table (`NameTable.lookup_extend`).
-/

namespace CecRelay.NameTable

variable {α : Type} {t u : NameTable α} {name other : String} {content : α}

/-- The names stand in their order, each once. -/
def Sorted (t : NameTable α) : Prop := t.Pairwise fun e f => e.1 < f.1

/-- An entry of a table with one more name is this one or was there before. -/
theorem mem_insert {e : String × α} (h : e ∈ t.insert name content) : e = (name, content) ∨ e ∈ t := by
  induction t with
  | nil => exact .inl (List.mem_singleton.1 h)
  | cons f t ih =>
    obtain ⟨n, c⟩ := f
    unfold insert at h
    split at h
    · exact List.mem_cons.1 h
    · split at h
      · exact (List.mem_cons.1 h).imp id (List.mem_cons_of_mem _)
      · rcases List.mem_cons.1 h with rfl | h
        · exact .inr List.mem_cons_self
        · exact (ih h).imp id (List.mem_cons_of_mem _)

/-- An entry of a table with others put over it is one of these or was there before. -/
theorem mem_extend {e : String × α} (h : e ∈ t.extend u) : e ∈ u ∨ e ∈ t := by
  induction u generalizing t with
  | nil => exact .inr h
  | cons f u ih =>
    rcases ih h with h | h
    · exact .inl (List.mem_cons_of_mem _ h)
    · rcases mem_insert h with rfl | h
      · exact .inl List.mem_cons_self
      · exact .inr h

theorem mem_ofList {e : String × α} {entries : List (String × α)} (h : e ∈ ofList entries) : e ∈ entries :=
  (mem_extend (t := []) h).resolve_right (List.not_mem_nil)

namespace Sorted

theorem nil : Sorted ([] : NameTable α) := List.Pairwise.nil

theorem insert (h : Sorted t) (name : String) (content : α) : Sorted (t.insert name content) := by
  induction t with
  | nil => exact List.pairwise_singleton _ _
  | cons e t ih =>
    obtain ⟨n, c⟩ := e
    obtain ⟨hfirst, hrest⟩ := List.pairwise_cons.1 h
    unfold NameTable.insert
    split
    next hlt =>
      refine List.pairwise_cons.2 ⟨fun f hf => ?_, h⟩
      rcases List.mem_cons.1 hf with rfl | hf
      · exact hlt
      · exact lt_trans hlt (hfirst f hf)
    next hge =>
      split
      next heq =>
        subst heq
        exact List.pairwise_cons.2 ⟨hfirst, hrest⟩
      next hne =>
        refine List.pairwise_cons.2 ⟨fun f hf => ?_, ih hrest⟩
        rcases mem_insert hf with rfl | hf
        · exact lt_of_le_of_ne (not_lt.1 hge) (Ne.symm hne)
        · exact hfirst f hf

theorem extend (h : Sorted t) (u : NameTable α) : Sorted (t.extend u) := by
  induction u generalizing t with
  | nil => exact h
  | cons e u ih => exact ih (h.insert e.1 e.2)

theorem ofList (entries : List (String × α)) : Sorted (ofList entries) := nil.extend entries

/-- An entry is in the table just if looking up its name gives its contents. -/
theorem mem_iff_lookup (h : Sorted t) : (name, content) ∈ t ↔ List.lookup name t = some content := by
  induction t with
  | nil => exact ⟨fun hmem => (by cases hmem), fun hlookup => (by cases hlookup)⟩
  | cons e t ih =>
    obtain ⟨n, c⟩ := e
    obtain ⟨hfirst, hrest⟩ := List.pairwise_cons.1 h
    rw [lookup_entry, List.mem_cons, ih hrest]
    by_cases hname : name = n
    · subst hname
      have hnot : List.lookup name t ≠ some content :=
        fun hlookup => lt_irrefl name (hfirst (name, content) ((ih hrest).2 hlookup))
      simp only [Prod.mk.injEq, true_and, hnot, or_false, if_true, Option.some.injEq, eq_comm]
    · simp only [Prod.mk.injEq, hname, false_and, false_or, if_false]

/-- It makes no difference from which end a name is looked up. -/
theorem lookup_reverse (h : Sorted t) (name : String) : List.lookup name t.reverse = List.lookup name t := by
  induction t with
  | nil => rfl
  | cons e t ih =>
    obtain ⟨n, c⟩ := e
    obtain ⟨hfirst, hrest⟩ := List.pairwise_cons.1 h
    rw [List.reverse_cons, List.lookup_append, ih hrest, lookup_entry, lookup_entry]
    by_cases hname : name = n
    · subst hname
      have hnone : List.lookup name t = none := by
        refine Option.eq_none_iff_forall_not_mem.2 fun c hc => ?_
        exact lt_irrefl name (hfirst (name, c) ((mem_iff_lookup hrest).2 hc))
      rw [hnone]
      rfl
    · rw [if_neg hname, if_neg hname]
      exact Option.or_none

end Sorted

/-- The last entry of a name that has been put over a table wins over the table. -/
theorem lookup_extend (t : NameTable α) (entries : List (String × α)) (name : String) :
    List.lookup name (t.extend entries) = (List.lookup name entries.reverse).or (List.lookup name t) := by
  induction entries using List.reverseRecOn with
  | nil => rfl
  | append_singleton entries e ih =>
    have hstep : t.extend (entries ++ [e]) = (t.extend entries).insert e.1 e.2 := by
      rw [extend, List.foldl_append]
      rfl
    rw [hstep, lookup_insert, ih, List.reverse_append, List.reverse_singleton, List.singleton_append, lookup_entry]
    split
    · rfl
    · rfl

/-- It makes no difference whether the entries have been made a table first. -/
theorem lookup_extend_ofList (t : NameTable α) (entries : List (String × α)) (name : String) :
    List.lookup name (t.extend (ofList entries)) =
      (List.lookup name entries.reverse).or (List.lookup name t) := by
  have hlist : List.lookup name (ofList entries) = List.lookup name entries.reverse :=
    (lookup_extend [] entries name).trans Option.or_none
  rw [lookup_extend, (Sorted.ofList entries).lookup_reverse, hlist]

namespace Sorted

theorem nodup (h : Sorted t) : t.Nodup := by
  refine List.Pairwise.imp ?_ h
  rintro e f hlt rfl
  exact lt_irrefl _ hlt

/-- A sorted table is known by the contents of its names. -/
theorem ext (ht : Sorted t) (hu : Sorted u) (h : ∀ name, List.lookup name t = List.lookup name u) : t = u := by
  have hmem : ∀ e, e ∈ t ↔ e ∈ u := by
    rintro ⟨name, content⟩
    rw [ht.mem_iff_lookup, hu.mem_iff_lookup, h]
  have hperm : t.Perm u := (List.perm_ext_iff_of_nodup ht.nodup hu.nodup).2 hmem
  exact hperm.eq_of_pairwise (fun e f _ _ hef hfe => absurd (hef.trans hfe) (lt_irrefl _)) ht hu

theorem extend_ofList (h : Sorted t) (entries : List (String × α)) :
    t.extend (NameTable.ofList entries) = t.extend entries :=
  (h.extend _).ext (h.extend _) fun name => by rw [lookup_extend_ofList, lookup_extend]

/-- When a table is put over another one, its contents win. -/
theorem lookup_extend (t : NameTable α) (hu : Sorted u) (name : String) :
    List.lookup name (t.extend u) = (List.lookup name u).or (List.lookup name t) := by
  rw [NameTable.lookup_extend, hu.lookup_reverse]

end Sorted

/-- The table of two lists is that of the second put over that of the first. -/
theorem ofList_append (entries more : List (String × α)) :
    ofList (entries ++ more) = (ofList entries).extend (ofList more) := by
  rw [(Sorted.ofList entries).extend_ofList, ofList, List.foldl_append]
  rfl

end CecRelay.NameTable
