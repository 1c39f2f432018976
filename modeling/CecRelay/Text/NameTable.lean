/-!
# Tables sorted by name

A table is a list of names with contents, sorted by name, each name once. Names compare by code
points, which is the order of their bytes in UTF-8.
-/

namespace CecRelay

/-- A table from names to contents. -/
abbrev NameTable (α : Type) := List (String × α)

namespace NameTable

variable {α : Type}

/-- Puts a name where it belongs; its old contents give way. -/
def insert (name : String) (content : α) : NameTable α → NameTable α
  | [] => [(name, content)]
  | (other, c) :: rest =>
    if name < other then (name, content) :: (other, c) :: rest
    else if name = other then (name, content) :: rest
    else (other, c) :: insert name content rest

/-- The table of a list in which a later entry wins over an earlier one. -/
def ofList (entries : List (String × α)) : NameTable α :=
  entries.foldl (fun t e => t.insert e.1 e.2) []

/-- The first table with the entries of the second put over it. -/
def extend (t u : NameTable α) : NameTable α := u.foldl (fun t e => t.insert e.1 e.2) t

/-- Looking up a name in a table that starts with an entry. -/
theorem lookup_entry (name : String) (content : α) (t : NameTable α) (other : String) :
    List.lookup other ((name, content) :: t) =
      if other = name then some content else List.lookup other t := by
  by_cases h : other = name
  · simp [h]
  · simp [List.lookup_cons, h, beq_eq_false_iff_ne.2 h]

/-- A name that has been put into a table has the new contents, and all others the old. -/
theorem lookup_insert (name : String) (content : α) (t : NameTable α) (other : String) :
    List.lookup other (t.insert name content) =
      if other = name then some content else List.lookup other t := by
  induction t with
  | nil => simp [insert, lookup_entry]
  | cons e t ih =>
    obtain ⟨n, c⟩ := e
    unfold insert
    split
    · rw [lookup_entry]
    · split
      next hn => subst hn; simp only [lookup_entry]; split <;> rfl
      next hn =>
        simp only [lookup_entry, ih]
        by_cases h : other = name
        · subst h; simp [hn]
        · simp [h]

end NameTable
end CecRelay
