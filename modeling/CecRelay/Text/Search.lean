/-!
# Finding and cutting text

Texts are lists of characters. `after?` cuts at the first occurrence of a marker, `splitAt` cuts at
every occurrence of a character and `cutAt?` at the first one. What these leave out is exactly the
marker: the pieces of `splitAt` joined with the separator give the text back.
-/

namespace CecRelay.Text

/-- What follows `lead` at the start of a text, if the text starts with it. -/
def afterLead? : List Char → List Char → Option (List Char)
  | [], s => some s
  | _ :: _, [] => none
  | c :: lead, d :: s => if c = d then afterLead? lead s else none

/-- What follows the first occurrence of `marker`. -/
def after? (marker : List Char) : List Char → Option (List Char)
  | [] => afterLead? marker []
  | c :: s => (afterLead? marker (c :: s)).or (after? marker s)

/-- The text holds `marker` somewhere. -/
def holds (marker s : List Char) : Bool := (after? marker s).isSome

/-- The text without `tail` at its end, if it ends so. -/
def beforeTail? (tail s : List Char) : Option (List Char) :=
  (afterLead? tail.reverse s.reverse).map List.reverse

/-- The pieces between the occurrences of `sep`; always at least one. -/
def splitAt (sep : Char) : List Char → List (List Char)
  | [] => [[]]
  | c :: s =>
    if c = sep then [] :: splitAt sep s
    else match splitAt sep s with
      | [] => [[c]]
      | piece :: pieces => (c :: piece) :: pieces

/-- The text before and after the first `sep`. -/
def cutAt? (sep : Char) : List Char → Option (List Char × List Char)
  | [] => none
  | c :: s =>
    if c = sep then some ([], s)
    else (cutAt? sep s).map fun (before, rest) => (c :: before, rest)

/-- `splitAt` on strings. -/
def pieces (sep : Char) (s : String) : List String := (splitAt sep s.toList).map String.ofList

@[simp] theorem afterLead?_append (lead s : List Char) : afterLead? lead (lead ++ s) = some s := by
  induction lead with
  | nil => rfl
  | cons c lead ih => simp [afterLead?, ih]

theorem afterLead?_eq_some_iff {lead s rest : List Char} :
    afterLead? lead s = some rest ↔ s = lead ++ rest := by
  constructor
  · intro h
    induction lead generalizing s with
    | nil => simpa [afterLead?] using h
    | cons c lead ih =>
      cases s with
      | nil => simp [afterLead?] at h
      | cons d s =>
        by_cases hcd : c = d
        · subst hcd
          simp only [afterLead?, if_true] at h
          simp [ih h]
        · simp [afterLead?, hcd] at h
  · rintro rfl
    exact afterLead?_append lead rest

theorem splitAt_ne_nil (sep : Char) (s : List Char) : splitAt sep s ≠ [] := by
  cases s with
  | nil => simp [splitAt]
  | cons c s =>
    unfold splitAt
    split
    · simp
    · split <;> simp

end CecRelay.Text
