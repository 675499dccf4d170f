/-!
# Lists of named entries

Record fields, the variables of a block, global storage, activation counters
and the subprogram table are all lists of named entries.  A name is looked up
from the front, an existing entry is replaced where it stands, and a new entry
goes to the end, so the order of first insertion is the order of the list.
-/

namespace ArchSpec

/-- Entries in order, each under a name. -/
abbrev Named (α : Type) := List (String × α)

namespace Named

variable {α : Type}

def get? : Named α → String → Option α
  | [], _ => none
  | (other, value) :: rest, name =>
      if other = name then some value else get? rest name

/-- The entries with the one under `name` replaced, if there is one. -/
def replace? : Named α → String → α → Option (Named α)
  | [], _, _ => none
  | (other, value) :: rest, name, new =>
      if other = name then some ((other, new) :: rest)
      else (replace? rest name new).map ((other, value) :: ·)

def insert : Named α → String → α → Named α
  | [], name, new => [(name, new)]
  | (other, value) :: rest, name, new =>
      if other = name then (other, new) :: rest
      else (other, value) :: insert rest name new

def names (entries : Named α) : List String := entries.map Prod.fst

/-- Every name that already stands earlier in the list, once for each time. -/
def repeats (names : List String) : List String :=
  go [] names
where
  /-- `seen` holds the names before the rest. -/
  go (seen : List String) : List String → List String
    | [] => []
    | name :: rest =>
        if seen.contains name then name :: go seen rest else go (name :: seen) rest

theorem get?_insert (entries : Named α) (name other : String) (new : α) :
    get? (insert entries name new) other =
      if name = other then some new else get? entries other := by
  induction entries with
  | nil => simp [insert, get?]
  | cons entry rest ih =>
      obtain ⟨first, value⟩ := entry
      by_cases hfirst : first = name
      · subst hfirst
        by_cases hother : first = other <;> simp [insert, get?, hother]
      · by_cases hother : first = other
        · subst hother
          simp [insert, get?, hfirst, Ne.symm hfirst]
        · simp [insert, get?, hfirst, hother, ih]

theorem replace?_eq_none_iff {entries : Named α} {name : String} {new : α} :
    replace? entries name new = none ↔ get? entries name = none := by
  induction entries with
  | nil => simp [replace?, get?]
  | cons entry rest ih =>
      obtain ⟨first, value⟩ := entry
      by_cases hfirst : first = name <;> simp [replace?, get?, hfirst, ih]

theorem get?_of_replace? {entries updated : Named α} {name other : String}
    {new : α} (hreplace : replace? entries name new = some updated) :
    get? updated other =
      if name = other then some new else get? entries other := by
  induction entries generalizing updated with
  | nil => simp [replace?] at hreplace
  | cons entry rest ih =>
      obtain ⟨first, value⟩ := entry
      by_cases hfirst : first = name
      · subst hfirst
        simp only [replace?, if_true, Option.some.injEq] at hreplace
        subst hreplace
        by_cases hother : first = other <;> simp [get?, hother]
      · simp only [replace?, if_neg hfirst, Option.map_eq_some_iff] at hreplace
        obtain ⟨tail, htail, rfl⟩ := hreplace
        by_cases hother : first = other
        · subst hother
          simp [get?, Ne.symm hfirst]
        · simp [get?, hother, ih htail]

theorem names_of_replace? {entries updated : Named α} {name : String} {new : α}
    (hreplace : replace? entries name new = some updated) :
    names updated = names entries := by
  induction entries generalizing updated with
  | nil => simp [replace?] at hreplace
  | cons entry rest ih =>
      obtain ⟨first, value⟩ := entry
      by_cases hfirst : first = name
      · subst hfirst
        simp only [replace?, if_true, Option.some.injEq] at hreplace
        subst hreplace
        rfl
      · simp only [replace?, if_neg hfirst, Option.map_eq_some_iff] at hreplace
        obtain ⟨tail, htail, rfl⟩ := hreplace
        have htailNames := ih htail
        simp only [names] at htailNames
        simp [names, htailNames]

end Named

end ArchSpec
