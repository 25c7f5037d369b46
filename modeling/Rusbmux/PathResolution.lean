import Mathlib.Data.List.Basic

/-! Paths as lists of characters: their components, and the place in the tree
that they lead to. -/
namespace PathResolution

variable (isSeparator : Char → Bool)

/-- A step from one directory: `.` stays, `..` goes up, a name goes down. -/
def enter (place : List (List Char)) (component : List Char) : List (List Char) :=
  if component = [] ∨ component = ['.'] then place
  else if component = ['.', '.'] then place.dropLast
  else place ++ [component]

/-- The names from the root down to what the path leads to. -/
def resolve (path : List Char) : List (List Char) :=
  (path.splitOnP isSeparator).foldl enter []

/-- The component names an entry of the directory it is looked up in. -/
structure IsEntryName (component : List Char) : Prop where
  plain : ∀ c ∈ component, isSeparator c = false
  nonempty : component ≠ []
  here : component ≠ ['.']
  up : component ≠ ['.', '.']

variable {isSeparator} {name : List Char}

theorem enter_name (h : IsEntryName isSeparator name) (place : List (List Char)) :
    enter place name = place ++ [name] := by
  have hstay : ¬ (name = [] ∨ name = ['.']) := fun hn => hn.elim h.nonempty h.here
  rw [enter, if_neg hstay, if_neg h.up]

/-- A name behind a directory leads to that entry of the directory. -/
theorem resolve_append_name (h : IsEntryName isSeparator name) (directory : List Char)
    {separator : Char} (hs : isSeparator separator = true) :
    resolve isSeparator (directory ++ separator :: name) =
      resolve isSeparator directory ++ [name] := by
  rw [resolve, List.splitOnP_append_cons _ _ hs, List.splitOnP_eq_singleton h.plain,
    List.foldl_append]
  exact enter_name h _

end PathResolution
