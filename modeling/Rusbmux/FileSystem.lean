import Rusbmux.KeyTable
import Mathlib.Data.Nat.Notation
import Mathlib.Logic.Function.Basic

/-! Files that several programs open by their names. A program that has opened a
file keeps it, whatever becomes of the name. -/

/-- The files by number, and the numbers that have names. No file has two. -/
structure FileSystem (κ : Type*) [DecidableEq κ] (α : Type*) where
  names : KeyTable κ ℕ
  data : ℕ → List α
  next : ℕ
  fresh : ∀ p i, names.get p = some i → i < next
  single : ∀ p q i, names.get p = some i → names.get q = some i → p = q

namespace FileSystem

variable {κ α : Type*} [DecidableEq κ]

def empty : FileSystem κ α where
  names := .empty
  data _ := []
  next := 0
  fresh _ _ h := by cases h
  single _ _ _ h := by cases h

variable (fs : FileSystem κ α)

/-- The file with the name. -/
def file (p : κ) : Option ℕ := fs.names.get p

def content (p : κ) : Option (List α) := (fs.file p).map fs.data

/-- The file that `create` opens. -/
def created (p : κ) : ℕ := (fs.file p).getD fs.next

variable {fs} in
theorem eq_of_created {p q : κ} (h : fs.names.get q = some (fs.created p)) : q = p := by
  unfold created file at h
  cases hp : fs.names.get p with
  | none =>
    rw [hp] at h
    exact absurd (fs.fresh q _ h) (Nat.lt_irrefl _)
  | some i =>
    rw [hp] at h
    exact fs.single q p i h hp

variable {fs} in
theorem lt_of_get_created {p q : κ} {i : ℕ}
    (h : (fs.names.insert p (fs.created p)).get q = some i) :
    i < max fs.next (fs.created p+1) := by
  rw [KeyTable.get_insert] at h
  split_ifs at h
  · cases h
    omega
  · have hlt := fs.fresh q i h
    omega

variable {fs} in
theorem single_of_get_created {p q r : κ} {i : ℕ}
    (hq : (fs.names.insert p (fs.created p)).get q = some i)
    (hr : (fs.names.insert p (fs.created p)).get r = some i) : q = r := by
  rw [KeyTable.get_insert] at hq hr
  split_ifs at hq hr with hqp hrp hrp
  · rw [hqp, hrp]
  · cases hq
    rw [hqp, eq_of_created hr]
  · cases hr
    rw [hrp, eq_of_created hq]
  · exact fs.single q r i hq hr

/-- Opens the file for writing: it is made, or cut to nothing. -/
def create (p : κ) : FileSystem κ α where
  names := fs.names.insert p (fs.created p)
  data := Function.update fs.data (fs.created p) []
  next := max fs.next (fs.created p+1)
  fresh _ _ h := lt_of_get_created h
  single _ _ _ hq hr := single_of_get_created hq hr

/-- Writes at the start of an open file. -/
def write (i : ℕ) (bytes : List α) : FileSystem κ α :=
  { fs with data := Function.update fs.data i (bytes ++ (fs.data i).drop bytes.length) }

/-- The name goes; whoever has the file open keeps it. -/
def remove (p : κ) : FileSystem κ α where
  names := fs.names.remove p
  data := fs.data
  next := fs.next
  fresh q i h := by
    rw [KeyTable.get_remove] at h
    split_ifs at h
    exact fs.fresh q i h
  single q r i hq hr := by
    rw [KeyTable.get_remove] at hq hr
    split_ifs at hq hr
    exact fs.single q r i hq hr

variable {fs} {p q : κ} {i : ℕ}

theorem created_of_file (h : fs.file p = some i) : fs.created p = i := by
  simp only [created, h, Option.getD_some]

theorem created_of_none (h : fs.file p = none) : fs.created p = fs.next := by
  simp only [created, h, Option.getD_none]

theorem created_lt (fs : FileSystem κ α) (p : κ) : fs.created p < (fs.create p).next :=
  Nat.lt_of_lt_of_le (Nat.lt_succ_self _) (Nat.le_max_right _ _)

theorem next_le_create (fs : FileSystem κ α) (p : κ) : fs.next ≤ (fs.create p).next :=
  Nat.le_max_left _ _

theorem file_create_self (fs : FileSystem κ α) (p : κ) :
    (fs.create p).file p = some (fs.created p) :=
  KeyTable.get_insert_self _ _ _

theorem file_create_of_ne (fs : FileSystem κ α) (h : q ≠ p) : (fs.create p).file q = fs.file q :=
  KeyTable.get_insert_of_ne _ _ h

/-- A file that is there keeps its number when it is opened again. -/
theorem file_create (h : fs.file q = some i) (p : κ) : (fs.create p).file q = some i := by
  by_cases hq : q = p
  · subst hq
    rw [file_create_self, created_of_file h]
  · rw [file_create_of_ne fs hq, h]

/-- Another name is never opened as the same file. -/
theorem created_ne (hne : q ≠ p) (h : fs.file q = some i) : fs.created p ≠ i := by
  intro heq
  cases hp : fs.file p with
  | none =>
    have hlt := fs.fresh q i h
    rw [created_of_none hp] at heq
    omega
  | some j =>
    rw [created_of_file hp] at heq
    subst heq
    exact hne (fs.single q p j h hp)

theorem data_create_of_ne (fs : FileSystem κ α) (h : i ≠ fs.created p) :
    (fs.create p).data i = fs.data i := Function.update_of_ne h _ _

theorem data_write_of_ne (fs : FileSystem κ α) {j : ℕ} (h : i ≠ j) (bytes : List α) :
    (fs.write j bytes).data i = fs.data i := Function.update_of_ne h _ _

theorem content_of_file (h : fs.file p = some i) : fs.content p = some (fs.data i) := by
  rw [content, h, Option.map_some]

/-- A file does not change when another name is opened for writing. -/
theorem content_create_of_ne (fs : FileSystem κ α) (h : q ≠ p) :
    (fs.create p).content q = fs.content q := by
  unfold content
  rw [file_create_of_ne fs h]
  cases hq : fs.file q with
  | none => rfl
  | some i => rw [Option.map_some, Option.map_some, data_create_of_ne fs (created_ne h hq).symm]

theorem content_write_of_ne (fs : FileSystem κ α) (h : fs.file q ≠ some i) (bytes : List α) :
    (fs.write i bytes).content q = fs.content q := by
  have hfile : (fs.write i bytes).file q = fs.file q := rfl
  unfold content
  rw [hfile]
  cases hq : fs.file q with
  | none => rfl
  | some j =>
    have hne : j ≠ i := by
      intro heq
      exact h (by rw [hq, heq])
    rw [Option.map_some, Option.map_some, data_write_of_ne fs hne]

theorem file_remove_of_ne (fs : FileSystem κ α) (h : q ≠ p) : (fs.remove p).file q = fs.file q :=
  KeyTable.get_remove_of_ne _ h

theorem content_remove_of_ne (fs : FileSystem κ α) (h : q ≠ p) :
    (fs.remove p).content q = fs.content q := by
  unfold content
  rw [file_remove_of_ne fs h]
  rfl

end FileSystem
