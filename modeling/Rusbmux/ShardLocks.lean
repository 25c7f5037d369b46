import Mathlib.Data.List.Basic
import Mathlib.Tactic.TypeStar

/-! Reader/writer locks, one for each shard of a map, that are not reentrant: a
guard blocks the write side for every task, its own included. -/
structure ShardLocks (τ : Type*) where
  readers : List (τ × ℕ)
  writers : List (τ × ℕ)
  exclusive : ∀ e ∈ readers, ∀ f ∈ writers, e.2 ≠ f.2

namespace ShardLocks

variable {τ : Type*}

def free : ShardLocks τ := ⟨[], [], List.forall_mem_nil _⟩

/-- The task has a read guard of the shard. -/
def Reads (l : ShardLocks τ) (task : τ) (k : ℕ) : Prop := (task, k) ∈ l.readers

def Writes (l : ShardLocks τ) (task : τ) (k : ℕ) : Prop := (task, k) ∈ l.writers

instance [DecidableEq τ] (l : ShardLocks τ) (task : τ) (k : ℕ) : Decidable (l.Reads task k) :=
  inferInstanceAs (Decidable (_ ∈ _))

instance [DecidableEq τ] (l : ShardLocks τ) (task : τ) (k : ℕ) : Decidable (l.Writes task k) :=
  inferInstanceAs (Decidable (_ ∈ _))

theorem exclusive_read {l : ShardLocks τ} {k : ℕ} (h : ∀ f ∈ l.writers, k ≠ f.2) (task : τ) :
    ∀ e ∈ (task, k) :: l.readers, ∀ f ∈ l.writers, e.2 ≠ f.2 :=
  List.forall_mem_cons.mpr ⟨h, l.exclusive⟩

theorem exclusive_write {l : ShardLocks τ} {k : ℕ} (h : ∀ e ∈ l.readers, e.2 ≠ k) (task : τ) :
    ∀ e ∈ l.readers, ∀ f ∈ (task, k) :: l.writers, e.2 ≠ f.2 :=
  fun e he => List.forall_mem_cons.mpr ⟨h e he, l.exclusive e he⟩

/-- The read side, unless some task writes. -/
def lockRead (l : ShardLocks τ) (task : τ) (k : ℕ) : Option (ShardLocks τ) :=
  if h : ∀ f ∈ l.writers, k ≠ f.2 then
    some ⟨(task, k) :: l.readers, l.writers, exclusive_read h task⟩
  else none

/-- The write side, when no task has a guard. -/
def lockWrite (l : ShardLocks τ) (task : τ) (k : ℕ) : Option (ShardLocks τ) :=
  if h : (∀ f ∈ l.writers, k ≠ f.2) ∧ ∀ e ∈ l.readers, e.2 ≠ k then
    some ⟨l.readers, (task, k) :: l.writers, exclusive_write h.2 task⟩
  else none

section

variable [DecidableEq τ]

theorem exclusive_erase_reader (l : ShardLocks τ) (g : τ × ℕ) :
    ∀ e ∈ l.readers.erase g, ∀ f ∈ l.writers, e.2 ≠ f.2 :=
  fun e he => l.exclusive e (List.mem_of_mem_erase he)

theorem exclusive_erase_writer (l : ShardLocks τ) (g : τ × ℕ) :
    ∀ e ∈ l.readers, ∀ f ∈ l.writers.erase g, e.2 ≠ f.2 :=
  fun e he f hf => l.exclusive e he f (List.mem_of_mem_erase hf)

def unlockRead (l : ShardLocks τ) (task : τ) (k : ℕ) : ShardLocks τ :=
  ⟨l.readers.erase (task, k), l.writers, l.exclusive_erase_reader (task, k)⟩

def unlockWrite (l : ShardLocks τ) (task : τ) (k : ℕ) : ShardLocks τ :=
  ⟨l.readers, l.writers.erase (task, k), l.exclusive_erase_writer (task, k)⟩

end

variable {l l' : ShardLocks τ} {task u : τ} {k j : ℕ}

/-- A guard keeps the write side from everybody. -/
theorem Reads.lockWrite_eq_none (h : l.Reads task k) (u : τ) : l.lockWrite u k = none := by
  apply dif_neg
  intro hw
  exact hw.2 _ h rfl

theorem Reads.not_writes (h : l.Reads task k) (u : τ) : ¬ l.Writes u k :=
  fun hw => l.exclusive _ h _ hw rfl

theorem reads_of_lockRead (h : l.lockRead task k = some l') : l'.Reads task k := by
  unfold lockRead at h
  split_ifs at h
  cases h
  exact List.mem_cons_self

theorem Reads.lockRead (h : l.Reads task k) (hl : l.lockRead u j = some l') :
    l'.Reads task k := by
  unfold ShardLocks.lockRead at hl
  split_ifs at hl
  cases hl
  exact List.mem_cons_of_mem _ h

theorem Reads.lockWrite (h : l.Reads task k) (hl : l.lockWrite u j = some l') :
    l'.Reads task k := by
  unfold ShardLocks.lockWrite at hl
  split_ifs at hl
  cases hl
  exact h

theorem Reads.unlockWrite [DecidableEq τ] (h : l.Reads task k) :
    (l.unlockWrite u j).Reads task k := h

/-- A task gives back its own guards only. -/
theorem Reads.unlockRead [DecidableEq τ] (h : l.Reads task k) (hu : task ≠ u) :
    (l.unlockRead u j).Reads task k :=
  (List.mem_erase_of_ne fun he => hu (congrArg Prod.fst he)).mpr h

end ShardLocks
