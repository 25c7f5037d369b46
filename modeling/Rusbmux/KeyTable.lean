import Mathlib.Data.List.Nodup
import Mathlib.Tactic.TypeStar

/-! Finite maps with at most one value for each key, kept as a list of entries.
The order of the entries carries no meaning. -/
structure KeyTable (κ ν : Type*) where
  entries : List (κ × ν)
  nodup : (entries.map Prod.fst).Nodup

namespace KeyTable

variable {κ ν : Type*}

def empty : KeyTable κ ν := ⟨[], List.nodup_nil⟩

def keys (t : KeyTable κ ν) : List κ := t.entries.map Prod.fst

/-- Keeps the entries that meet `p`. -/
def retain (t : KeyTable κ ν) (p : κ → ν → Bool) : KeyTable κ ν :=
  ⟨t.entries.filter fun e => p e.1 e.2,
    t.nodup.sublist (List.filter_sublist.map Prod.fst)⟩

/-- The values are replaced, each under its key. -/
def map (t : KeyTable κ ν) (f : ν → ν) : KeyTable κ ν :=
  ⟨t.entries.map fun e => (e.1, f e.2), by simpa [Function.comp_def] using t.nodup⟩

/-- Whether some entry meets `p`. -/
def any (t : KeyTable κ ν) (p : κ → ν → Bool) : Bool :=
  t.entries.any fun e => p e.1 e.2

variable [DecidableEq κ]

def get (t : KeyTable κ ν) (k : κ) : Option ν :=
  (t.entries.find? fun e => e.1 = k).map Prod.snd

def remove (t : KeyTable κ ν) (k : κ) : KeyTable κ ν :=
  t.retain fun j _ => j ≠ k

/-- Adds an entry; a former value of the key is replaced. -/
def insert (t : KeyTable κ ν) (k : κ) (v : ν) : KeyTable κ ν :=
  ⟨(k, v) :: (t.remove k).entries,
    List.nodup_cons.mpr ⟨by simp [remove, retain], (t.remove k).nodup⟩⟩

theorem get_eq_some_iff (t : KeyTable κ ν) (k : κ) (v : ν) :
    t.get k = some v ↔ (k, v) ∈ t.entries := by
  obtain ⟨es, hn⟩ := t
  simp only [get]
  induction es with
  | nil => simp
  | cons e es ih =>
    obtain ⟨j, w⟩ := e
    have hn' := List.nodup_cons.mp hn
    by_cases hj : j = k
    · subst hj
      have hnot : (j, v) ∉ es := fun h => hn'.1 (List.mem_map.mpr ⟨(j, v), h, rfl⟩)
      simp [hnot, eq_comm]
    · have hk : k ≠ j := fun h => hj h.symm
      simpa [List.find?_cons, hj, hk] using ih hn'.2

theorem mem_keys_iff (t : KeyTable κ ν) (k : κ) : k ∈ t.keys ↔ ∃ v, t.get k = some v := by
  simp only [get_eq_some_iff, keys, List.mem_map, Prod.exists, exists_and_right, exists_eq_right]

theorem any_eq_true_iff (t : KeyTable κ ν) (p : κ → ν → Bool) :
    t.any p = true ↔ ∃ k v, t.get k = some v ∧ p k v = true := by
  simp only [any, List.any_eq_true, Prod.exists, get_eq_some_iff]

theorem any_eq_false_iff (t : KeyTable κ ν) (p : κ → ν → Bool) :
    t.any p = false ↔ ∀ k v, t.get k = some v → p k v = false := by
  simp only [any, List.any_eq_false, Prod.forall, get_eq_some_iff, Bool.not_eq_true]

theorem any_congr {t : KeyTable κ ν} {p q : κ → ν → Bool}
    (h : ∀ k v, t.get k = some v → p k v = q k v) : t.any p = t.any q := by
  rw [Bool.eq_iff_iff, any_eq_true_iff, any_eq_true_iff]
  refine exists₂_congr fun k v => and_congr_right fun hk => ?_
  rw [h k v hk]

theorem retain_congr {t : KeyTable κ ν} {p q : κ → ν → Bool}
    (h : ∀ k v, t.get k = some v → p k v = q k v) : t.retain p = t.retain q := by
  have heq : (t.entries.filter fun e => p e.1 e.2) = t.entries.filter fun e => q e.1 e.2 :=
    List.filter_congr fun e he => h e.1 e.2 ((t.get_eq_some_iff e.1 e.2).mpr he)
  simp only [retain, heq]

@[simp]
theorem get_empty (k : κ) : (empty : KeyTable κ ν).get k = none := rfl

theorem get_retain_eq_some_iff (t : KeyTable κ ν) (p : κ → ν → Bool) (k : κ) (v : ν) :
    (t.retain p).get k = some v ↔ t.get k = some v ∧ p k v = true := by
  simp only [get_eq_some_iff, retain, List.mem_filter]

theorem get_retain (t : KeyTable κ ν) (p : κ → ν → Bool) (k : κ) :
    (t.retain p).get k = (t.get k).filter (p k) := by
  apply Option.ext
  intro v
  rw [get_retain_eq_some_iff, Option.filter_eq_some_iff]

theorem get_map (t : KeyTable κ ν) (f : ν → ν) (k : κ) : (t.map f).get k = (t.get k).map f := by
  apply Option.ext
  intro v
  simp only [Option.map_eq_some_iff, get_eq_some_iff, map, List.mem_map, Prod.mk.injEq,
    Prod.exists]
  constructor
  · rintro ⟨j, w, hw, rfl, rfl⟩
    exact ⟨w, hw, rfl⟩
  · rintro ⟨w, hw, rfl⟩
    exact ⟨k, w, hw, rfl, rfl⟩

theorem get_remove (t : KeyTable κ ν) (k j : κ) :
    (t.remove k).get j = if j = k then none else t.get j := by
  rw [remove, get_retain]
  by_cases h : j = k
  · simp [h]
  · cases t.get j <;> simp [h]

theorem get_insert (t : KeyTable κ ν) (k j : κ) (v : ν) :
    (t.insert k v).get j = if j = k then some v else t.get j := by
  by_cases h : j = k
  · subst h
    simp [insert, get]
  · have hk : k ≠ j := fun e => h e.symm
    rw [if_neg h]
    have hr := get_remove t k j
    rw [if_neg h] at hr
    rw [← hr]
    simp only [get, insert, List.find?_cons, hk, decide_false]

@[simp]
theorem get_remove_self (t : KeyTable κ ν) (k : κ) : (t.remove k).get k = none := by
  simp only [get_remove, ↓reduceIte]

@[simp]
theorem get_insert_self (t : KeyTable κ ν) (k : κ) (v : ν) : (t.insert k v).get k = some v := by
  simp only [get_insert, ↓reduceIte]

theorem get_remove_of_ne (t : KeyTable κ ν) {k j : κ} (h : j ≠ k) :
    (t.remove k).get j = t.get j := by
  simp only [get_remove, if_neg h]

theorem get_insert_of_ne (t : KeyTable κ ν) {k j : κ} (v : ν) (h : j ≠ k) :
    (t.insert k v).get j = t.get j := by
  simp only [get_insert, if_neg h]

end KeyTable
