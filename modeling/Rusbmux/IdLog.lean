import Rusbmux.KeyTable
import Mathlib.Data.List.Count
import Mathlib.Data.List.Induction

/-! Logs of ids that are announced for keys and taken back again, and tables that
hold for a key the id that stands for it. -/

/-- An entry of the log. -/
inductive IdEvent (κ ι : Type*) where
  | connected (key : κ) (id : ι)
  | disconnected (id : ι)
  deriving DecidableEq, Repr

namespace IdLog

variable {κ ι : Type*}

/-- The ids announced for a key. -/
def idsOf [DecidableEq κ] (log : List (IdEvent κ ι)) (k : κ) : List ι :=
  log.filterMap fun
    | .connected j id => if j = k then some id else none
    | .disconnected _ => none

/-- All ids announced. -/
def ids (log : List (IdEvent κ ι)) : List ι :=
  log.filterMap fun
    | .connected _ id => some id
    | .disconnected _ => none

/-- The id stands for the key. -/
def Open (log : List (IdEvent κ ι)) (k : κ) (id : ι) : Prop :=
  .connected k id ∈ log ∧ .disconnected id ∉ log

instance [DecidableEq κ] [DecidableEq ι] (log : List (IdEvent κ ι)) (k : κ) (id : ι) :
    Decidable (Open log k id) := inferInstanceAs (Decidable (_ ∧ _))

/-- No id is announced twice, and one that is taken back has been announced
before, and was not taken back before. -/
structure Sound [DecidableEq ι] (log : List (IdEvent κ ι)) : Prop where
  fresh : (ids log).Nodup
  follows : ∀ before id after, log = before ++ .disconnected id :: after →
    (ids before).count id = 1 ∧ .disconnected id ∉ before

variable {log : List (IdEvent κ ι)} {j k : κ} {i id : ι}

theorem mem_ids_iff : id ∈ ids log ↔ ∃ k, .connected k id ∈ log := by
  rw [ids, List.mem_filterMap]
  constructor
  · rintro ⟨e, he, hid⟩
    cases e with
    | connected k i =>
      cases hid
      exact ⟨k, he⟩
    | disconnected i => cases hid
  · rintro ⟨k, hk⟩
    exact ⟨_, hk, rfl⟩

theorem mem_idsOf_iff [DecidableEq κ] : id ∈ idsOf log k ↔ .connected k id ∈ log := by
  rw [idsOf, List.mem_filterMap]
  constructor
  · rintro ⟨e, he, hid⟩
    cases e with
    | connected j i =>
      simp only [Option.ite_none_right_eq_some, Option.some.injEq] at hid
      obtain ⟨rfl, rfl⟩ := hid
      exact he
    | disconnected i => cases hid
  · intro h
    exact ⟨_, h, if_pos rfl⟩

theorem ids_append (log log' : List (IdEvent κ ι)) : ids (log ++ log') = ids log ++ ids log' :=
  List.filterMap_append

theorem ids_connect : ids (log ++ [.connected k id]) = ids log ++ [id] := ids_append _ _

theorem ids_disconnect : ids (log ++ [.disconnected id]) = ids log := by
  rw [ids_append]
  exact List.append_nil _

/-- A fresh id was announced for one key only. -/
theorem key_unique (h : (ids log).Nodup) (hj : .connected j id ∈ log)
    (hk : .connected k id ∈ log) : j = k := by
  induction log with
  | nil => cases hj
  | cons e log ih =>
    -- only an announcement at the head can be that of the id
    cases e with
    | disconnected i =>
      rw [List.mem_cons] at hj hk
      exact ih h (hj.resolve_left nofun) (hk.resolve_left nofun)
    | connected l i =>
      have hids : ids (.connected l i :: log) = i :: ids log := rfl
      rw [hids] at h
      obtain ⟨hi, hnodup⟩ := List.nodup_cons.mp h
      rcases List.mem_cons.mp hj with hj | hold <;> rcases List.mem_cons.mp hk with hk | hold'
      · cases hj
        cases hk
        rfl
      · cases hj
        have hmem : id ∈ ids log := mem_ids_iff.mpr ⟨k, hold'⟩
        exact absurd hmem hi
      · cases hk
        have hmem : id ∈ ids log := mem_ids_iff.mpr ⟨j, hold⟩
        exact absurd hmem hi
      · exact ih hnodup hold hold'

theorem open_disconnect_iff :
    Open (log ++ [.disconnected id]) j i ↔ Open log j i ∧ i ≠ id := by
  simp only [Open, List.mem_append, List.mem_singleton, IdEvent.disconnected.injEq, reduceCtorEq,
    or_false, not_or, and_assoc]

/-- A split of a log that has grown by one entry. -/
theorem split_concat {before after : List (IdEvent κ ι)} {e f : IdEvent κ ι}
    (h : log ++ [e] = before ++ f :: after) :
    (e = f ∧ before = log) ∨ ∃ after', log = before ++ f :: after' := by
  -- the entries behind the split end in the new one, if there are any
  induction after using List.reverseRecOn with
  | nil =>
    obtain ⟨hlog, hlast⟩ := List.append_inj' h rfl
    exact Or.inl ⟨List.cons.inj hlast |>.1, hlog.symm⟩
  | append_singleton after g _ =>
    have hassoc : before ++ f :: (after ++ [g]) = (before ++ f :: after) ++ [g] := by
      rw [List.append_assoc, List.cons_append]
    rw [hassoc] at h
    exact Or.inr ⟨after, (List.append_inj' h rfl).1⟩

section Sound

variable [DecidableEq ι]

theorem sound_nil : Sound ([] : List (IdEvent κ ι)) where
  fresh := List.nodup_nil
  follows before id after h := by cases before <;> cases h

theorem Sound.mem_ids (h : Sound log) (hid : .disconnected id ∈ log) : id ∈ ids log := by
  obtain ⟨before, after, rfl⟩ := List.append_of_mem hid
  have hcount := (h.follows before id after rfl).1
  rw [ids_append, List.mem_append]
  exact Or.inl (List.count_pos_iff.mp (by omega))

theorem Sound.connect (h : Sound log) (hid : id ∉ ids log) :
    Sound (log ++ [.connected k id]) where
  fresh := by
    rw [ids_connect, List.nodup_append_comm]
    exact List.nodup_cons.mpr ⟨hid, h.fresh⟩
  follows before i after heq := by
    rcases split_concat heq with ⟨hne, -⟩ | ⟨after', rfl⟩
    · cases hne
    · exact h.follows before i after' rfl

theorem Sound.disconnect (h : Sound log) (ho : Open log k id) :
    Sound (log ++ [.disconnected id]) where
  fresh := by
    rw [ids_disconnect]
    exact h.fresh
  follows before i after heq := by
    rcases split_concat heq with ⟨he, rfl⟩ | ⟨after', rfl⟩
    · cases he
      exact ⟨List.count_eq_one_of_mem h.fresh (mem_ids_iff.mpr ⟨k, ho.1⟩), ho.2⟩
    · exact h.follows before i after' rfl

theorem open_connect_iff (h : Sound log) (hid : id ∉ ids log) :
    Open (log ++ [.connected k id]) j i ↔ Open log j i ∨ j = k ∧ i = id := by
  have hgone : .disconnected id ∉ log := fun hmem => hid (h.mem_ids hmem)
  simp only [Open, List.mem_append, List.mem_singleton, IdEvent.connected.injEq, reduceCtorEq,
    or_false]
  constructor
  · rintro ⟨hmem | hnew, hnot⟩
    · exact Or.inl ⟨hmem, hnot⟩
    · exact Or.inr hnew
  · rintro (ho | ⟨rfl, rfl⟩)
    · exact ⟨Or.inl ho.1, ho.2⟩
    · exact ⟨Or.inr ⟨rfl, rfl⟩, hgone⟩

end Sound

/-- The table holds exactly the ids that stand. -/
def Holds [DecidableEq κ] (table : KeyTable κ ι) (log : List (IdEvent κ ι)) : Prop :=
  ∀ k id, table.get k = some id ↔ Open log k id

theorem holds_empty [DecidableEq κ] : Holds KeyTable.empty ([] : List (IdEvent κ ι)) :=
  fun _ _ => iff_of_false nofun fun ho => nomatch ho.1

section Holds

variable [DecidableEq κ] [DecidableEq ι] {table : KeyTable κ ι}

theorem Holds.connect (h : Holds table log) (hs : Sound log) (hk : table.get k = none)
    (hid : id ∉ ids log) : Holds (table.insert k id) (log ++ [.connected k id]) := by
  intro j i
  rw [open_connect_iff hs hid, KeyTable.get_insert, ← h j i]
  split_ifs with hj
  · subst hj
    rw [hk]
    simp [eq_comm]
  · simp [hj]

theorem Holds.disconnect (h : Holds table log) (hs : Sound log) (hk : table.get k = some id) :
    Holds (table.remove k) (log ++ [.disconnected id]) := by
  have ho := (h k id).mp hk
  intro j i
  rw [open_disconnect_iff, KeyTable.get_remove, ← h j i]
  split_ifs with hj
  · subst hj
    refine iff_of_false nofun fun ⟨hi, hne⟩ => hne ?_
    exact Option.some.inj (hi.symm.trans hk)
  · refine (and_iff_left_of_imp fun hi => ?_).symm
    rintro rfl
    exact hj (key_unique hs.fresh ((h j i).mp hi).1 ho.1)

end Holds

/-- The ids are taken back exactly for the holders that have departed, and no key
has two that stand. `departed` has the ids of a key from when its holder is known
to have departed. -/
structure Paired [DecidableEq ι] (log : List (IdEvent κ ι)) (departed : List ι) : Prop where
  sound : Sound log
  exact : ∀ id, .disconnected id ∈ log ↔ id ∈ departed
  single : ∀ k i id, Open log k i → Open log k id → i = id

section Paired

variable [DecidableEq ι] {departed : List ι}

theorem paired_nil : Paired ([] : List (IdEvent κ ι)) [] where
  sound := sound_nil
  exact _ := iff_of_false nofun nofun
  single _ _ _ ho := nomatch ho.1

theorem Paired.connect (h : Paired log departed) (hk : ∀ i, ¬ Open log k i) (hid : id ∉ ids log) :
    Paired (log ++ [.connected k id]) departed where
  sound := h.sound.connect hid
  exact i := by
    rw [← h.exact]
    simp only [List.mem_append, List.mem_singleton, reduceCtorEq, or_false]
  single l i j hi hj := by
    rw [open_connect_iff h.sound hid] at hi hj
    rcases hi with hi | ⟨rfl, rfl⟩ <;> rcases hj with hj | ⟨hl, rfl⟩
    · exact h.single l i j hi hj
    · exact absurd (hl ▸ hi) (hk i)
    · exact absurd hj (hk j)
    · rfl

variable [DecidableEq κ]

/-- The holder departs, and the id that stands for it is taken back. -/
theorem Paired.depart (h : Paired log departed) (ho : Open log k id) :
    Paired (log ++ [.disconnected id]) (departed ++ idsOf log k) where
  sound := h.sound.disconnect ho
  exact i := by
    rw [List.mem_append, List.mem_append, mem_idsOf_iff, ← h.exact, List.mem_singleton,
      IdEvent.disconnected.injEq]
    constructor
    · rintro (hi | rfl)
      · exact Or.inl hi
      · exact Or.inr ho.1
    · rintro (hi | hi)
      · exact Or.inl hi
      · -- of the ids of the key one stands at most, the others were taken back
        by_cases hgone : .disconnected i ∈ log
        · exact Or.inl hgone
        · exact Or.inr (h.single k i id ⟨hi, hgone⟩ ho)
  single l i j hi hj :=
    h.single l i j (open_disconnect_iff.mp hi).1 (open_disconnect_iff.mp hj).1

/-- A departure where no id stands for the holder. -/
theorem Paired.departSilent (h : Paired log departed) (hk : ∀ i, ¬ Open log k i) :
    Paired log (departed ++ idsOf log k) where
  sound := h.sound
  exact i := by
    rw [List.mem_append, mem_idsOf_iff, ← h.exact]
    refine (or_iff_left_of_imp fun hi => ?_).symm
    by_contra hgone
    exact hk i ⟨hi, hgone⟩
  single := h.single

end Paired

end IdLog
