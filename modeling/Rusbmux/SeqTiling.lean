import Mathlib.Algebra.GroupWithZero.Nat
import Mathlib.Data.List.Chain
import Mathlib.Data.Nat.Notation
import Mathlib.Tactic.TypeStar

/-! Segments of a byte stream that carry 32-bit sequence numbers: what it means
that they tile the stream, and that the byte ranges of such segments are
disjoint as long as the numbers do not come round. -/
namespace SeqTiling

variable {α : Type*} (start : α → UInt32) (len : α → ℕ)

/-- The bytes of the segments. -/
def total (ps : List α) : ℕ := (ps.map len).sum

/-- Each segment starts where the one before it ends. -/
def Consecutive (ps : List α) : Prop :=
  ps.IsChain fun p q => start q = start p+UInt32.ofNat (len p)

/-- The segment claims the number for one of its bytes. -/
def Claims (p : α) (x : UInt32) : Prop := ∃ k < len p, x = start p+UInt32.ofNat k

/-- The segments tile the stream: each starts where the one before it ends, and
no two of them claim a byte in common unless the numbers come round in between. -/
structure Tiles (ps : List α) : Prop where
  consecutive : Consecutive start len ps
  disjoint : ∀ before p between q after, ps = before ++ p :: (between ++ q :: after) →
    total len (p :: between)+len q ≤ 2^32 → ∀ x, Claims start len p x → ¬ Claims start len q x

variable {start len}

theorem total_append (ps qs : List α) : total len (ps ++ qs) = total len ps+total len qs := by
  simp only [total, List.map_append, List.sum_append]

theorem total_cons (p : α) (ps : List α) : total len (p :: ps) = len p+total len ps := rfl

theorem total_singleton (p : α) : total len [p] = len p := by
  simp only [total, List.map_cons, List.map_nil, List.sum_singleton]

/-- What follows a run of segments starts after all their bytes. -/
theorem Consecutive.start_eq {p q : α} {ps after : List α}
    (h : Consecutive start len (p :: (ps ++ q :: after))) :
    start q = start p+UInt32.ofNat (total len (p :: ps)) := by
  induction ps generalizing p with
  | nil =>
    have hpq := (List.isChain_cons_cons.mp h).1
    rw [hpq, total_singleton]
  | cons r rs ih =>
    have hcons := List.isChain_cons_cons.mp h
    rw [ih hcons.2, hcons.1, total_cons p, UInt32.ofNat_add, UInt32.add_assoc]

theorem Consecutive.tiles {ps : List α} (h : Consecutive start len ps) : Tiles start len ps := by
  refine ⟨h, ?_⟩
  intro before p between q after hps hround x hp hq
  obtain ⟨a, ha, hxa⟩ := hp
  obtain ⟨b, hb, hxb⟩ := hq
  have hchain : Consecutive start len (p :: (between ++ q :: after)) := by
    unfold Consecutive at h
    rw [hps] at h
    exact (List.isChain_append.mp h).2.1
  have hstart := hchain.start_eq
  -- the byte of `q` lies behind the whole of `p`
  have hle : len p ≤ total len (p :: between) := by
    rw [total_cons]
    exact Nat.le_add_right _ _
  have heq : UInt32.ofNat a = UInt32.ofNat (total len (p :: between)+b) := by
    have hx := hxa.symm.trans hxb
    rw [hstart, UInt32.add_assoc, ← UInt32.ofNat_add] at hx
    exact UInt32.add_right_inj (start p) |>.mp hx
  have hnat := congrArg UInt32.toNat heq
  rw [UInt32.toNat_ofNat', UInt32.toNat_ofNat', Nat.mod_eq_of_lt (by omega),
    Nat.mod_eq_of_lt (by omega)] at hnat
  omega

theorem consecutive_append_singleton {ps : List α} {q : α} :
    Consecutive start len (ps ++ [q]) ↔ Consecutive start len ps ∧
      ∀ p, ps.getLast? = some p → start q = start p+UInt32.ofNat (len p) := by
  unfold Consecutive
  rw [List.isChain_append]
  constructor
  · intro h
    refine ⟨h.1, ?_⟩
    intro p hp
    exact h.2.2 p hp q rfl
  · intro h
    refine ⟨h.1, List.isChain_singleton q, ?_⟩
    intro p hp r hr
    cases hr
    exact h.2 p hp

end SeqTiling
