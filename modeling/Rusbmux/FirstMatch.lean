import Mathlib.Data.List.Basic
import Mathlib.Tactic.TypeStar

/-! The first hit in a list whose order is not known. -/
namespace FirstMatch

variable {α β : Type*} {f : α → Option β} {as : List α}

/-- All hits are equal. -/
def Agree (f : α → Option β) (as : List α) : Prop :=
  ∀ a ∈ as, ∀ b ∈ as, ∀ x y, f a = some x → f b = some y → x = y

theorem mem_of_findSome {y : β} (h : as.findSome? f = some y) : ∃ a ∈ as, f a = some y :=
  List.exists_of_findSome?_eq_some h

theorem exists_findSome {a : α} {x : β} (ha : a ∈ as) (hx : f a = some x) :
    ∃ y, as.findSome? f = some y := by
  apply Option.isSome_iff_exists.mp
  rw [List.findSome?_isSome_iff]
  exact ⟨a, ha, Option.isSome_of_eq_some hx⟩

/-- Where all hits are equal, any of them is the first. -/
theorem Agree.findSome_eq (h : Agree f as) {a : α} {x : β} (ha : a ∈ as) (hx : f a = some x) :
    as.findSome? f = some x := by
  obtain ⟨y, hy⟩ := exists_findSome ha hx
  obtain ⟨b, hb, hfb⟩ := mem_of_findSome hy
  rw [hy, h b hb a ha y x hfb hx]

/-- The first hit is the same in every order just if all hits are equal. -/
theorem perm_findSome_iff : (∀ bs : List α, bs.Perm as → bs.findSome? f = as.findSome? f) ↔
    Agree f as := by
  constructor
  · intro h a ha b hb x y hx hy
    -- either of them may come first
    have hfirst {c : α} {z : β} (hc : c ∈ as) (hz : f c = some z) : as.findSome? f = some z := by
      obtain ⟨l, r, rfl⟩ := List.append_of_mem hc
      rw [← h (c :: (l ++ r)) List.perm_middle.symm, List.findSome?_cons, hz]
    exact Option.some.inj ((hfirst ha hx).symm.trans (hfirst hb hy))
  · intro h bs hperm
    cases hbs : bs.findSome? f with
    | none =>
      symm
      apply List.findSome?_eq_none_iff.mpr
      exact fun a ha => List.findSome?_eq_none_iff.mp hbs a (hperm.mem_iff.mpr ha)
    | some y =>
      obtain ⟨a, ha, hy⟩ := mem_of_findSome hbs
      exact (h.findSome_eq (hperm.mem_iff.mp ha) hy).symm

end FirstMatch
