import Rusbmux.Framing
import Rusbmux.MuxParserSafety

/-! What decoders take off a stream. -/
namespace Rusbmux

def ParseError.isIo : ParseError → Bool
  | io _ => true
  | _ => false

namespace Parse

variable {α β : Type}

theorem takes_readExact (xs : Bytes) : Framing.Takes (readExact xs.length) xs (.ok xs) := by
  intro rest
  have hle : xs.length ≤ (xs ++ rest).length := by
    rw [List.length_append]
    exact Nat.le_add_right _ _
  rw [readExact_of_le hle, List.take_left, List.drop_left]

/-- A decoder that never leaves more than it finds. -/
def Shrinks (m : Parse α) : Prop := ∀ s, (m s).2.length ≤ s.length

theorem length_bind_le {m : Parse α} {f : α → Parse β} (hf : ∀ a, Shrinks (f a)) (s : Bytes) :
    ((m >>= f) s).2.length ≤ (m s).2.length := by
  rcases hm : m s with ⟨a | e | _, rest⟩
  · rw [bind_of_ok hm]
    exact hf a rest
  · exact Nat.le_of_eq (by rw [bind_of_err hm])
  · exact Nat.le_of_eq (by rw [bind_of_fault hm])

theorem shrinks_bind {m : Parse α} {f : α → Parse β} (hm : Shrinks m) (hf : ∀ a, Shrinks (f a)) :
    Shrinks (m >>= f) := fun s =>
  Nat.le_trans (length_bind_le hf s) (hm s)

theorem shrinks_readExact (n : ℕ) : Shrinks (readExact n) := by
  intro s
  unfold readExact
  split_ifs
  · rw [List.length_drop]
    exact Nat.sub_le _ _
  · exact Nat.zero_le _

theorem shrinks_pure (a : α) : Shrinks (pure a : Parse α) := fun s => Nat.le_refl s.length

theorem shrinks_throw (e : ParseError) : Shrinks (throw e : Parse α) := fun s =>
  Nat.le_refl s.length

end Parse

end Rusbmux
