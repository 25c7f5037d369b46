import Mathlib.Data.List.Basic
import Mathlib.Tactic.TypeStar

/-! Channels that send every value to each receiver and keep only the last of
them. A receiver is the number of values sent before the next it reads. -/
namespace Broadcast

variable {α : Type*}

inductive Received (α : Type*) where
  | value (a : α)
  /-- So many values are gone that the receiver has not read. -/
  | lagged (missed : ℕ)
  deriving DecidableEq, Repr

/-- A receive with the receiver that it leaves; it waits where there is nothing
new. A receiver that lags goes on with the oldest value that is kept. -/
def recv (capacity : ℕ) (sent : List α) (next : ℕ) : Option (Received α × ℕ) :=
  match sent.drop next with
  | [] => none
  | a :: _ =>
    if sent.length ≤ next+capacity then some (.value a, next+1)
    else some (.lagged (sent.length-(next+capacity)), sent.length-capacity)

variable {capacity next n : ℕ} {sent : List α} {a : α}

/-- A receiver that does not lag reads the values one by one. -/
theorem drop_of_recv (h : recv capacity sent next = some (.value a, n)) :
    sent.drop next = a :: sent.drop n := by
  unfold recv at h
  split at h
  next => cases h
  next b rest hdrop =>
    split_ifs at h
    · cases h
      rw [← List.drop_drop, hdrop]
      rfl
    · cases h

theorem lt_of_recv {r : Received α × ℕ} (h : recv capacity sent next = some r) :
    next < sent.length := by
  unfold recv at h
  split at h
  next => cases h
  next b rest hdrop =>
    by_contra hle
    rw [List.drop_of_length_le (Nat.not_lt.mp hle)] at hdrop
    cases hdrop

theorem next_of_recv (h : recv capacity sent next = some (.value a, n)) : n = next+1 := by
  unfold recv at h
  split at h
  next => cases h
  next b rest hdrop =>
    split_ifs at h
    · cases h
      rfl
    · cases h

/-- A receiver lags just when more values than the channel keeps are unread. -/
theorem recv_lagged_iff : (∃ missed n, recv capacity sent next = some (.lagged missed, n)) ↔
    next+capacity < sent.length := by
  unfold recv
  constructor
  · rintro ⟨missed, n, h⟩
    split at h
    next => cases h
    next b rest hdrop =>
      by_contra hlt
      rw [if_pos (Nat.not_lt.mp hlt)] at h
      cases h
  · intro hlt
    split
    next hdrop =>
      have hle := List.drop_eq_nil_iff.mp hdrop
      omega
    next b rest hdrop =>
      rw [if_neg (Nat.not_le.mpr hlt)]
      exact ⟨_, _, rfl⟩

end Broadcast
