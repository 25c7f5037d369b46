import Rusbmux.ReaderPolls

/-! What the bulk reader delivers, compared over the times at which transfers
end. -/
namespace Rusbmux

namespace ReaderPolls

open RusbAsyncReader

/-- What calls with that room get, of the bytes left of a transfer and of the
transfers behind it: the data of those that succeed, and an error for each that
fails. -/
def expected (left : Bytes) (results : List BulkRead) : List ℕ → List (ℕ × Except String Bytes)
  | [] => []
  | n :: ns =>
    if left ≠ [] then (n, .ok (left.take n)) :: expected (left.drop n) results ns
    else match results with
      | [] => []
      | result :: results =>
        if result.status ≠ 0 then
          (n, .error ("libusb read: " ++ libusbStatusStr result.status)) :: expected [] results ns
        else (n, .ok (result.data.take n)) :: expected (result.data.drop n) results ns

/-- The room of each call that returned. -/
def room (s : ReaderPolls) : List ℕ := s.outcomes.map Prod.fst

/-- The calls got what the transfers alone say. -/
def Faithful (results : List BulkRead) (s : ReaderPolls) : Prop :=
  s.outcomes = expected [] results s.room

/-- Two schedules of the same transfers: each call gets what the transfers say,
and calls with the same room get the same. -/
structure TimingFree (results : List BulkRead) (as bs : List Action) : Prop where
  left : StepSystem.EveryState step (Faithful results) (start results) as
  right : StepSystem.EveryState step (Faithful results) (start results) bs
  same : ∀ t u, StepSystem.after step (start results) as = some t →
    StepSystem.after step (start results) bs = some u → t.room <+: u.room →
    t.outcomes <+: u.outcomes

/-- No transfer that failed has ended by its first poll. -/
def NoneFailsEarly (s : ReaderPolls) (a : Action) : Prop := ¬ s.FailsEarly a

theorem expected_leftover {left : Bytes} (h : left ≠ []) (results : List BulkRead) (n : ℕ)
    (ns : List ℕ) : expected left results (n :: ns) =
      (n, .ok (left.take n)) :: expected (left.drop n) results ns := by
  simp only [expected, if_pos h]

theorem expected_takes {result : BulkRead} (h : ¬ result.status ≠ 0) (results : List BulkRead)
    (n : ℕ) (ns : List ℕ) : expected [] (result :: results) (n :: ns) =
      (n, .ok (result.data.take n)) :: expected (result.data.drop n) results ns := by
  simp only [expected, ne_eq, not_true_eq_false, if_false, if_neg h]

theorem expected_fails {result : BulkRead} (h : result.status ≠ 0) (results : List BulkRead)
    (n : ℕ) (ns : List ℕ) : expected [] (result :: results) (n :: ns) =
      (n, .error ("libusb read: " ++ libusbStatusStr result.status)) ::
        expected [] results ns := by
  simp only [expected, ne_eq, not_true_eq_false, if_false, if_pos h]

theorem expected_prefix {ns ms : List ℕ} (h : ns <+: ms) (left : Bytes)
    (results : List BulkRead) : expected left results ns <+: expected left results ms := by
  induction ns generalizing ms left results with
  | nil => exact List.nil_prefix
  -- the first call gets the same in both, whatever comes behind it
  | cons n ns ih =>
    obtain ⟨more, rfl⟩ := h
    have htail : ns <+: ns ++ more := List.prefix_append _ _
    simp only [List.cons_append, expected]
    by_cases hleft : left ≠ []
    · rw [if_pos hleft, if_pos hleft]
      exact List.prefix_cons_inj _ |>.mpr (ih htail _ _)
    · rw [if_neg hleft, if_neg hleft]
      cases results with
      | nil => exact List.prefix_rfl
      | cons result results =>
        simp only
        split_ifs
        · exact List.prefix_cons_inj _ |>.mpr (ih htail _ _)
        · exact List.prefix_cons_inj _ |>.mpr (ih htail _ _)

/-- What was got so far, and what later calls are to get. -/
structure FaithfulInv (results : List BulkRead) (s : ReaderPolls) : Prop where
  sound : s.reader.Sound
  outcomes : ∀ ns, expected [] results (s.room ++ ns) =
    s.outcomes ++ expected s.reader.left s.waiting ns

theorem faithfulInv_start (results : List BulkRead) : FaithfulInv results (start results) :=
  ⟨sound_start results, fun _ => rfl⟩

theorem FaithfulInv.faithful {results : List BulkRead} {s : ReaderPolls}
    (h : FaithfulInv results s) : Faithful results s := by
  have hs := h.outcomes []
  rw [List.append_nil, expected, List.append_nil] at hs
  exact hs.symm

variable {s t : ReaderPolls} {a : Action}

/-- One more call that gets what it is to get. -/
theorem FaithfulInv.call {results : List BulkRead} (h : FaithfulInv results s) {n : ℕ}
    {o : Except String Bytes} (hsound : t.reader.Sound) (ho : t.outcomes = s.outcomes ++ [(n, o)])
    (he : ∀ ns, expected s.reader.left s.waiting (n :: ns) =
      (n, o) :: expected t.reader.left t.waiting ns) : FaithfulInv results t := by
  refine ⟨hsound, fun ns => ?_⟩
  have hroom : t.room = s.room ++ [n] := by
    rw [room, ho, List.map_append]
    rfl
  have hs := h.outcomes (n :: ns)
  rw [he] at hs
  rw [hroom, List.append_assoc, ho, List.append_assoc]
  exact hs

/-- A step keeps to the transfers exactly unless it is a failure that came early. -/
theorem FaithfulInv.step {results : List BulkRead} (h : FaithfulInv results s)
    (ht : s.step a = some t) :
    (s.NoneFailsEarly a → FaithfulInv results t) ∧
      (Faithful results t → s.NoneFailsEarly a) := by
  obtain ⟨hm, hsound⟩ := move_of_step h.sound ht
  cases hm with
  | leftover n hs hl hw ho hp hf =>
    refine ⟨fun _ => h.call hsound ho fun ns => ?_, fun _ => hf⟩
    rw [expected_leftover hs, hl, hw]
  | fails n result hs hl hw he ho hp hf =>
    refine ⟨fun _ => h.call hsound ho fun ns => ?_, fun _ => hf⟩
    rw [hs, hw, expected_fails he, hl]
  | takes n result hs hl hw ho hp hf =>
    constructor
    · intro hnone
      have hstatus := mt hf.mp hnone
      refine h.call hsound ho fun ns => ?_
      rw [hs, hw, expected_takes hstatus, hl]
    · -- the caller has data where there was to be an error
      intro hfaithful hfail
      have hexpected := h.outcomes [n]
      rw [hs, hw, expected_fails (hf.mpr hfail), expected] at hexpected
      have hroom : t.room = s.room ++ [n] := by
        rw [room, ho, List.map_append]
        rfl
      rw [Faithful, ho, hroom, hexpected] at hfaithful
      have hlast := List.append_cancel_left hfaithful
      cases hlast
  -- no call has returned, and nothing has been picked up
  | quiet hl hw ho hp hf =>
    refine ⟨fun _ => ⟨hsound, fun ns => ?_⟩, fun _ => hf⟩
    rw [room, ho, hl, hw]
    exact h.outcomes ns

theorem faithful_iff (results : List BulkRead) (as : List Action) :
    StepSystem.EveryState step (Faithful results) (start results) as ↔
      StepSystem.EveryStep step NoneFailsEarly (start results) as :=
  StepSystem.everyState_iff_everyStep (fun _ _ _ hi ht => hi.step ht) (fun _ hi => hi.faithful)
    (faithfulInv_start results) as

/-- For all transfers and any two schedules of them: the time at which they end
makes no difference exactly when none that failed has ended by its first poll. -/
theorem timingFree_iff (results : List BulkRead) (as bs : List Action) :
    TimingFree results as bs ↔
      StepSystem.EveryStep step NoneFailsEarly (start results) as ∧
        StepSystem.EveryStep step NoneFailsEarly (start results) bs := by
  rw [← faithful_iff, ← faithful_iff]
  constructor
  · intro h
    exact ⟨h.left, h.right⟩
  · rintro ⟨has, hbs⟩
    refine ⟨has, hbs, fun t u ht hu hroom => ?_⟩
    rw [has.last ht, hbs.last hu]
    exact expected_prefix hroom [] results

/-- The same failed transfer ends before its first poll, or behind it. -/
theorem earlyFailure_not_timingFree : ¬ ∀ results as bs, TimingFree results as bs := by
  intro h
  have hpair := h [⟨⟨1⟩, []⟩] [.poll (.ok ()) 8 false, .complete, .poll (.ok ()) 8 false]
    [.poll (.ok ()) 8 true]
  have hsame := hpair.same _ _ rfl rfl (by decide)
  exact absurd hsame (by decide)

end ReaderPolls
end Rusbmux
