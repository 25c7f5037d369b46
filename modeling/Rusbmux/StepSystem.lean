import Mathlib.Data.List.Basic
import Mathlib.Tactic.TypeStar

/-! Labelled systems given by a partial step function, and the induction rules
for their finite runs. An action that is not enabled ends the run. -/
namespace StepSystem

variable {σ α : Type*} (step : σ → α → Option σ)

/-- The state after a list of actions, when all of them are enabled in turn. -/
def after : σ → List α → Option σ
  | s, [] => some s
  | s, a :: as => (step s a).bind fun t => after t as

/-- Every step taken along the actions meets `P`, read in the state before it. -/
def EveryStep (P : σ → α → Prop) : σ → List α → Prop
  | _, [] => True
  | s, a :: as => match step s a with
    | none => True
    | some t => P s a ∧ EveryStep P t as

/-- Every state visited along the actions, the first one included, meets `Q`. -/
def EveryState (Q : σ → Prop) : σ → List α → Prop
  | s, [] => Q s
  | s, a :: as => Q s ∧ match step s a with
    | none => True
    | some t => EveryState Q t as

/-- Some run from here ends in a state that meets `Q`. -/
def CanReach (Q : σ → Prop) (s : σ) : Prop := ∃ as t, after step s as = some t ∧ Q t

variable {step} {P R : σ → α → Prop} {Q Inv : σ → Prop}

theorem after_append (s : σ) (as bs : List α) :
    after step s (as ++ bs) = (after step s as).bind fun t => after step t bs := by
  induction as generalizing s with
  | nil => rfl
  | cons a as ih => simp only [List.cons_append, after, ih, Option.bind_assoc]

theorem everyStep_cons {s t : σ} {a : α} {as : List α} (h : step s a = some t) :
    EveryStep step P s (a :: as) ↔ P s a ∧ EveryStep step P t as := by
  simp only [EveryStep, h]

theorem everyState_cons {s t : σ} {a : α} {as : List α} (h : step s a = some t) :
    EveryState step Q s (a :: as) ↔ Q s ∧ EveryState step Q t as := by
  simp only [EveryState, h]

instance decidableEveryStep [∀ s a, Decidable (P s a)] :
    ∀ (s : σ) (as : List α), Decidable (EveryStep step P s as)
  | _, [] => .isTrue trivial
  | s, a :: as => match h : step s a with
    | none => .isTrue (by simp only [EveryStep, h])
    | some t =>
      have := decidableEveryStep t as
      decidable_of_iff _ (everyStep_cons h).symm

theorem everyState_head {s : σ} {as : List α} (h : EveryState step Q s as) : Q s := by
  cases as with
  | nil => exact h
  | cons a as => exact h.1

theorem EveryState.last {s t : σ} {as : List α} (h : EveryState step Q s as)
    (ht : after step s as = some t) : Q t := by
  induction as generalizing s with
  | nil =>
    cases ht
    exact h
  | cons a as ih =>
    obtain ⟨u, hu, htu⟩ := Option.bind_eq_some_iff.mp ht
    exact ih ((everyState_cons hu).mp h).2 htu

theorem EveryStep.and {s : σ} {as : List α} (hP : EveryStep step P s as)
    (hR : EveryStep step R s as) : EveryStep step (fun s a => P s a ∧ R s a) s as := by
  induction as generalizing s with
  | nil => trivial
  | cons a as ih =>
    cases hst : step s a with
    | none => simp only [EveryStep, hst]
    | some t =>
      rw [everyStep_cons hst] at hP hR ⊢
      exact ⟨⟨hP.1, hR.1⟩, ih hP.2 hR.2⟩

theorem EveryStep.mono {s : σ} {as : List α} (hP : ∀ t a, P t a → R t a)
    (h : EveryStep step P s as) : EveryStep step R s as := by
  induction as generalizing s with
  | nil => trivial
  | cons a as ih =>
    cases hst : step s a with
    | none => simp only [EveryStep, hst]
    | some t =>
      rw [everyStep_cons hst] at h ⊢
      exact ⟨hP s a h.1, ih h.2⟩

theorem EveryState.and {s : σ} {as : List α} (hQ : EveryState step Q s as)
    (hI : EveryState step Inv s as) : EveryState step (fun t => Q t ∧ Inv t) s as := by
  induction as generalizing s with
  | nil => exact ⟨hQ, hI⟩
  | cons a as ih =>
    refine ⟨⟨hQ.1, hI.1⟩, ?_⟩
    cases hst : step s a with
    | none => trivial
    | some t => exact ih ((everyState_cons hst).mp hQ).2 ((everyState_cons hst).mp hI).2

theorem EveryState.mono {s : σ} {as : List α} (hQ : ∀ t, Inv t → Q t)
    (h : EveryState step Inv s as) : EveryState step Q s as := by
  induction as generalizing s with
  | nil => exact hQ s h
  | cons a as ih =>
    refine ⟨hQ s h.1, ?_⟩
    cases hst : step s a with
    | none => trivial
    | some t => exact ih ((everyState_cons hst).mp h).2

/-- The run rule: what holds at the start and survives every step that meets
`P` holds in every state of a run whose steps all meet `P`. -/
theorem everyState_of_everyStep
    (hstep : ∀ s a t, Inv s → P s a → step s a = some t → Inv t)
    {s : σ} (hs : Inv s) {as : List α} (h : EveryStep step P s as) :
    EveryState step Inv s as := by
  induction as generalizing s with
  | nil => exact hs
  | cons a as ih =>
    refine ⟨hs, ?_⟩
    cases hst : step s a with
    | none => trivial
    | some t =>
      have hc := (everyStep_cons hst).mp h
      exact ih (hstep s a t hs hc.1 hst) hc.2

/-- Steps that meet `P` meet `R` as well, when an invariant of the runs whose
steps meet `P` says so. -/
theorem everyStep_of_everyStep
    (hstep : ∀ s a t, Inv s → P s a → step s a = some t → R s a ∧ Inv t)
    {s : σ} (hs : Inv s) {as : List α} (h : EveryStep step P s as) : EveryStep step R s as := by
  induction as generalizing s with
  | nil => trivial
  | cons a as ih =>
    cases hst : step s a with
    | none => simp only [EveryStep, hst]
    | some t =>
      rw [everyStep_cons hst] at h ⊢
      have ht := hstep s a t hs h.1 hst
      exact ⟨ht.1, ih ht.2 h.2⟩

/-- The exact run rule, on the runs whose steps all meet `R`: when a step from
a good state reaches a good state precisely if it meets `P`, the runs through
good states only are the runs whose steps all meet `P`. -/
theorem everyState_iff_everyStep_of
    (hexact : ∀ s a t, Inv s → R s a → step s a = some t → (P s a → Inv t) ∧ (Q t → P s a))
    (hQ : ∀ s, Inv s → Q s) {s : σ} (hs : Inv s) {as : List α} (hR : EveryStep step R s as) :
    EveryState step Q s as ↔ EveryStep step P s as := by
  constructor
  · intro h
    induction as generalizing s with
    | nil => trivial
    | cons a as ih =>
      cases hst : step s a with
      | none => simp only [EveryStep, hst]
      | some t =>
        have hr := (everyStep_cons hst).mp hR
        have hc := ((everyState_cons hst).mp h).2
        have hp := (hexact s a t hs hr.1 hst).2 (everyState_head hc)
        exact (everyStep_cons hst).mpr ⟨hp, ih ((hexact s a t hs hr.1 hst).1 hp) hr.2 hc⟩
  · intro h
    exact (everyState_of_everyStep
      (fun s a t hs hp hst => (hexact s a t hs hp.2 hst).1 hp.1) hs (h.and hR)).mono hQ

/-- The steps of a run through states that meet `Q` meet `P`, when a step to such a
state does. -/
theorem everyStep_of_everyState
    (hexact : ∀ s a t, Inv s → step s a = some t → (P s a → Inv t) ∧ (Q t → P s a))
    {s : σ} (hs : Inv s) {as : List α} (h : EveryState step Q s as) : EveryStep step P s as := by
  induction as generalizing s with
  | nil => trivial
  | cons a as ih =>
    cases hst : step s a with
    | none => simp only [EveryStep, hst]
    | some t =>
      have hrest := ((everyState_cons hst).mp h).2
      have ha := (hexact s a t hs hst).2 (everyState_head hrest)
      exact (everyStep_cons hst).mpr ⟨ha, ih ((hexact s a t hs hst).1 ha) hrest⟩

/-- What every step keeps is kept by a run. -/
theorem after_induction (hstep : ∀ s a t, Inv s → step s a = some t → Inv t) {s t : σ}
    (hs : Inv s) {as : List α} (ht : after step s as = some t) : Inv t := by
  induction as generalizing s with
  | nil =>
    cases ht
    exact hs
  | cons a as ih =>
    obtain ⟨u, hu, htu⟩ := Option.bind_eq_some_iff.mp ht
    exact ih (hstep s a u hs hu) htu

theorem CanReach.now {s : σ} (h : Q s) : CanReach step Q s := ⟨[], s, rfl, h⟩

theorem CanReach.of_after {s t : σ} {as : List α} (ht : after step s as = some t)
    (h : CanReach step Q t) : CanReach step Q s := by
  obtain ⟨bs, u, hu, hq⟩ := h
  refine ⟨as ++ bs, u, ?_, hq⟩
  rw [after_append, ht]
  exact hu

theorem CanReach.of_step {s t : σ} {a : α} (ht : step s a = some t) (h : CanReach step Q t) :
    CanReach step Q s := by
  obtain ⟨as, u, hu, hq⟩ := h
  refine ⟨a :: as, u, ?_, hq⟩
  exact Option.bind_eq_some_iff.mpr ⟨t, ht, hu⟩

theorem CanReach.bind {R : σ → Prop} {s : σ} (h : CanReach step R s)
    (hR : ∀ t, R t → CanReach step Q t) : CanReach step Q s := by
  obtain ⟨as, t, ht, hr⟩ := h
  exact CanReach.of_after ht (hR t hr)

theorem CanReach.mono {R : σ → Prop} {s : σ} (h : CanReach step R s) (hR : ∀ t, R t → Q t) :
    CanReach step Q s :=
  h.bind fun t ht => CanReach.now (hR t ht)

/-- The variant rule: a run that can always go on to something smaller can go on
to its end. -/
theorem canReach_of_variant (μ : σ → ℕ)
    (h : ∀ s, Inv s → CanReach step (fun t => Q t ∨ Inv t ∧ μ t < μ s) s) {s : σ} (hs : Inv s) :
    CanReach step Q s := by
  induction hμ : μ s using Nat.strongRecOn generalizing s with
  | ind n ih =>
    refine (h s hs).bind fun t ht => ?_
    rcases ht with hq | ⟨hinv, hlt⟩
    · exact CanReach.now hq
    · exact ih (μ t) (hμ ▸ hlt) hinv rfl

/-- A run whose steps all lower a measure is no longer than the measure. -/
theorem length_le_of_variant {R : α → Prop} (μ : σ → ℕ)
    (h : ∀ s a t, Inv s → R a → step s a = some t → Inv t ∧ μ t < μ s) {s t : σ} {as : List α}
    (hs : Inv s) (ha : ∀ a ∈ as, R a) (ht : after step s as = some t) :
    Inv t ∧ as.length+μ t ≤ μ s := by
  induction as generalizing s with
  | nil =>
    cases ht
    exact ⟨hs, Nat.le_of_eq (Nat.zero_add _)⟩
  | cons a as ih =>
    obtain ⟨u, hu, htu⟩ := Option.bind_eq_some_iff.mp ht
    obtain ⟨hinv, hlt⟩ := h s a u hs (ha a List.mem_cons_self) hu
    obtain ⟨hlast, hle⟩ := ih hinv (fun b hb => ha b (List.mem_cons_of_mem a hb)) htu
    refine ⟨hlast, ?_⟩
    rw [List.length_cons]
    omega

/-- A run of another system that each of its steps follows. -/
theorem CanReach.simulated {τ β : Type*} {step' : τ → β → Option τ} {R : σ → τ → Prop}
    {Q' : τ → Prop}
    (hstep : ∀ s w b w', R s w → step' w b = some w' → ∃ a t, step s a = some t ∧ R t w')
    {s : σ} {w : τ} (h : CanReach step' Q' w) (hs : R s w) :
    CanReach step (fun t => ∃ w', R t w' ∧ Q' w') s := by
  obtain ⟨bs, w', hw', hq⟩ := h
  induction bs generalizing s w with
  | nil =>
    cases hw'
    exact CanReach.now ⟨w', hs, hq⟩
  | cons b bs ih =>
    obtain ⟨v, hv, hvw⟩ := Option.bind_eq_some_iff.mp hw'
    obtain ⟨a, t, ht, hr⟩ := hstep s w b v hs hv
    exact CanReach.of_step ht (ih hr hvw)

/-- Steps whose actions meet `P` in every state. -/
theorem everyStep_of_forall {s : σ} {as : List α} (h : ∀ a ∈ as, ∀ t, P t a) :
    EveryStep step P s as := by
  induction as generalizing s with
  | nil => trivial
  | cons a as ih =>
    cases hst : step s a with
    | none => simp only [EveryStep, hst]
    | some t =>
      have hrest := ih (s := t) fun b hb => h b (List.mem_cons_of_mem a hb)
      exact (everyStep_cons hst).mpr ⟨h a List.mem_cons_self s, hrest⟩

theorem everyStep_true (s : σ) (as : List α) : EveryStep step (fun _ _ => True) s as := by
  induction as generalizing s with
  | nil => trivial
  | cons a as ih =>
    cases hst : step s a with
    | none => simp only [EveryStep, hst]
    | some t => exact (everyStep_cons hst).mpr ⟨trivial, ih t⟩

/-- The exact run rule on all runs. -/
theorem everyState_iff_everyStep
    (hexact : ∀ s a t, Inv s → step s a = some t → (P s a → Inv t) ∧ (Q t → P s a))
    (hQ : ∀ s, Inv s → Q s) {s : σ} (hs : Inv s) (as : List α) :
    EveryState step Q s as ↔ EveryStep step P s as :=
  everyState_iff_everyStep_of (fun s a t hs _ hst => hexact s a t hs hst) hQ hs
    (everyStep_true s as)

/-- Every step of a system is one of another system, or changes nothing that the
other one has. -/
theorem everyState_simulated {τ β : Type*} {step' : τ → β → Option τ} {R : σ → τ → Prop}
    (hstep : ∀ s a t w, R s w → step s a = some t →
      R t w ∨ ∃ b w', step' w b = some w' ∧ R t w') {s : σ} {w : τ} (h : R s w) (as : List α) :
    EveryState step (fun t => ∃ bs w', after step' w bs = some w' ∧ R t w') s as := by
  refine everyState_of_everyStep (P := fun _ _ => True) (fun t a u ht _ hst => ?_)
    ⟨[], w, rfl, h⟩ (everyStep_true s as)
  obtain ⟨bs, v, hv, htv⟩ := ht
  rcases hstep t a u v htv hst with huv | ⟨b, v', hv', huv⟩
  · exact ⟨bs, v, hv, huv⟩
  · refine ⟨bs ++ [b], v', ?_, huv⟩
    rw [after_append, hv]
    exact Option.bind_eq_some_iff.mpr ⟨v, rfl, Option.bind_eq_some_iff.mpr ⟨v', hv', rfl⟩⟩

end StepSystem
