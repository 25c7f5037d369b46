import Rusbmux.StepSystem
import Rusbmux.KeyTable

/-! The lock of `CONNECTED_DEVICES`: handlers keep the read side of a shard
while they wait for a device or a client, and the watchers need the write side
for `insert`, `remove` and `retain`. -/
namespace Rusbmux

/-- Where a handler waits with a guard, and the device whose entry it has. -/
inductive HandlerPhase where
  /-- `connect`: for the device to answer the handshake. -/
  | connecting (id : ℕ)
  /-- `handle_listen`: for the client to read an attach event. -/
  | attaching (id : ℕ)
  /-- `send_currently_connected`: for the client to read the entry. -/
  | snapshot (id : ℕ)
  deriving DecidableEq, Repr

def HandlerPhase.id : HandlerPhase → ℕ
  | connecting id | attaching id | snapshot id => id

/-- A write that a watcher has asked for and not finished. `retain` takes the
shards one after the other. -/
inductive RegistryWrite (δ : Type*) where
  | insert (id : ℕ) (device : δ)
  | remove (id : ℕ)
  | retain (keep : ℕ → δ → Bool) (nextShard : ℕ)

structure RegistryLock (δ : Type*) where
  devices : KeyTable ℕ δ
  handlers : KeyTable ℕ HandlerPhase
  watchers : KeyTable ℕ (RegistryWrite δ)

namespace RegistryLock

variable {δ : Type*}
-- the shard that an id is hashed to, and the number of shards
variable (shard : ℕ → ℕ) (shardCount : ℕ)

/-- The shard whose write side is needed next. -/
def target : RegistryWrite δ → ℕ
  | .insert id _ | .remove id => shard id
  | .retain _ nextShard => nextShard

/-- The shard whose read side is held. -/
def guard (phase : HandlerPhase) : ℕ := shard phase.id

def guarded (s : RegistryLock δ) (k : ℕ) : Bool :=
  s.handlers.any fun _ phase => guard shard phase = k

def setHandler (s : RegistryLock δ) (h : ℕ) (phase : HandlerPhase) : RegistryLock δ :=
  { s with handlers := s.handlers.insert h phase }

def setWatcher (s : RegistryLock δ) (w : ℕ) (op : RegistryWrite δ) : RegistryLock δ :=
  { s with watchers := s.watchers.insert w op }

inductive Action (δ : Type*) where
  /-- `CONNECTED_DEVICES.get` in `connect` finds the device. -/
  | connect (h id : ℕ)
  | deviceReplies (h : ℕ)
  /-- The reader loop drops it. -/
  | deviceResets (h : ℕ)
  | sendAttached (h id : ℕ)
  /-- The iteration of a snapshot comes to an entry that it sends. -/
  | sendSnapshot (h id : ℕ)
  /-- The client reads what was sent, and a snapshot may go on. -/
  | clientReads (h : ℕ) (next : Option ℕ)
  | insert (w id : ℕ) (device : δ)
  | remove (w id : ℕ)
  | retain (w : ℕ) (keep : ℕ → δ → Bool)
  /-- The watcher gets the write side that it waits for. -/
  | write (w : ℕ)

/-- A handler that waits for nothing takes an entry and waits with its guard. -/
def startWait (s : RegistryLock δ) (h : ℕ) (phase : HandlerPhase) : Option (RegistryLock δ) :=
  if s.handlers.get h = none ∧ (s.devices.get phase.id).isSome then some (s.setHandler h phase)
  else none

def request (s : RegistryLock δ) (w : ℕ) (op : RegistryWrite δ) : Option (RegistryLock δ) :=
  if (s.watchers.get w).isSome then none else some (s.setWatcher w op)

def perform (s : RegistryLock δ) (w : ℕ) : RegistryWrite δ → RegistryLock δ
  | .insert id device =>
    { s with devices := s.devices.insert id device, watchers := s.watchers.remove w }
  | .remove id => { s with devices := s.devices.remove id, watchers := s.watchers.remove w }
  -- `retain` takes the shards one after the other
  | .retain keep k =>
    let devices := s.devices.retain fun id device => shard id ≠ k || keep id device
    if k+1 < shardCount then
      { s with devices := devices, watchers := s.watchers.insert w (.retain keep (k+1)) }
    else { s with devices := devices, watchers := s.watchers.remove w }

def step (s : RegistryLock δ) : Action δ → Option (RegistryLock δ)
  | .connect h id => s.startWait h (.connecting id)
  | .deviceReplies h => match s.handlers.get h with
    | some (.connecting _) => some { s with handlers := s.handlers.remove h }
    | _ => none
  | .deviceResets h => match s.handlers.get h with
    -- the handshake goes on waiting, with its guard
    | some (.connecting _) => some s
    | _ => none
  | .sendAttached h id => s.startWait h (.attaching id)
  | .sendSnapshot h id => s.startWait h (.snapshot id)
  | .clientReads h next => match s.handlers.get h, next with
    | some (.attaching _), none | some (.snapshot _), none =>
      some { s with handlers := s.handlers.remove h }
    | some (.snapshot _), some id =>
      if (s.devices.get id).isSome then some (s.setHandler h (.snapshot id)) else none
    | _, _ => none
  | .insert w id device => s.request w (.insert id device)
  | .remove w id => s.request w (.remove id)
  | .retain w keep => s.request w (.retain keep 0)
  | .write w => match s.watchers.get w with
    | some op => if s.guarded shard (target shard op) then none
      else some (s.perform shard shardCount w op)
    | none => none

def empty : RegistryLock δ := ⟨.empty, .empty, .empty⟩

/-- No watcher waits for a shard that a waiting handler has a guard of. -/
def Unblocked (s : RegistryLock δ) : Prop :=
  ∀ w op h phase, s.watchers.get w = some op → s.handlers.get h = some phase →
    target shard op ≠ guard shard phase

/-- No watcher waits for the shard. -/
def NoWriter (s : RegistryLock δ) (k : ℕ) : Prop :=
  ∀ w op, s.watchers.get w = some op → target shard op ≠ k

/-- No handler waits with a guard of the shard. -/
def NoGuard (s : RegistryLock δ) (k : ℕ) : Prop :=
  ∀ h phase, s.handlers.get h = some phase → k ≠ guard shard phase

/-- A handler starts to wait only where no watcher waits to write, and a
watcher comes to a shard only where no handler waits with a guard. -/
def KeepsShards (s : RegistryLock δ) : Action δ → Prop
  | .connect _ id | .sendAttached _ id | .sendSnapshot _ id | .clientReads _ (some id) =>
    s.NoWriter shard (shard id)
  | .insert _ id _ | .remove _ id => s.NoGuard shard (shard id)
  | .retain _ _ => s.NoGuard shard 0
  | .write w => ∀ keep k, s.watchers.get w = some (.retain keep k) → k+1 < shardCount →
    s.NoGuard shard (k+1)
  | .deviceReplies _ | .deviceResets _ | .clientReads _ none => True

/-- The watcher `w` waits for a guard of the handler `h`. -/
def BlockedOn (s : RegistryLock δ) (w h : ℕ) : Prop :=
  ∃ op phase, s.watchers.get w = some op ∧ s.handlers.get h = some phase ∧
    target shard op = guard shard phase

/-- The answer that the handler waits for. -/
def Answers (h : ℕ) : Action δ → Prop
  | .deviceReplies j | .clientReads j _ => j = h
  | _ => False

variable {s t : RegistryLock δ} {shard}

theorem unblocked_setHandler_iff {h : ℕ} {phase : HandlerPhase} (hu : s.Unblocked shard) :
    (s.setHandler h phase).Unblocked shard ↔ s.NoWriter shard (guard shard phase) := by
  constructor
  · intro ht w op hw
    exact ht w op h phase hw (KeyTable.get_insert_self _ _ _)
  · intro hn w op j d hw hj
    rw [setHandler, KeyTable.get_insert] at hj
    split_ifs at hj
    · cases hj
      exact hn w op hw
    · exact hu w op j d hw hj

theorem unblocked_setWatcher_iff {w : ℕ} (op : RegistryWrite δ) (hu : s.Unblocked shard) :
    (s.setWatcher w op).Unblocked shard ↔ s.NoGuard shard (target shard op) := by
  constructor
  · intro ht h phase hh
    exact ht w op h phase (KeyTable.get_insert_self _ _ _) hh
  · intro hn v p h phase hv hh
    rw [setWatcher, KeyTable.get_insert] at hv
    split_ifs at hv
    · cases hv
      exact hn h phase hh
    · exact hu v p h phase hv hh

theorem Unblocked.removeHandler (hu : s.Unblocked shard) (h : ℕ) :
    Unblocked shard { s with handlers := s.handlers.remove h } := by
  intro w op j d hw hj
  rw [KeyTable.get_remove] at hj
  split_ifs at hj
  exact hu w op j d hw hj

theorem Unblocked.removeWatcher (hu : s.Unblocked shard) (w : ℕ) (devices : KeyTable ℕ δ) :
    Unblocked shard { s with devices := devices, watchers := s.watchers.remove w } := by
  intro v op h phase hv hh
  rw [KeyTable.get_remove] at hv
  split_ifs at hv
  exact hu v op h phase hv hh

theorem startWait_iff {h : ℕ} {phase : HandlerPhase} (hu : s.Unblocked shard)
    (hst : s.startWait h phase = some t) :
    t.Unblocked shard ↔ s.NoWriter shard (guard shard phase) := by
  simp only [startWait, Option.ite_none_right_eq_some, Option.some.injEq] at hst
  obtain ⟨-, rfl⟩ := hst
  exact unblocked_setHandler_iff hu

theorem request_iff {w : ℕ} {op : RegistryWrite δ} (hu : s.Unblocked shard)
    (hst : s.request w op = some t) :
    t.Unblocked shard ↔ s.NoGuard shard (target shard op) := by
  simp only [request, Option.ite_none_left_eq_some, Option.some.injEq] at hst
  obtain ⟨-, rfl⟩ := hst
  exact unblocked_setWatcher_iff op hu

theorem perform_iff {w : ℕ} {op : RegistryWrite δ} (hu : s.Unblocked shard)
    (hw : s.watchers.get w = some op) :
    (s.perform shard shardCount w op).Unblocked shard ↔
      ∀ keep k, s.watchers.get w = some (.retain keep k) → k+1 < shardCount →
        s.NoGuard shard (k+1) := by
  cases op with
  | insert id device | remove id =>
    refine iff_of_true (hu.removeWatcher w _) ?_
    intro keep k hk
    cases hw.symm.trans hk
  | retain keep k =>
    simp only [perform]
    split_ifs with hlt
    · -- the write goes on with the next shard
      have hset : Unblocked shard { s.setWatcher w (.retain keep (k+1)) with
          devices := s.devices.retain fun id device => shard id ≠ k || keep id device } ↔
          s.NoGuard shard (k+1) :=
        unblocked_setWatcher_iff (.retain keep (k+1)) hu
      refine hset.trans ⟨?_, fun hn => hn keep k hw hlt⟩
      intro hn keep' k' hk' _
      cases hw.symm.trans hk'
      exact hn
    · refine iff_of_true (hu.removeWatcher w _) ?_
      intro keep' k' hk' hlt'
      cases hw.symm.trans hk'
      exact absurd hlt' hlt

/-- One step from an unblocked state stays unblocked exactly if it keeps to the
rule. -/
theorem unblocked_step_iff {action : Action δ} (hu : s.Unblocked shard)
    (hst : s.step shard shardCount action = some t) :
    t.Unblocked shard ↔ s.KeepsShards shard shardCount action := by
  cases action with
  | connect h id | sendAttached h id | sendSnapshot h id => exact startWait_iff hu hst
  | insert w id device | remove w id | retain w keep => exact request_iff hu hst
  | deviceReplies h =>
    simp only [step] at hst
    split at hst <;> cases hst
    exact iff_of_true (hu.removeHandler h) trivial
  | deviceResets h =>
    simp only [step] at hst
    split at hst <;> cases hst
    exact iff_of_true hu trivial
  | clientReads h next =>
    simp only [step] at hst
    split at hst
    · cases hst
      exact iff_of_true (hu.removeHandler h) trivial
    · cases hst
      exact iff_of_true (hu.removeHandler h) trivial
    · split at hst <;> cases hst
      exact unblocked_setHandler_iff hu
    · cases hst
  | write w =>
    simp only [step] at hst
    split at hst
    · rename_i op hw
      split at hst <;> cases hst
      exact perform_iff shardCount hu hw
    · cases hst

/-- Over every run, no watcher is blocked on a handler that waits for an outside
party exactly as long as handlers and watchers keep to the rule. -/
theorem unblocked_iff_keepsShards (as : List (Action δ)) :
    StepSystem.EveryState (step shard shardCount) (Unblocked shard) (empty : RegistryLock δ) as ↔
      StepSystem.EveryStep (step shard shardCount) (KeepsShards shard shardCount) empty as := by
  have hstart : Unblocked shard (empty : RegistryLock δ) := by
    intro w op h phase hw
    cases hw
  exact StepSystem.everyState_iff_everyStep
    (fun _ _ _ hu hst => ⟨(unblocked_step_iff shardCount hu hst).mpr,
      (unblocked_step_iff shardCount hu hst).mp⟩)
    (fun _ hu => hu) hstart as

/-- A device that never answers: its removal waits for the handler that waits
for its answer. -/
theorem removal_blocked_by_connect :
    ¬ ∀ (shard : ℕ → ℕ) (shardCount : ℕ) (as : List (Action Unit)),
      StepSystem.EveryState (step shard shardCount) (Unblocked shard) empty as := by
  intro h
  have hrun := h (fun _ => 0) 1 [.insert 0 7 (), .write 0, .connect 0 7, .remove 0 7]
  exact hrun.last rfl 0 (.remove 7) 0 (.connecting 7) rfl rfl rfl

theorem guarded_of_blockedOn {w h : ℕ} {op : RegistryWrite δ} (hb : s.BlockedOn shard w h)
    (hw : s.watchers.get w = some op) : s.guarded shard (target shard op) = true := by
  obtain ⟨op', phase, hw', hh, ht⟩ := hb
  cases hw.symm.trans hw'
  exact (KeyTable.any_eq_true_iff _ _).mpr ⟨h, phase, hh, decide_eq_true ht.symm⟩

theorem BlockedOn.congr {w h : ℕ} (hb : s.BlockedOn shard w h)
    (hw : t.watchers.get w = s.watchers.get w) (hh : t.handlers.get h = s.handlers.get h) :
    t.BlockedOn shard w h := by
  obtain ⟨op, phase, hop, hphase, ht⟩ := hb
  exact ⟨op, phase, hw.trans hop, hh.trans hphase, ht⟩

theorem BlockedOn.startWait {w h j : ℕ} {phase : HandlerPhase} (hb : s.BlockedOn shard w h)
    (hst : s.startWait j phase = some t) : t.BlockedOn shard w h := by
  simp only [RegistryLock.startWait, Option.ite_none_right_eq_some, Option.some.injEq] at hst
  obtain ⟨⟨hnone, -⟩, rfl⟩ := hst
  -- a handler that waits does not start to wait again
  have hhj : h ≠ j := by
    rintro rfl
    obtain ⟨_, _, -, hh, -⟩ := hb
    cases hnone.symm.trans hh
  exact hb.congr rfl (KeyTable.get_insert_of_ne _ _ hhj)

theorem BlockedOn.request {w h v : ℕ} {op : RegistryWrite δ} (hb : s.BlockedOn shard w h)
    (hst : s.request v op = some t) : t.BlockedOn shard w h := by
  simp only [RegistryLock.request, Option.ite_none_left_eq_some, Option.some.injEq] at hst
  obtain ⟨hnone, rfl⟩ := hst
  have hwv : w ≠ v := by
    rintro rfl
    obtain ⟨_, _, hw, -⟩ := hb
    exact hnone (by rw [hw, Option.isSome_some])
  exact hb.congr (KeyTable.get_insert_of_ne _ _ hwv) rfl

theorem BlockedOn.perform {w h v : ℕ} (hb : s.BlockedOn shard w h) (hwv : w ≠ v)
    (op : RegistryWrite δ) : (s.perform shard shardCount v op).BlockedOn shard w h := by
  cases op with
  | insert id device | remove id => exact hb.congr (KeyTable.get_remove_of_ne _ hwv) rfl
  | retain keep k =>
    simp only [RegistryLock.perform]
    split_ifs
    · exact hb.congr (KeyTable.get_insert_of_ne _ _ hwv) rfl
    · exact hb.congr (KeyTable.get_remove_of_ne _ hwv) rfl

/-- Until the outside party answers the handler, the watcher stays blocked,
whatever the others do. -/
theorem blockedOn_until_answer {w h : ℕ} {action : Action δ} (hb : s.BlockedOn shard w h)
    (ha : ¬ Answers h action) (hst : s.step shard shardCount action = some t) :
    t.BlockedOn shard w h := by
  cases action with
  | connect j id | sendAttached j id | sendSnapshot j id => exact hb.startWait hst
  | insert v id device | remove v id | retain v keep => exact hb.request hst
  | deviceReplies j =>
    have hhj : h ≠ j := fun e => ha e.symm
    simp only [step] at hst
    split at hst <;> cases hst
    exact hb.congr rfl (KeyTable.get_remove_of_ne _ hhj)
  | deviceResets j =>
    simp only [step] at hst
    split at hst <;> cases hst
    exact hb
  | clientReads j next =>
    have hhj : h ≠ j := fun e => ha e.symm
    simp only [step] at hst
    split at hst
    · cases hst
      exact hb.congr rfl (KeyTable.get_remove_of_ne _ hhj)
    · cases hst
      exact hb.congr rfl (KeyTable.get_remove_of_ne _ hhj)
    · split at hst <;> cases hst
      exact hb.congr rfl (KeyTable.get_insert_of_ne _ _ hhj)
    · cases hst
  | write v =>
    simp only [step] at hst
    split at hst
    · rename_i op hv
      split at hst <;> cases hst
      rename_i hfree
      -- the watcher that gets its lock is not the blocked one
      have hwv : w ≠ v := by
        rintro rfl
        exact hfree (guarded_of_blockedOn hb hv)
      exact hb.perform shardCount hwv op
    · cases hst

/-- A handler that is never answered blocks the watcher for the whole run. -/
theorem blockedOn_run {w h : ℕ} (hb : s.BlockedOn shard w h) {as : List (Action δ)}
    (ha : StepSystem.EveryStep (step shard shardCount) (fun _ a => ¬ Answers h a) s as) :
    StepSystem.EveryState (step shard shardCount) (fun t => t.BlockedOn shard w h) s as :=
  StepSystem.everyState_of_everyStep
    (fun _ _ _ hb ha hst => blockedOn_until_answer shardCount hb ha hst) hb ha

end RegistryLock

end Rusbmux
