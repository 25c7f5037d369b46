import Rusbmux.RouterLock

/-! A call of `UsbDevice::connect` among tasks that change the same tables:
src/device/usb.rs, and the exits of `UsbDeviceConn::new`. -/
namespace Rusbmux

namespace ConnectCall

/-- Where `UsbDeviceConn::new` waits. -/
inductive Await where
  | sendSyn
  | recv
  | sendAck
  deriving DecidableEq, Repr

inductive Phase where
  | calling
  /-- In the handshake, with the port and the queue of the call. -/
  | handshake (port : UInt16) (q : ℕ) (await : Await)
  | returned (result : Except RusbmuxError ℕ)

/-- What other tasks do to the tables. -/
inductive Change where
  /-- A further `connect`, or `connect_from`. -/
  | register (port : UInt16) (q : ℕ)
  | unregister (port : UInt16)
  | clearRouter
  /-- `cleanup_dead` keeps the queues that still have a receiver. -/
  | cleanupDead (alive : ℕ → Bool)
  | insertConn (port : UInt16) (q : ℕ)
  | removeConn (port : UInt16)
  | clearConns

inductive Action where
  /-- `get_next_source_port` and `register`; `q` names the new queue. -/
  | call (q : ℕ)
  | synSent (result : Except String Unit)
  /-- `rx.recv()` returns a packet. -/
  | reply (packet : UsbDevicePacket)
  /-- `rx.recv()` finds no sender any more. -/
  | queueClosed
  | ackSent (result : Except String Unit)
  | other (change : Change)

/-- `PacketRouter.conns` and `UsbDevice.conns`. -/
structure Tables where
  router : PacketRouter
  conns : KeyTable UInt16 ℕ

def Change.apply (t : Tables) : Change → Tables
  | .register port q => { t with router := PacketRouter.register t.router port q }
  | .unregister port => { t with router := PacketRouter.unregister t.router port }
  | .clearRouter => { t with router := .empty }
  | .cleanupDead alive => { t with router := t.router.retain fun _ q => alive q }
  | .insertConn port q => { t with conns := t.conns.insert port q }
  | .removeConn port => { t with conns := t.conns.remove port }
  | .clearConns => { t with conns := .empty }

/-- The queue and its receiver are the call's own. -/
def Change.spares (q : ℕ) : Change → Bool
  | .register _ j => j ≠ q
  | .cleanupDead alive => alive q
  | _ => true

/-- The entry of the port is written or removed. -/
def Change.touches (port : UInt16) : Change → Bool
  | .register p _ | .unregister p => port = p
  | .clearRouter => true
  | _ => false

end ConnectCall

open ConnectCall in
/-- `without` and `touched` are no part of the program: the tables as they would
be if the call had not been made, and whether another task has written or removed
the entry of the port since it was registered. -/
structure ConnectCall where
  nextSourcePort : UInt16
  destinationPort : UInt16
  tables : Tables
  phase : Phase
  without : Tables
  touched : Bool

namespace ConnectCall

/-- A failing await ends the call; what it holds is dropped. -/
def fail (s : ConnectCall) (e : RusbmuxError) : ConnectCall :=
  { s with phase := .returned (.error e) }

def step (s : ConnectCall) : Action → Option ConnectCall
  | .call q => match s.phase with
    | .calling =>
      if s.tables.router.any (fun _ j => j = q) then none
      else
        let sourcePort := s.nextSourcePort
        let s := { s with nextSourcePort := s.nextSourcePort+1 }
        if sourcePort = 0 then some (s.fail .ranOutofSourcePort)
        else some { s with
          tables := { s.tables with
            router := PacketRouter.register s.tables.router sourcePort q }
          phase := .handshake sourcePort q .sendSyn }
    | _ => none
  | .synSent result => match s.phase, result with
    | .handshake port q .sendSyn, .ok () => some { s with phase := .handshake port q .recv }
    | .handshake _ _ .sendSyn, .error e => some (s.fail (.channel e))
    | _, _ => none
  | .reply packet => match s.phase with
    | .handshake port q .recv => match UsbDeviceConn.new port s.destinationPort packet with
      | .ok _ => some { s with phase := .handshake port q .sendAck }
      | .error e => some (s.fail e)
    | _ => none
  | .queueClosed => match s.phase with
    | .handshake port q .recv =>
      if s.tables.router.get port = some q then none
      else some (s.fail (.channel "disconnected"))
    | _ => none
  | .ackSent result => match s.phase, result with
    | .handshake port q .sendAck, .ok () => some { s with
        tables := { s.tables with conns := s.tables.conns.insert port q }
        phase := .returned (.ok q) }
    | .handshake _ _ .sendAck, .error e => some (s.fail (.channel e))
    | _, _ => none
  | .other change => match s.phase with
    | .calling => some { s with
        tables := change.apply s.tables
        without := change.apply s.without }
    | .handshake port q _ =>
      if change.spares q then some { s with
        tables := change.apply s.tables
        without := change.apply s.without
        touched := s.touched || change.touches port }
      else none
    | .returned _ => none

/-- A call that is about to be made. -/
def start (nextSourcePort destinationPort : UInt16) (tables : Tables) : ConnectCall where
  nextSourcePort := nextSourcePort
  destinationPort := destinationPort
  tables := tables
  phase := .calling
  without := tables
  touched := false

/-- The two tables have the same entries. -/
structure Same (t u : Tables) : Prop where
  router : ∀ port, t.router.get port = u.router.get port
  conns : ∀ port, t.conns.get port = u.conns.get port

/-- Where the call returns an error, it has left nothing behind. -/
def Atomic (s : ConnectCall) (a : Action) : Prop :=
  ∀ t e, s.step a = some t → t.phase = .returned (.error e) → Same t.tables t.without

/-- Where the call returns an error, it had no source port, or another task has
written or removed its entry. -/
def Undone (s : ConnectCall) (a : Action) : Prop :=
  ∀ t e, s.step a = some t → t.phase = .returned (.error e) →
    s.phase = .calling ∨ s.touched = true

/-- What the call has done so far. -/
structure Registered (s : ConnectCall) (port : UInt16) (q : ℕ) : Prop where
  conns : s.tables.conns = s.without.conns
  others : ∀ p, p ≠ port → s.tables.router.get p = s.without.router.get p
  fresh : ∀ p, s.without.router.get p ≠ some q
  untouched : s.touched = false → s.tables.router.get port = some q
  touched : s.touched = true → s.tables.router.get port = s.without.router.get port

def Inv (s : ConnectCall) : Prop :=
  match s.phase with
  | .calling => s.tables = s.without ∧ s.touched = false
  | .handshake port q _ => s.Registered port q
  | .returned _ => True

/-- A change of the router, at one port. -/
def Change.entry (port : UInt16) : Change → Option ℕ → Option ℕ
  | .register p q, old => if port = p then some q else old
  | .unregister p, old => if port = p then none else old
  | .clearRouter, _ => none
  | .cleanupDead alive, old => old.filter alive
  | _, old => old

theorem Change.get_apply (c : Change) (t : Tables) (port : UInt16) :
    (c.apply t).router.get port = c.entry port (t.router.get port) := by
  cases c with
  | register p q => exact KeyTable.get_insert _ _ _ _
  | unregister p => exact KeyTable.get_remove _ _ _
  | cleanupDead alive => exact KeyTable.get_retain _ _ _
  | clearRouter => rfl
  | insertConn p q => rfl
  | removeConn p => rfl
  | clearConns => rfl

theorem Change.entry_touched {c : Change} {port : UInt16} (h : c.touches port = true)
    (x y : Option ℕ) : c.entry port x = c.entry port y := by
  cases c with
  | register p q =>
    have hp : port = p := of_decide_eq_true h
    simp only [entry, if_pos hp]
  | unregister p =>
    have hp : port = p := of_decide_eq_true h
    simp only [entry, if_pos hp]
  | clearRouter => rfl
  | cleanupDead alive => cases h
  | insertConn p q => cases h
  | removeConn p => cases h
  | clearConns => cases h

theorem Change.entry_own {c : Change} {port : UInt16} {q : ℕ} (h : c.touches port = false)
    (hq : c.spares q = true) : c.entry port (some q) = some q := by
  cases c with
  | register p j => exact if_neg (of_decide_eq_false h)
  | unregister p => exact if_neg (of_decide_eq_false h)
  | cleanupDead alive =>
    have hf : (some q).filter alive = some q := Option.filter_eq_some_iff.mpr ⟨rfl, hq⟩
    exact hf
  | clearRouter => cases h
  | insertConn p q => rfl
  | removeConn p => rfl
  | clearConns => rfl

theorem Change.entry_fresh {c : Change} {port : UInt16} {q : ℕ} {old : Option ℕ}
    (hq : c.spares q = true) (h : old ≠ some q) : c.entry port old ≠ some q := by
  cases c with
  | register p j =>
    have hj : j ≠ q := of_decide_eq_true hq
    simp only [entry]
    split_ifs
    · exact fun he => hj (Option.some.inj he)
    · exact h
  | unregister p =>
    simp only [entry]
    split_ifs
    · exact fun he => by cases he
    · exact h
  | clearRouter => exact fun he => by cases he
  | cleanupDead alive => exact fun he => h (Option.filter_eq_some_iff.mp he).1
  | insertConn p q => exact h
  | removeConn p => exact h
  | clearConns => exact h

theorem Change.conns_apply (c : Change) {t u : Tables} (h : t.conns = u.conns) :
    (c.apply t).conns = (c.apply u).conns := by
  cases c <;> simp only [apply, h]

variable {s t : ConnectCall} {port : UInt16} {q : ℕ}

/-- Other tasks do the same to both pairs of tables. -/
theorem Registered.change (h : s.Registered port q) {c : Change} (hq : c.spares q = true) :
    Registered { s with
      tables := c.apply s.tables
      without := c.apply s.without
      touched := s.touched || c.touches port } port q where
  conns := c.conns_apply h.conns
  others := fun p hp => by rw [c.get_apply, c.get_apply, h.others p hp]
  fresh := fun p => by
    rw [c.get_apply]
    exact c.entry_fresh hq (h.fresh p)
  untouched := fun hu => by
    obtain ⟨hs, hc⟩ := Bool.or_eq_false_iff.mp hu
    rw [c.get_apply, h.untouched hs]
    exact c.entry_own hc hq
  touched := fun hu => by
    rw [c.get_apply, c.get_apply]
    obtain hs | hc := Bool.or_eq_true_iff.mp hu
    · rw [h.touched hs]
    · exact c.entry_touched hc _ _

/-- The call has left nothing exactly if another task has dealt with its entry. -/
theorem Registered.same_iff (h : s.Registered port q) :
    Same s.tables s.without ↔ s.touched = true := by
  constructor
  · intro hs
    cases ht : s.touched with
    | true => rfl
    | false =>
      -- the entry is still the call's own, and without the call there is none
      have hr := hs.router port
      rw [h.untouched ht] at hr
      exact absurd hr.symm (h.fresh port)
  · intro ht
    refine ⟨?_, fun p => by rw [h.conns]⟩
    intro p
    by_cases hp : p = port
    · rw [hp]
      exact h.touched ht
    · exact h.others p hp

/-- What one step keeps, and what it leaves where it ends the call. -/
structure StepSpec (s t : ConnectCall) : Prop where
  inv : t.Inv
  error : ∀ e, t.phase = .returned (.error e) →
    (Same t.tables t.without ↔ s.phase = .calling ∨ s.touched = true)

/-- A step within the call, or its end without an error. -/
theorem stepSpec_of_inv (h : t.Inv) (hp : ∀ e, t.phase ≠ .returned (.error e)) : StepSpec s t :=
  ⟨h, fun e he => absurd he (hp e)⟩

/-- A failing await. -/
theorem stepSpec_fail (h : s.Registered port q) (hp : s.phase ≠ .calling) (e : RusbmuxError) :
    StepSpec s (s.fail e) := by
  refine ⟨trivial, fun _ _ => ?_⟩
  rw [or_iff_right hp]
  exact h.same_iff

/-- `register` puts a new queue under the port. -/
theorem registered_call (htab : s.tables = s.without) (htouched : s.touched = false)
    (hq : ∀ p, s.tables.router.get p ≠ some q) (port : UInt16) :
    Registered { s with
      nextSourcePort := s.nextSourcePort+1
      tables := { s.tables with router := PacketRouter.register s.tables.router port q }
      phase := .handshake port q .sendSyn } port q where
  conns := by rw [htab]
  others := fun p hp => by rw [PacketRouter.register, KeyTable.get_insert_of_ne _ _ hp, htab]
  fresh := fun p => by rw [← htab]; exact hq p
  untouched := fun _ => KeyTable.get_insert_self _ _ _
  touched := fun ht => by rw [htouched] at ht; cases ht

theorem step_call (h : s.Inv) (ht : s.step (.call q) = some t) : StepSpec s t := by
  simp only [step] at ht
  split at ht
  case h_1 hp =>
    obtain ⟨htab, htouched⟩ : s.tables = s.without ∧ s.touched = false := by
      simpa only [Inv, hp] using h
    split_ifs at ht with hq h0
    · cases ht
      refine ⟨trivial, fun _ _ => ⟨fun _ => Or.inl hp, fun _ => ?_⟩⟩
      change Same s.tables s.without
      rw [htab]
      exact ⟨fun _ => rfl, fun _ => rfl⟩
    · cases ht
      refine stepSpec_of_inv ?_ fun e he => by cases he
      apply registered_call htab htouched
      intro p he
      exact hq ((KeyTable.any_eq_true_iff _ _).mpr ⟨p, q, he, decide_eq_true rfl⟩)
  case h_2 => cases ht

/-- The handshake goes on, or ends without an error. -/
theorem Registered.goOn (h : s.Registered port q) (await : Await) :
    StepSpec s { s with phase := .handshake port q await } :=
  stepSpec_of_inv (show Registered _ port q from
    ⟨h.conns, h.others, h.fresh, h.untouched, h.touched⟩) fun e he => by cases he

theorem step_other (h : s.Inv) {change : Change} (ht : s.step (.other change) = some t) :
    StepSpec s t := by
  simp only [step] at ht
  split at ht
  case h_1 hp =>
    obtain ⟨htab, htouched⟩ : s.tables = s.without ∧ s.touched = false := by
      simpa only [Inv, hp] using h
    cases ht
    refine stepSpec_of_inv ?_ fun e he => by cases hp.symm.trans he
    simp only [Inv, hp, htab, htouched, and_self]
  case h_2 port q await hp =>
    have hr : s.Registered port q := by simpa only [Inv, hp] using h
    split_ifs at ht with hq
    cases ht
    refine stepSpec_of_inv ?_ fun e he => by cases hp.symm.trans he
    have hc := hr.change hq
    simpa only [Inv, hp] using hc
  case h_3 => cases ht

theorem step_spec (h : s.Inv) {a : Action} (ht : s.step a = some t) : StepSpec s t := by
  -- in the handshake the port is registered
  have hreg : ∀ {port q await}, s.phase = .handshake port q await →
      s.Registered port q ∧ s.phase ≠ .calling := by
    intro port q await hp
    exact ⟨by simpa only [Inv, hp] using h, fun hc => by cases hp.symm.trans hc⟩
  cases a with
  | call q => exact step_call h ht
  | other change => exact step_other h ht
  | synSent result =>
    simp only [step] at ht
    split at ht
    case h_1 _ port q hp =>
      cases ht
      exact (hreg hp).1.goOn .recv
    case h_2 _ port q e hp =>
      cases ht
      exact stepSpec_fail (hreg hp).1 (hreg hp).2 _
    case h_3 => cases ht
  | reply packet =>
    simp only [step] at ht
    split at ht
    case h_1 port q hp =>
      split at ht
      · cases ht
        exact (hreg hp).1.goOn .sendAck
      · cases ht
        exact stepSpec_fail (hreg hp).1 (hreg hp).2 _
    case h_2 => cases ht
  | queueClosed =>
    simp only [step] at ht
    split at ht
    case h_1 port q hp =>
      split_ifs at ht
      cases ht
      exact stepSpec_fail (hreg hp).1 (hreg hp).2 _
    case h_2 => cases ht
  | ackSent result =>
    simp only [step] at ht
    split at ht
    case h_1 _ port q hp =>
      cases ht
      exact stepSpec_of_inv trivial fun e he => by cases he
    case h_2 _ port q e hp =>
      cases ht
      exact stepSpec_fail (hreg hp).1 (hreg hp).2 _
    case h_3 => cases ht

/-- For any tables before the call, any exit of the handshake and whatever other
tasks do meanwhile: a call that fails leaves the tables as if it had not been made
exactly when it had no source port, or another task has dealt with its entry. -/
theorem atomic_iff_undone (nextSourcePort destinationPort : UInt16) (tables : Tables)
    (as : List Action) :
    StepSystem.EveryStep step Atomic (start nextSourcePort destinationPort tables) as ↔
      StepSystem.EveryStep step Undone (start nextSourcePort destinationPort tables) as := by
  have hs : (start nextSourcePort destinationPort tables).Inv := ⟨rfl, rfl⟩
  constructor
  · apply StepSystem.everyStep_of_everyStep (fun s a t hi ha ht => ?_) hs
    have hspec := step_spec hi ht
    refine ⟨fun u e hu he => ?_, hspec.inv⟩
    rw [ht] at hu
    cases hu
    exact (hspec.error e he).mp (ha t e ht he)
  · apply StepSystem.everyStep_of_everyStep (fun s a t hi hu ht => ?_) hs
    have hspec := step_spec hi ht
    refine ⟨fun u e hst he => ?_, hspec.inv⟩
    rw [ht] at hst
    cases hst
    exact (hspec.error e he).mpr (hu t e ht he)

/-- The writer is gone, and the SYN cannot be enqueued. -/
theorem connect_leaves_entry :
    ¬ StepSystem.EveryStep step Atomic (start 1 62078 ⟨.empty, .empty⟩)
      [.call 0, .synSent (.error "disconnected")] := by
  intro h
  have h1 := ((StepSystem.everyStep_cons rfl).mp h).2
  have h2 := ((StepSystem.everyStep_cons rfl).mp h1).1 _ _ rfl rfl
  cases h2.router 1

end ConnectCall
end Rusbmux
