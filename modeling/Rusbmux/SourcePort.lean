import Rusbmux.StepSystem
import Rusbmux.KeyTable
import Rusbmux.Errors

/-! The source ports of a device: src/device/usb.rs and the table of
src/device/packet_router.rs. A queue is named by the number of queues made
before it, and so is the connection that receives from it. -/
namespace Rusbmux

inductive ConnPhase where
  /-- In `UsbDeviceConn::new`. -/
  | handshake
  | established
  /-- `close` or `close_blocking` has set the `dropped` flag. -/
  | dropped
  deriving DecidableEq, Repr

/-- A connection that is not freed yet. `closes` counts the calls of `close`
that wait for their RST to be sent. -/
structure ConnHandle where
  sourcePort : UInt16
  phase : ConnPhase
  closes : ℕ
  deriving DecidableEq, Repr

def ConnHandle.Live (h : ConnHandle) : Prop := h.phase ≠ .dropped

/-- `PacketRouter`: the queue of each port. -/
abbrev PacketRouter := KeyTable UInt16 ℕ

namespace PacketRouter

def register (r : PacketRouter) (port : UInt16) (queue : ℕ) : PacketRouter := r.insert port queue

def unregister (r : PacketRouter) (port : UInt16) : PacketRouter := r.remove port

end PacketRouter

structure UsbDevice where
  nextSourcePort : UInt16
  router : PacketRouter
  conns : KeyTable UInt16 ℕ
  handles : KeyTable ℕ ConnHandle
  nextQueue : ℕ

namespace UsbDevice

def new : UsbDevice where
  nextSourcePort := 1
  router := .empty
  conns := .empty
  handles := .empty
  nextQueue := 0

/-- The counter advances, whatever it was. -/
def getNextSourcePort (s : UsbDevice) : Except RusbmuxError UInt16 × UsbDevice :=
  let sp := s.nextSourcePort
  (if sp = 0 then .error .ranOutofSourcePort else .ok sp, { s with nextSourcePort := sp+1 })

/-- A new queue under the port, and the connection that receives from it. -/
def register (s : UsbDevice) (port : UInt16) (phase : ConnPhase) : UsbDevice :=
  { s with
    router := PacketRouter.register s.router port s.nextQueue
    handles := s.handles.insert s.nextQueue ⟨port, phase, 0⟩
    nextQueue := s.nextQueue+1 }

def setHandle (s : UsbDevice) (q : ℕ) (h : ConnHandle) : UsbDevice :=
  { s with handles := s.handles.insert q h }

def free (s : UsbDevice) (q : ℕ) : UsbDevice := { s with handles := s.handles.remove q }

/-- `unregister`, which is skipped when the RST could not be sent. -/
def unregisterIf (s : UsbDevice) (rstSent : Bool) (port : UInt16) : UsbDevice :=
  if rstSent then { s with router := PacketRouter.unregister s.router port } else s

inductive Action where
  | connect
  | connectDone (q : ℕ)
  | connectFails (q : ℕ)
  | connectFrom (port : UInt16)
  /-- `close`, up to the sending of the RST. -/
  | close (q : ℕ)
  | closeDone (q : ℕ) (rstSent : Bool)
  /-- The last reference to the connection goes. -/
  | drop (q : ℕ) (rstSent : Bool)
  deriving DecidableEq, Repr

def step (s : UsbDevice) : Action → Option UsbDevice
  | .connect => match s.getNextSourcePort with
    | (.ok sourcePort, s) => some (s.register sourcePort .handshake)
    -- the call fails, and the counter has advanced to 1
    | (.error _, s) => some s
  | .connectDone q => match s.handles.get q with
    | some ⟨port, .handshake, closes⟩ =>
      some { s.setHandle q ⟨port, .established, closes⟩ with conns := s.conns.insert port q }
    | _ => none
  -- the receiver goes with the future, and the router keeps its entry
  | .connectFails q => match s.handles.get q with
    | some ⟨_, .handshake, _⟩ => some (s.free q)
    | _ => none
  -- the port comes from the caller; `next_source_port` is not touched
  | .connectFrom port =>
    some { s.register port .established with conns := s.conns.insert port s.nextQueue }
  | .close q => match s.handles.get q with
    | some ⟨_, .handshake, _⟩ | none => none
    | some h => some (s.setHandle q { h with phase := .dropped, closes := h.closes+1 })
  | .closeDone q rstSent => match s.handles.get q with
    | some h =>
      if 0 < h.closes then
        some ((s.setHandle q { h with closes := h.closes-1 }).unregisterIf rstSent h.sourcePort)
      else none
    | none => none
  | .drop q rstSent => match s.handles.get q with
    | some ⟨port, .established, 0⟩ => some ((s.free q).unregisterIf rstSent port)
    -- `Drop` closes only a connection that is not dropped yet
    | some ⟨_, .dropped, 0⟩ => some (s.free q)
    | _ => none

/-- Some connection that is not closed has the port. -/
def InUse (s : UsbDevice) (port : UInt16) : Prop :=
  ∃ q h, s.handles.get q = some h ∧ h.Live ∧ h.sourcePort = port

/-- The connections that are not closed have ports and queues of their own. -/
structure PortsSeparate (s : UsbDevice) : Prop where
  unique : ∀ q q' h h', s.handles.get q = some h → s.handles.get q' = some h' → h.Live →
    h'.Live → h.sourcePort = h'.sourcePort → q = q'
  routed : ∀ q h, s.handles.get q = some h → h.Live → s.router.get h.sourcePort = some q

structure Inv (s : UsbDevice) : Prop where
  routed : ∀ q h, s.handles.get q = some h → h.Live → s.router.get h.sourcePort = some q
  fresh : ∀ q h, s.handles.get q = some h → q < s.nextQueue
  closing : ∀ q h, s.handles.get q = some h → 0 < h.closes → h.phase = .dropped

variable {s : UsbDevice}

theorem Inv.portsSeparate (h : s.Inv) : s.PortsSeparate := by
  refine ⟨?_, h.routed⟩
  intro q q' c c' hq hq' hl hl' hport
  have hr := h.routed q c hq hl
  rw [hport, h.routed q' c' hq' hl'] at hr
  exact (Option.some.inj hr).symm

theorem inv_new : new.Inv := by
  have hnone (q : ℕ) (c : ConnHandle) : new.handles.get q ≠ some c := nofun
  exact ⟨fun q c h => absurd h (hnone q c), fun q c h => absurd h (hnone q c),
    fun q c h => absurd h (hnone q c)⟩

theorem not_inUse_new {port : UInt16} : ¬ new.InUse port := by
  rintro ⟨q, c, hq, -⟩
  cases hq

/-- Fields that the invariant does not read. -/
theorem Inv.congr {t : UsbDevice} (h : s.Inv) (hr : t.router = s.router)
    (hh : t.handles = s.handles) (hn : t.nextQueue = s.nextQueue) : t.Inv :=
  ⟨by rw [hr, hh]; exact h.routed, by rw [hh, hn]; exact h.fresh, by rw [hh]; exact h.closing⟩

/-- `register` replaces no queue of a live connection when the port is free. -/
theorem Inv.register (h : s.Inv) {port : UInt16} (hport : ¬ s.InUse port) (phase : ConnPhase) :
    (s.register port phase).Inv := by
  constructor
  · intro q c hq hl
    -- the handle is an old one or the new one
    rcases Nat.decEq q s.nextQueue with hne | rfl
    · have hq' : s.handles.get q = some c := by
        rwa [UsbDevice.register, KeyTable.get_insert_of_ne _ _ hne] at hq
      have hp : c.sourcePort ≠ port := fun hp => hport ⟨q, c, hq', hl, hp⟩
      exact (KeyTable.get_insert_of_ne _ _ hp).trans (h.routed q c hq' hl)
    · rw [UsbDevice.register, KeyTable.get_insert_self] at hq
      cases hq
      exact KeyTable.get_insert_self _ _ _
  · intro q c hq
    rcases Nat.decEq q s.nextQueue with hne | rfl
    · rw [UsbDevice.register, KeyTable.get_insert_of_ne _ _ hne] at hq
      exact Nat.lt_succ_of_lt (h.fresh q c hq)
    · exact Nat.lt_succ_self _
  · intro q c hq hc
    rcases Nat.decEq q s.nextQueue with hne | rfl
    · rw [UsbDevice.register, KeyTable.get_insert_of_ne _ _ hne] at hq
      exact h.closing q c hq hc
    · rw [UsbDevice.register, KeyTable.get_insert_self] at hq
      cases hq
      cases hc

/-- A handle may change when it stays on its port and does not come back to life. -/
theorem Inv.setHandle (h : s.Inv) {q : ℕ} {c : ConnHandle} (c' : ConnHandle)
    (hq : s.handles.get q = some c) (hp : c'.sourcePort = c.sourcePort) (hl : c'.Live → c.Live)
    (hc : 0 < c'.closes → c'.phase = .dropped) : (s.setHandle q c').Inv := by
  constructor
  · intro j d hj hd
    by_cases hjq : j = q
    · subst hjq
      rw [UsbDevice.setHandle, KeyTable.get_insert_self] at hj
      cases hj
      rw [hp]
      exact h.routed j c hq (hl hd)
    · rw [UsbDevice.setHandle, KeyTable.get_insert_of_ne _ _ hjq] at hj
      exact h.routed j d hj hd
  · intro j d hj
    by_cases hjq : j = q
    · subst hjq
      exact h.fresh j c hq
    · rw [UsbDevice.setHandle, KeyTable.get_insert_of_ne _ _ hjq] at hj
      exact h.fresh j d hj
  · intro j d hj hd
    by_cases hjq : j = q
    · subst hjq
      rw [UsbDevice.setHandle, KeyTable.get_insert_self] at hj
      cases hj
      exact hc hd
    · rw [UsbDevice.setHandle, KeyTable.get_insert_of_ne _ _ hjq] at hj
      exact h.closing j d hj hd

theorem get_free_eq_some {q j : ℕ} {d : ConnHandle} (h : (s.free q).handles.get j = some d) :
    j ≠ q ∧ s.handles.get j = some d := by
  unfold free at h
  rw [KeyTable.get_remove] at h
  split_ifs at h with hjq
  exact ⟨hjq, h⟩

theorem Inv.free (h : s.Inv) (q : ℕ) : (s.free q).Inv :=
  ⟨fun j d hj hl => h.routed j d (get_free_eq_some hj).2 hl,
    fun j d hj => h.fresh j d (get_free_eq_some hj).2,
    fun j d hj hc => h.closing j d (get_free_eq_some hj).2 hc⟩

/-- `unregister` removes no queue of a live connection when the port is free. -/
theorem Inv.unregisterIf (h : s.Inv) {rstSent : Bool} {port : UInt16}
    (hport : rstSent = true → ¬ s.InUse port) : (s.unregisterIf rstSent port).Inv := by
  unfold UsbDevice.unregisterIf
  split
  · rename_i hrst
    refine ⟨?_, h.fresh, h.closing⟩
    intro q c hq hl
    have hp : c.sourcePort ≠ port := fun hp => hport hrst ⟨q, c, hq, hl, hp⟩
    exact (KeyTable.get_remove_of_ne _ hp).trans (h.routed q c hq hl)
  · exact h

/-- `connect_from` is called with a port that is not in use. -/
def FreePort (s : UsbDevice) : Action → Prop
  | .connectFrom port => ¬ s.InUse port
  | _ => True

/-- The counter does not come to the port of a connection that is not closed,
and `close` does not unregister a port that such a connection has. -/
def KeepsPorts (s : UsbDevice) : Action → Prop
  | .connect => s.nextSourcePort = 0 ∨ ¬ s.InUse s.nextSourcePort
  | .closeDone q true => ∀ h, s.handles.get q = some h → ¬ s.InUse h.sourcePort
  | _ => True

theorem inUse_setHandle_closes {q : ℕ} {c : ConnHandle} (hq : s.handles.get q = some c)
    (n : ℕ) {port : UInt16} (h : (s.setHandle q { c with closes := n }).InUse port) :
    s.InUse port := by
  obtain ⟨j, d, hj, hl, hp⟩ := h
  by_cases hjq : j = q
  · subst hjq
    rw [setHandle, KeyTable.get_insert_self] at hj
    cases hj
    exact ⟨j, c, hq, hl, hp⟩
  · rw [setHandle, KeyTable.get_insert_of_ne _ _ hjq] at hj
    exact ⟨j, d, hj, hl, hp⟩

/-- Every step that keeps to the rule keeps the table true of the live connections. -/
theorem inv_step {t : UsbDevice} {action : Action} (h : s.Inv) (hf : s.FreePort action)
    (hk : s.KeepsPorts action) (hst : s.step action = some t) : t.Inv := by
  cases action with
  | connect =>
    by_cases h0 : s.nextSourcePort = 0
    · -- the counter is exhausted and the call fails
      simp only [step, getNextSourcePort, h0, if_true, Option.some.injEq] at hst
      subst hst
      exact h.congr rfl rfl rfl
    · simp only [step, getNextSourcePort, h0, if_false, Option.some.injEq] at hst
      subst hst
      have hn : Inv { s with nextSourcePort := s.nextSourcePort+1 } := h.congr rfl rfl rfl
      exact hn.register (hk.resolve_left h0) .handshake
  | connectDone q =>
    simp only [step] at hst
    split at hst
    · rename_i port closes hq
      cases hst
      -- no close is under way before the connection is open
      have hc : closes = 0 := by
        by_contra hpos
        cases h.closing q _ hq (Nat.pos_of_ne_zero hpos)
      have hd := h.setHandle ⟨port, .established, closes⟩ hq rfl (fun _ h => by cases h)
        (fun hpos => absurd hc (Nat.ne_of_gt hpos))
      exact hd.congr rfl rfl rfl
    · cases hst
  | connectFails q =>
    simp only [step] at hst
    split at hst <;> cases hst
    exact h.free q
  | connectFrom port =>
    cases hst
    exact (h.register hf .established).congr rfl rfl rfl
  | close q =>
    simp only [step] at hst
    split at hst
    · cases hst
    · cases hst
    · rename_i c _ hq
      cases hst
      exact h.setHandle _ hq rfl (fun hl => absurd rfl hl) fun _ => rfl
  | closeDone q rstSent =>
    simp only [step] at hst
    split at hst
    · rename_i c hq
      split at hst <;> cases hst
      rename_i hpos
      -- the last thing `close` does is to unregister, if its RST went out
      have hd := h.closing q c hq hpos
      have hs := h.setHandle { c with closes := c.closes-1 } hq rfl id fun _ => hd
      refine hs.unregisterIf fun hrst hu => ?_
      subst hrst
      exact hk c hq (inUse_setHandle_closes hq _ hu)
    · cases hst
  | drop q rstSent =>
    simp only [step] at hst
    split at hst
    · rename_i port hq
      cases hst
      -- no other live connection has the port of this one
      refine (h.free q).unregisterIf ?_
      rintro - ⟨j, d, hj, hl, hp⟩
      obtain ⟨hjq, hj⟩ := get_free_eq_some hj
      exact hjq (h.portsSeparate.unique j q d _ hj hq hl (fun h => by cases h) hp)
    · cases hst
      exact h.free q
    · cases hst

/-- A port that is taken or freed under a live connection shows at once. -/
theorem keepsPorts_of_separate {t : UsbDevice} {action : Action} (h : s.Inv)
    (hst : s.step action = some t) (ht : t.PortsSeparate) : s.KeepsPorts action := by
  cases action with
  | connect =>
    by_cases h0 : s.nextSourcePort = 0
    · exact .inl h0
    · right
      rintro ⟨q, c, hq, hl, hp⟩
      simp only [step, getNextSourcePort, h0, if_false, Option.some.injEq] at hst
      subst hst
      -- the port is routed to the new queue, and to the old one if they are separate
      have hne : q ≠ s.nextQueue := Nat.ne_of_lt (h.fresh q c hq)
      have hr := ht.routed q c ((KeyTable.get_insert_of_ne _ _ hne).trans hq) hl
      rw [hp] at hr
      have hnew := (KeyTable.get_insert_self s.router s.nextSourcePort s.nextQueue).symm.trans hr
      exact hne (Option.some.inj hnew).symm
  | closeDone q rstSent =>
    cases rstSent with
    | false => trivial
    | true =>
      rintro c hq ⟨j, d, hj, hl, hp⟩
      simp only [step, hq, Option.ite_none_right_eq_some, Option.some.injEq] at hst
      obtain ⟨hpos, rfl⟩ := hst
      -- a handle that is being closed is not live
      have hjq : j ≠ q := by
        rintro rfl
        rw [hq] at hj
        cases hj
        exact hl (h.closing j c hq hpos)
      have hr := ht.routed j d ((KeyTable.get_insert_of_ne _ _ hjq).trans hj) hl
      rw [hp] at hr
      have hgone := (KeyTable.get_remove_self s.router c.sourcePort).symm.trans hr
      cases hgone
  | connectDone | connectFails | connectFrom | close | drop => trivial

/-- Over every run, the ports stay separate exactly as long as the counter does
not come to a port in use and no `close` unregisters one. -/
theorem portsSeparate_iff_keepsPorts (as : List Action)
    (hf : StepSystem.EveryStep step FreePort new as) :
    StepSystem.EveryState step PortsSeparate new as ↔
      StepSystem.EveryStep step KeepsPorts new as :=
  StepSystem.everyState_iff_everyStep_of
    (fun _ _ _ h hr hst => ⟨fun hk => inv_step h hr hk hst,
      fun ht => keepsPorts_of_separate h hst ht⟩)
    (fun _ h => h.portsSeparate) inv_new hf

/-- A resumed connection on port 7, and one on the counter's first port that is
closed again. -/
theorem portsSeparate_resumed :
    StepSystem.EveryStep step FreePort new
        [.connectFrom 7, .connect, .connectDone 1, .close 1, .closeDone 1 true] ∧
      (StepSystem.EveryState step PortsSeparate new
          [.connectFrom 7, .connect, .connectDone 1, .close 1, .closeDone 1 true] ↔
        StepSystem.EveryStep step KeepsPorts new
          [.connectFrom 7, .connect, .connectDone 1, .close 1, .closeDone 1 true]) := by
  have hf : StepSystem.EveryStep step FreePort new
      [.connectFrom 7, .connect, .connectDone 1, .close 1, .closeDone 1 true] :=
    .intro not_inUse_new
      (.intro trivial (.intro trivial (.intro trivial (.intro trivial trivial))))
  exact ⟨hf, portsSeparate_iff_keepsPorts _ hf⟩

/-- `connect_from` takes port 1, and the first `connect` takes it again. -/
theorem connect_reuses_resumed_port :
    ¬ ∀ as : List Action, StepSystem.EveryStep step FreePort new as →
      StepSystem.EveryState step PortsSeparate new as := by
  intro h
  have hrun := h [.connectFrom 1, .connect]
    (.intro not_inUse_new (.intro trivial trivial))
  have hlast := hrun.last rfl
  have hr := hlast.routed 0 ⟨1, .established, 0⟩ (by decide) nofun
  exact absurd hr (by decide)

end UsbDevice

end Rusbmux
