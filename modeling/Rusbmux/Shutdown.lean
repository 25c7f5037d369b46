import Rusbmux.Relay
import Rusbmux.ReaderLoop
import Rusbmux.KeyTable
import Rusbmux.StepSystem

/-! `shutdown` of a USB device, among its writer loop and the owners of its
connections: src/device/usb.rs and src/conn/usb.rs. A connection is given by a
number, as each of them is one object. -/
namespace Rusbmux

namespace Shutdown

/-- The task of the writer loop. It holds the receiver of the channel until it
ends. -/
inductive Writer where
  | recv
  | writing (packet : ℕ × UsbDevicePacket)
  | stopped

/-- The packet in hand. -/
def Writer.hand : Writer → List (ℕ × UsbDevicePacket)
  | recv => []
  | writing packet => [packet]
  | stopped => []

def Writer.isStopped : Writer → Bool
  | stopped => true
  | _ => false

/-- How far `shutdown` is. -/
inductive Task where
  | idle
  | cancelled
  /-- In `close_all`, with the connections that are still to come. -/
  | closing (rest : List ℕ)
  | done
  /-- `close_all` has returned the error of a send. -/
  | failed
  deriving DecidableEq

inductive Action where
  /-- `canceler.cancel()` -/
  | cancel
  /-- `set_dropped` and `drop_loops`; `close_all` is next. -/
  | dropLoops
  | closeNext
  /-- The writer loop takes a packet off the channel. -/
  | recv
  | submitEnd
  /-- The task of the writer loop ends, where it awaits. -/
  | stop
  /-- `connect` sends its SYN. -/
  | syn (sourcePort destinationPort : UInt16)
  /-- `connect` receives the reply to it. -/
  | connect (sourcePort destinationPort : UInt16) (tcpSynAck : UsbDevicePacket)
  | connectFrom (destinationPort sourcePort : UInt16) (sentBytes receivedBytes : UInt32)
    (deviceLastWindowSize : UInt16) (deviceLastReceivedBytes : UInt32)
  | sendBytes (c : ℕ) (value : Bytes)
  | recvPacket (c : ℕ) (response : UsbDevicePacket)
  | close (c : ℕ)
  /-- The last reference to a connection is dropped. -/
  | drop (c : ℕ)

end Shutdown

/-- The packets on the channel stand with the connections they are from.
`opened` and `reset` are no part of the program: the connections that were open
when `shutdown` began, and those whose RST was put on the channel. -/
structure Shutdown where
  /-- The connections that are not dropped. -/
  arcs : KeyTable ℕ UsbDeviceConn
  /-- The device's table, by source port. -/
  conns : KeyTable UInt16 ℕ
  wTx : List (ℕ × UsbDevicePacket)
  writer : Shutdown.Writer
  task : Shutdown.Task
  /-- What is written to the OUT endpoint. -/
  written : List (ℕ × UsbDevicePacket)
  /-- The number of the next connection. -/
  made : ℕ
  opened : List ℕ
  reset : List ℕ

namespace Shutdown

/-- A device just created. -/
def start : Shutdown where
  arcs := .empty
  conns := .empty
  wTx := []
  writer := .recv
  task := .idle
  written := []
  made := 0
  opened := []
  reset := []

section

variable (s : Shutdown)

/-- A `try_send` succeeds. -/
def hasRoom : Bool := !s.writer.isStopped && decide (s.wTx.length < QUEUE_SIZE)

def enqueue (c : ℕ) (packet : UsbDevicePacket) : Shutdown :=
  { s with
    wTx := s.wTx ++ [(c, packet)]
    reset := if packet.isRst then c :: s.reset else s.reset }

/-- The end of `connect` and of `connect_from`. -/
def register (conn : UsbDeviceConn) : Shutdown :=
  { s with
    arcs := s.arcs.insert s.made conn
    conns := s.conns.insert conn.sourcePort s.made
    made := s.made+1 }

/-- The connections that are open. -/
def openConns : List ℕ := (s.arcs.entries.filter fun e => !e.2.dropped).map Prod.fst

/-- One turn of the loop in `close_all`, or what follows it. -/
def closeNext : Option Shutdown :=
  match s.task with
  | .closing [] => some { s with conns := .empty, task := .done }
  | .closing (c :: rest) => match s.arcs.get c with
    -- the weak reference is not upgraded
    | none => some { s with task := .closing rest }
    | some conn =>
      if s.writer.isStopped then some { s with task := .failed }
      else if s.hasRoom then some { s.enqueue c conn.rstPacket with task := .closing rest }
      else none
  | _ => none

def step : Action → Option Shutdown
  | .cancel =>
    if s.task = .idle then some { s with task := .cancelled, opened := s.openConns } else none
  | .dropLoops =>
    if s.task = .cancelled then
      some { s with task := .closing (s.conns.entries.map Prod.snd) }
    else none
  | .closeNext => s.closeNext
  | .recv => match s.writer, s.wTx with
    | .recv, packet :: rest => some { s with writer := .writing packet, wTx := rest }
    | _, _ => none
  | .submitEnd => match s.writer with
    | .writing packet => some { s with writer := .recv, written := s.written ++ [packet] }
    | _ => none
  -- the task is cancelled or aborted, and the channel loses its receiver
  | .stop =>
    if s.task = .idle ∨ s.writer.isStopped = true then none
    else some { s with writer := .stopped, wTx := [] }
  | .syn sourcePort destinationPort =>
    if s.hasRoom then
      some (s.enqueue s.made (UsbDeviceConn.tcpSyn sourcePort destinationPort))
    else none
  | .connect sourcePort destinationPort tcpSynAck =>
    match UsbDeviceConn.new sourcePort destinationPort tcpSynAck with
    | .ok (tcpAck, conn) =>
      if s.hasRoom then some ((s.enqueue s.made tcpAck).register conn) else none
    | .error _ => none
  | .connectFrom destinationPort sourcePort sentBytes receivedBytes windowSize lastReceived =>
    some (s.register (UsbDeviceConn.newFrom destinationPort sourcePort sentBytes receivedBytes
      windowSize lastReceived))
  | .sendBytes c value => match s.arcs.get c with
    | some conn =>
      let packet := conn.bytesPacket value
      if s.hasRoom then
        some { s.enqueue c packet with arcs := s.arcs.insert c (conn.packetSent packet) }
      else none
    | none => none
  | .recvPacket c response => match s.arcs.get c with
    | some conn =>
      let (conn, ack) := conn.recv response
      if s.hasRoom then some { s.enqueue c ack with arcs := s.arcs.insert c conn } else none
    | none => none
  | .close c => match s.arcs.get c with
    | some conn =>
      let dropped := { s with arcs := s.arcs.insert c { conn with dropped := true } }
      -- the send fails, and `dropped` is set all the same
      if s.writer.isStopped then some dropped
      else if s.hasRoom then some (dropped.enqueue c conn.rstPacket)
      else none
    | none => none
  | .drop c => match s.arcs.get c with
    | some conn =>
      let dropped := { s with arcs := s.arcs.remove c }
      -- a `try_send`, so that a full channel loses the RST
      if !conn.dropped && s.hasRoom then some (dropped.enqueue c conn.rstPacket)
      else some dropped
    | none => none

/-- The RST packets of a connection. -/
def rsts (c : ℕ) (packets : List (ℕ × UsbDevicePacket)) : ℕ :=
  packets.countP fun p => p.1 == c && p.2.isRst

/-- The connection whose RST a step puts on the channel. -/
def offered : Action → Option ℕ
  | .closeNext => match s.task with
    | .closing (c :: _) => if (s.arcs.get c).isSome && s.hasRoom then some c else none
    | _ => none
  | .close c => if (s.arcs.get c).isSome && s.hasRoom then some c else none
  | .drop c => if ((s.arcs.get c).any fun conn => !conn.dropped) && s.hasRoom then some c else none
  | _ => none

/-- No connection that was open at the shutdown is reset a second time. -/
def ResetsOnce (a : Action) : Prop :=
  ∀ c, s.offered a = some c → c ∈ s.opened → c ∉ s.reset

instance (a : Action) : Decidable (s.ResetsOnce a) :=
  decidable_of_iff (∀ c ∈ s.opened, s.offered a = some c → c ∉ s.reset)
    ⟨fun h c ho hc => h c hc ho, fun h c hc ho => h c ho hc⟩

/-- The writer loop does not end before the RST of a connection that was open at
the shutdown is put on the channel, nor while it is there or in hand. -/
def StopsLast (a : Action) : Prop :=
  a = .stop → ∀ c ∈ s.opened, c ∈ s.reset ∧ rsts c (s.writer.hand ++ s.wTx) = 0

/-- No connection that was open at the shutdown has more than one RST written,
and each has one when the writer loop has ended. -/
def WritesRsts : Prop :=
  ∀ c ∈ s.opened, rsts c s.written ≤ 1 ∧ (s.writer.isStopped = true → rsts c s.written = 1)

end

/-- The packets that are written, in hand or on the channel, in their order. -/
def flight (s : Shutdown) : List (ℕ × UsbDevicePacket) :=
  s.written ++ (s.writer.hand ++ s.wTx)

theorem rsts_append (c : ℕ) (ps qs : List (ℕ × UsbDevicePacket)) :
    rsts c (ps ++ qs) = rsts c ps+rsts c qs := List.countP_append

theorem rsts_written_le (c : ℕ) (s : Shutdown) : rsts c s.written ≤ rsts c s.flight := by
  rw [flight, rsts_append]
  exact Nat.le_add_right _ _

/-- What a step that does not end the writer loop does to the packets. `o` is
the connection whose RST it puts on the channel. -/
structure Sends (s t : Shutdown) (o : Option ℕ) : Prop where
  count : ∀ c, rsts c t.flight = rsts c s.flight+if o = some c then 1 else 0
  reset : ∀ c, c ∈ t.reset ↔ o = some c ∨ c ∈ s.reset
  stopped : t.writer.isStopped = s.writer.isStopped
  quiet : s.writer.isStopped = true → o = none ∧ t.written = s.written

section

variable {s t : Shutdown} {c : ℕ} {a : Action}

theorem hasRoom_stopped (h : s.hasRoom = true) : s.writer.isStopped = false := by
  simp only [hasRoom, Bool.and_eq_true, Bool.not_eq_true'] at h
  exact h.1

theorem hasRoom_of_stopped (h : s.writer.isStopped = true) : s.hasRoom = false := by
  simp only [hasRoom, h, Bool.not_true, Bool.false_and]

/-- A step that moves packets on, or leaves them where they are. -/
theorem sends_none (hflight : t.flight = s.flight) (hreset : t.reset = s.reset)
    (hstopped : t.writer.isStopped = s.writer.isStopped)
    (hquiet : s.writer.isStopped = true → t.written = s.written) : Sends s t none where
  count c := by simp only [hflight, reduceCtorEq, if_false, Nat.add_zero]
  reset c := by simp only [hreset, reduceCtorEq, false_or]
  stopped := hstopped
  quiet h := ⟨rfl, hquiet h⟩

/-- A step that puts a packet on the channel. -/
theorem sends_packet (hroom : s.hasRoom = true) (c : ℕ) (packet : UsbDevicePacket)
    (hwTx : t.wTx = (s.enqueue c packet).wTx) (hreset : t.reset = (s.enqueue c packet).reset)
    (hwriter : t.writer = s.writer) (hwritten : t.written = s.written) :
    Sends s t (if packet.isRst then some c else none) where
  count d := by
    have hflight : t.flight = s.flight ++ [(c, packet)] := by
      simp only [flight, hwTx, hwriter, hwritten, enqueue, List.append_assoc]
    rw [hflight, rsts_append]
    cases hp : packet.isRst <;> by_cases hc : c = d <;>
      simp [rsts, hp, hc]
  reset d := by
    rw [hreset]
    cases hp : packet.isRst <;> simp [enqueue, hp, eq_comm]
  stopped := by rw [hwriter]
  quiet h := by
    rw [hasRoom_stopped hroom] at h
    cases h

theorem sends_closeNext (h : s.closeNext = some t) : Sends s t (s.offered .closeNext) := by
  unfold closeNext at h
  cases htask : s.task with
  | closing rest =>
    rw [htask] at h
    cases rest with
    | nil =>
      cases h
      simp only [offered, htask]
      exact sends_none rfl rfl rfl fun _ => rfl
    | cons c rest =>
      cases hget : s.arcs.get c with
      | none =>
        simp only [hget] at h
        cases h
        simp only [offered, htask, hget, Option.isSome_none, Bool.false_and]
        exact sends_none rfl rfl rfl fun _ => rfl
      | some conn =>
        simp only [hget] at h
        cases hstopped : s.writer.isStopped with
        | true =>
          simp only [hstopped, if_true, Option.some.injEq] at h
          subst h
          simp only [offered, htask, hget, hasRoom_of_stopped hstopped, Bool.and_false]
          exact sends_none rfl rfl rfl fun _ => rfl
        | false =>
          simp only [hstopped, Bool.false_eq_true, if_false, Option.ite_none_right_eq_some,
            Option.some.injEq] at h
          obtain ⟨hroom, rfl⟩ := h
          simp only [offered, htask, hget, hroom, Option.isSome_some, Bool.and_self]
          exact sends_packet hroom c conn.rstPacket rfl rfl rfl rfl
  | _ => simp only [htask, reduceCtorEq] at h

/-- The ACK of a handshake is no RST, and its connection is open. -/
theorem isRst_of_new {sourcePort destinationPort : UInt16} {tcpSynAck tcpAck : UsbDevicePacket}
    {conn : UsbDeviceConn}
    (h : UsbDeviceConn.new sourcePort destinationPort tcpSynAck = .ok (tcpAck, conn)) :
    tcpAck.isRst = false := by
  unfold UsbDeviceConn.new at h
  split at h <;> cases h
  rfl

/-- A packet without RST. -/
theorem sends_other (hroom : s.hasRoom = true) (c : ℕ) (packet : UsbDevicePacket)
    (hp : packet.isRst = false) (hwTx : t.wTx = (s.enqueue c packet).wTx)
    (hreset : t.reset = (s.enqueue c packet).reset) (hwriter : t.writer = s.writer)
    (hwritten : t.written = s.written) : Sends s t none := by
  have h := sends_packet hroom c packet hwTx hreset hwriter hwritten
  rwa [hp, if_neg Bool.false_ne_true] at h

theorem sends_step (h : s.step a = some t) (ha : a ≠ .stop) : Sends s t (s.offered a) := by
  cases a with
  | stop => exact absurd rfl ha
  | cancel =>
    simp only [step, Option.ite_none_right_eq_some, Option.some.injEq] at h
    obtain ⟨-, rfl⟩ := h
    exact sends_none rfl rfl rfl fun _ => rfl
  | dropLoops =>
    simp only [step, Option.ite_none_right_eq_some, Option.some.injEq] at h
    obtain ⟨-, rfl⟩ := h
    exact sends_none rfl rfl rfl fun _ => rfl
  | closeNext => exact sends_closeNext h
  | recv =>
    simp only [step] at h
    split at h
    -- from the channel to the hand of the loop: all that is on its way stays the same
    next packet rest hwriter hwTx =>
      cases h
      refine sends_none ?_ rfl (by rw [hwriter]; rfl) fun _ => rfl
      simp only [flight, Writer.hand, hwriter, hwTx, List.nil_append, List.singleton_append]
    next => cases h
  | submitEnd =>
    simp only [step] at h
    split at h
    -- from the hand to the wire
    next packet hwriter =>
      cases h
      refine sends_none ?_ rfl (by rw [hwriter]; rfl) fun hs => by rw [hwriter] at hs; cases hs
      simp only [flight, Writer.hand, hwriter, List.append_assoc, List.nil_append]
    next => cases h
  | syn sourcePort destinationPort =>
    simp only [step, Option.ite_none_right_eq_some, Option.some.injEq] at h
    obtain ⟨hroom, rfl⟩ := h
    exact sends_other hroom s.made (UsbDeviceConn.tcpSyn _ _) rfl rfl rfl rfl rfl
  | connect sourcePort destinationPort tcpSynAck =>
    simp only [step] at h
    split at h
    next tcpAck conn hnew =>
      simp only [Option.ite_none_right_eq_some, Option.some.injEq] at h
      obtain ⟨hroom, rfl⟩ := h
      exact sends_other hroom s.made tcpAck (isRst_of_new hnew) rfl rfl rfl rfl
    next => cases h
  | connectFrom destinationPort sourcePort sentBytes receivedBytes windowSize lastReceived =>
    cases h
    exact sends_none rfl rfl rfl fun _ => rfl
  | sendBytes c value =>
    simp only [step] at h
    split at h
    next conn hget =>
      simp only [Option.ite_none_right_eq_some, Option.some.injEq] at h
      obtain ⟨hroom, rfl⟩ := h
      exact sends_other hroom c (conn.bytesPacket value) rfl rfl rfl rfl rfl
    next => cases h
  | recvPacket c response =>
    simp only [step] at h
    split at h
    next conn hget =>
      simp only [Option.ite_none_right_eq_some, Option.some.injEq] at h
      obtain ⟨hroom, rfl⟩ := h
      exact sends_other hroom c (conn.recv response).2 rfl rfl rfl rfl rfl
    next => cases h
  | close c =>
    simp only [step] at h
    split at h
    next conn hget =>
      -- the send fails where the loop has ended, and waits for room otherwise
      cases hstopped : s.writer.isStopped with
      | true =>
        simp only [hstopped, if_true, Option.some.injEq] at h
        subst h
        simp only [offered, hasRoom_of_stopped hstopped, Bool.and_false]
        exact sends_none rfl rfl rfl fun _ => rfl
      | false =>
        simp only [hstopped, Bool.false_eq_true, if_false, Option.ite_none_right_eq_some,
          Option.some.injEq] at h
        obtain ⟨hroom, rfl⟩ := h
        simp only [offered, hget, hroom, Option.isSome_some, Bool.and_self]
        exact sends_packet hroom c conn.rstPacket rfl rfl rfl rfl
    next => cases h
  | drop c =>
    simp only [step] at h
    split at h
    next conn hget =>
      simp only [offered, hget, Option.any_some]
      -- `try_send`: without room nothing is sent, and nobody is told
      split_ifs at h with hsend
      · cases h
        have hroom : s.hasRoom = true := ((Bool.and_eq_true _ _).mp hsend).2
        rw [if_pos hsend]
        exact sends_packet hroom c conn.rstPacket rfl rfl rfl rfl
      · cases h
        rw [if_neg hsend]
        exact sends_none rfl rfl rfl fun _ => rfl
    next => cases h

/-- What a step does to the connections. -/
structure Keeps (s t : Shutdown) (o : Option ℕ) : Prop where
  idle : t.task = .idle → s.task = .idle ∧ t.opened = s.opened
  made : s.made ≤ t.made
  known : ∀ c conn, t.arcs.get c = some conn →
    (∃ former, s.arcs.get c = some former ∧ (conn.dropped = false → former.dropped = false)) ∨
      (c = s.made ∧ s.made < t.made)
  offered : ∀ c, o = some c → (∃ conn, s.arcs.get c = some conn) ∧
    (t.task = .idle → ∀ conn, t.arcs.get c = some conn → conn.dropped = true)

/-- The connections are left alone. -/
theorem keeps_of_same (hidle : t.task = .idle → s.task = .idle ∧ t.opened = s.opened)
    (harcs : t.arcs = s.arcs) (hmade : t.made = s.made) : Keeps s t none where
  idle := hidle
  made := Nat.le_of_eq hmade.symm
  known c conn h := .inl ⟨conn, harcs ▸ h, id⟩
  offered c h := by cases h

/-- A connection is replaced by one that is not more open. -/
theorem keeps_of_insert {former : UsbDeviceConn} (hget : s.arcs.get c = some former)
    (conn : UsbDeviceConn) (hdropped : conn.dropped = false → former.dropped = false)
    (htask : t.task = s.task) (hopened : t.opened = s.opened)
    (harcs : t.arcs = s.arcs.insert c conn) (hmade : t.made = s.made) : Keeps s t none where
  idle h := ⟨htask ▸ h, hopened⟩
  made := Nat.le_of_eq hmade.symm
  known d new h := by
    rw [harcs, KeyTable.get_insert] at h
    split_ifs at h with hd
    · cases h
      exact .inl ⟨former, hd ▸ hget, hdropped⟩
    · exact .inl ⟨new, h, id⟩
  offered d h := by cases h

theorem keeps_of_register {u : Shutdown} (conn : UsbDeviceConn)
    (htask : u.task = s.task) (hopened : u.opened = s.opened) (harcs : u.arcs = s.arcs)
    (hmade : u.made = s.made) : Keeps s (u.register conn) none where
  idle h := ⟨htask ▸ h, hopened⟩
  made := by
    rw [← hmade]
    exact Nat.le_succ u.made
  known d new h := by
    rw [register, KeyTable.get_insert, harcs, hmade] at h
    split_ifs at h with hd
    · refine .inr ⟨hd, ?_⟩
      rw [← hmade]
      exact Nat.lt_succ_self u.made
    · exact .inl ⟨new, h, id⟩
  offered d h := by cases h

/-- A connection whose RST the step puts on the channel is known, and it is
dropped or the shutdown is under way. -/
theorem keeps_offered (h : Keeps s t none) {o : Option ℕ} (ho : ∀ d, o = some d →
      (∃ conn, s.arcs.get d = some conn) ∧
      (t.task = .idle → ∀ conn, t.arcs.get d = some conn → conn.dropped = true)) :
    Keeps s t o where
  idle := h.idle
  made := h.made
  known := h.known
  offered := ho

theorem keeps_closeNext (h : s.closeNext = some t) : Keeps s t (s.offered .closeNext) := by
  have hkeeps : Keeps s t none ∧ t.task ≠ .idle := by
    unfold closeNext at h
    split at h
    next =>
      cases h
      exact ⟨keeps_of_same (fun h => by cases h) rfl rfl, fun h => by cases h⟩
    next c rest htask =>
      split at h
      next =>
        cases h
        exact ⟨keeps_of_same (fun h => by cases h) rfl rfl, fun h => by cases h⟩
      next conn hget =>
        split_ifs at h <;> cases h <;>
          exact ⟨keeps_of_same (fun h => by cases h) rfl rfl, fun h => by cases h⟩
    next => cases h
  refine keeps_offered hkeeps.1 fun d hd => ⟨?_, fun hidle => absurd hidle hkeeps.2⟩
  simp only [offered] at hd
  split at hd
  next c rest htask =>
    split_ifs at hd with hsome
    cases hd
    exact Option.isSome_iff_exists.mp ((Bool.and_eq_true _ _).mp hsome).1
  next => cases hd

theorem dropped_recv (conn : UsbDeviceConn) (response : UsbDevicePacket) :
    (conn.recv response).1.dropped = conn.dropped := by
  simp only [UsbDeviceConn.recv, UsbDeviceConn.updateSendableBytes, UsbDeviceConn.recvTake]
  cases response.tcpHdr <;> rfl

theorem keeps_close (h : s.step (.close c) = some t) : Keeps s t (s.offered (.close c)) := by
  simp only [step] at h
  split at h
  next conn hget =>
    have hkeeps : Keeps s t none ∧ t.arcs = s.arcs.insert c { conn with dropped := true } := by
      split_ifs at h <;> cases h <;>
        exact ⟨keeps_of_insert hget _ (fun hd => by cases hd) rfl rfl rfl rfl, rfl⟩
    refine keeps_offered hkeeps.1 fun d hd => ?_
    simp only [offered] at hd
    split_ifs at hd
    cases hd
    refine ⟨⟨conn, hget⟩, fun _ new hnew => ?_⟩
    rw [hkeeps.2, KeyTable.get_insert_self] at hnew
    cases hnew
    rfl
  next => cases h

theorem keeps_drop (h : s.step (.drop c) = some t) : Keeps s t (s.offered (.drop c)) := by
  simp only [step] at h
  split at h
  next conn hget =>
    have hremoved : t.task = s.task ∧ t.opened = s.opened ∧ t.made = s.made ∧
        t.arcs = s.arcs.remove c := by
      split_ifs at h <;> cases h <;> exact ⟨rfl, rfl, rfl, rfl⟩
    obtain ⟨htask, hopened, hmade, harcs⟩ := hremoved
    refine ⟨fun hidle => ⟨htask ▸ hidle, hopened⟩, Nat.le_of_eq hmade.symm, fun d new hnew => ?_,
      fun d hd => ?_⟩
    · rw [harcs, KeyTable.get_remove] at hnew
      split_ifs at hnew
      exact .inl ⟨new, hnew, id⟩
    · simp only [offered] at hd
      split_ifs at hd
      cases hd
      refine ⟨⟨conn, hget⟩, fun _ new hnew => ?_⟩
      rw [harcs, KeyTable.get_remove_self] at hnew
      cases hnew
  next => cases h

theorem keeps_step (h : s.step a = some t) : Keeps s t (s.offered a) := by
  cases a with
  | cancel =>
    simp only [step, Option.ite_none_right_eq_some, Option.some.injEq] at h
    obtain ⟨-, rfl⟩ := h
    exact keeps_of_same (fun h => by cases h) rfl rfl
  | dropLoops =>
    simp only [step, Option.ite_none_right_eq_some, Option.some.injEq] at h
    obtain ⟨-, rfl⟩ := h
    exact keeps_of_same (fun h => by cases h) rfl rfl
  | closeNext => exact keeps_closeNext h
  | recv =>
    simp only [step] at h
    split at h <;> cases h
    exact keeps_of_same (fun h => ⟨h, rfl⟩) rfl rfl
  | submitEnd =>
    simp only [step] at h
    split at h <;> cases h
    exact keeps_of_same (fun h => ⟨h, rfl⟩) rfl rfl
  | stop =>
    simp only [step, Option.ite_none_left_eq_some, Option.some.injEq] at h
    obtain ⟨-, rfl⟩ := h
    exact keeps_of_same (fun h => ⟨h, rfl⟩) rfl rfl
  | syn sourcePort destinationPort =>
    simp only [step, Option.ite_none_right_eq_some, Option.some.injEq] at h
    obtain ⟨-, rfl⟩ := h
    exact keeps_of_same (fun h => ⟨h, rfl⟩) rfl rfl
  | connect sourcePort destinationPort tcpSynAck =>
    simp only [step] at h
    split at h
    next tcpAck conn hnew =>
      simp only [Option.ite_none_right_eq_some, Option.some.injEq] at h
      obtain ⟨-, rfl⟩ := h
      exact keeps_of_register conn rfl rfl rfl rfl
    next => cases h
  | connectFrom destinationPort sourcePort sentBytes receivedBytes windowSize lastReceived =>
    cases h
    exact keeps_of_register _ rfl rfl rfl rfl
  | sendBytes c value =>
    simp only [step] at h
    split at h
    next conn hget =>
      simp only [Option.ite_none_right_eq_some, Option.some.injEq] at h
      obtain ⟨-, rfl⟩ := h
      exact keeps_of_insert hget (conn.packetSent _) (fun hd => hd) rfl rfl rfl rfl
    next => cases h
  | recvPacket c response =>
    simp only [step] at h
    split at h
    next conn hget =>
      simp only [Option.ite_none_right_eq_some, Option.some.injEq] at h
      obtain ⟨-, rfl⟩ := h
      refine keeps_of_insert hget (conn.recv response).1 (fun hd => ?_) rfl rfl rfl rfl
      -- `recv` changes the numbers of a connection and not whether it is dropped
      rwa [dropped_recv] at hd
    next => cases h
  | close c => exact keeps_close h
  | drop c => exact keeps_drop h

end

/-- What holds in every state that is reached while the connections that were
open at the shutdown are reset once, and before the writer loop ends too soon. -/
structure Consistent (s : Shutdown) : Prop where
  idle : s.task = .idle → s.opened = [] ∧ s.writer.isStopped = false
  known : ∀ c conn, s.arcs.get c = some conn → c < s.made
  resetKnown : ∀ c ∈ s.reset, c < s.made
  /-- An open connection is not reset before the shutdown. -/
  fresh : s.task = .idle → ∀ c conn, s.arcs.get c = some conn → conn.dropped = false → c ∉ s.reset
  unsent : ∀ c, c ∉ s.reset → rsts c s.flight = 0
  sent : s.writer.isStopped = false → ∀ c ∈ s.opened, c ∈ s.reset → rsts c s.flight = 1
  ended : s.writer.isStopped = true → ∀ c ∈ s.opened, rsts c s.written = 1

theorem consistent_start : Consistent start where
  idle _ := ⟨rfl, rfl⟩
  known c conn h := by cases h
  resetKnown c h := by cases h
  fresh _ c conn h := by cases h
  unsent c _ := rfl
  sent _ c h := by cases h
  ended h := by cases h

section

variable {s t : Shutdown} {a : Action}

theorem Consistent.writesRsts (hs : Consistent s) : s.WritesRsts := by
  intro c hc
  cases hstopped : s.writer.isStopped with
  | true =>
    have hone := hs.ended hstopped c hc
    exact ⟨Nat.le_of_eq hone, fun _ => hone⟩
  | false =>
    refine ⟨Nat.le_trans (rsts_written_le c s) ?_, (fun h => by cases h)⟩
    by_cases hreset : c ∈ s.reset
    · exact Nat.le_of_eq (hs.sent hstopped c hc hreset)
    · rw [hs.unsent c hreset]
      exact Nat.zero_le 1

theorem mem_openConns {c : ℕ} (h : c ∈ s.openConns) :
    ∃ conn, s.arcs.get c = some conn ∧ conn.dropped = false := by
  simp only [openConns, List.mem_map, List.mem_filter, Bool.not_eq_true'] at h
  obtain ⟨⟨d, conn⟩, ⟨hmem, hdropped⟩, rfl⟩ := h
  exact ⟨conn, (KeyTable.get_eq_some_iff _ _ _).mpr hmem, hdropped⟩

/-- The connections that count as open are settled when the shutdown begins. -/
theorem opened_step (h : s.step a = some t) :
    t.opened = s.opened ∨ s.task = .idle ∧ t.opened = s.openConns ∧ s.offered a = none := by
  cases a with
  | cancel =>
    simp only [step, Option.ite_none_right_eq_some, Option.some.injEq] at h
    obtain ⟨hidle, rfl⟩ := h
    exact .inr ⟨hidle, rfl, rfl⟩
  | closeNext =>
    simp only [step, closeNext] at h
    refine .inl ?_
    repeat' split at h
    all_goals cases h <;> rfl
  | _ =>
    simp only [step] at h
    refine .inl ?_
    repeat' split at h
    all_goals cases h <;> rfl

theorem Consistent.step (hs : Consistent s) (honce : s.ResetsOnce a) (ha : a ≠ .stop)
    (h : s.step a = some t) : Consistent t := by
  have hsends := sends_step h ha
  have hkeeps := keeps_step h
  have hreset {c : ℕ} (hc : c ∈ t.reset) : c ∈ s.reset ∨ ∃ conn, s.arcs.get c = some conn := by
    rcases (hsends.reset c).mp hc with hoffered | hc
    · exact .inr (hkeeps.offered c hoffered).1
    · exact .inl hc
  constructor
  case idle =>
    intro hidle
    obtain ⟨hs_idle, hopened⟩ := hkeeps.idle hidle
    rw [hopened, hsends.stopped]
    exact hs.idle hs_idle
  case known =>
    intro c conn hget
    rcases hkeeps.known c conn hget with ⟨former, hformer, -⟩ | ⟨rfl, hmade⟩
    · exact Nat.lt_of_lt_of_le (hs.known c former hformer) hkeeps.made
    · exact hmade
  case resetKnown =>
    intro c hc
    rcases hreset hc with hc | ⟨conn, hget⟩
    · exact Nat.lt_of_lt_of_le (hs.resetKnown c hc) hkeeps.made
    · exact Nat.lt_of_lt_of_le (hs.known c conn hget) hkeeps.made
  case fresh =>
    intro hidle c conn hget hopen hc
    rcases (hsends.reset c).mp hc with hoffered | hc
    · rw [(hkeeps.offered c hoffered).2 hidle conn hget] at hopen
      cases hopen
    · rcases hkeeps.known c conn hget with ⟨former, hformer, hdropped⟩ | ⟨rfl, -⟩
      · exact hs.fresh (hkeeps.idle hidle).1 c former hformer (hdropped hopen) hc
      · exact absurd (hs.resetKnown _ hc) (Nat.lt_irrefl _)
  case unsent =>
    intro c hc
    have hnot := not_or.mp fun hor => hc ((hsends.reset c).mpr hor)
    rw [hsends.count, hs.unsent c hnot.2, if_neg hnot.1]
  case sent =>
    intro hstopped c hc hcreset
    rw [hsends.stopped] at hstopped
    -- the list of the shutdown is the one before, or is taken by this step
    rcases opened_step h with hopened | ⟨hidle, hopened, hoffered⟩
    · rw [hopened] at hc
      rw [hsends.count]
      by_cases hformer : c ∈ s.reset
      · have hnot : s.offered a ≠ some c := fun ho => honce c ho hc hformer
        rw [if_neg hnot, hs.sent hstopped c hc hformer]
      · have hoffered := ((hsends.reset c).mp hcreset).resolve_right hformer
        rw [if_pos hoffered, hs.unsent c hformer]
    · -- the connections that are open when the shutdown begins are not reset yet
      obtain ⟨conn, hget, hopen⟩ := mem_openConns (hopened ▸ hc)
      have hformer : c ∈ s.reset := by
        rcases (hsends.reset c).mp hcreset with ho | hr
        · rw [hoffered] at ho
          cases ho
        · exact hr
      exact absurd hformer (hs.fresh hidle c conn hget hopen)
  case ended =>
    intro hstopped c hc
    rw [hsends.stopped] at hstopped
    rcases opened_step h with hopened | ⟨hidle, -, -⟩
    · rw [hopened] at hc
      rw [(hsends.quiet hstopped).2]
      exact hs.ended hstopped c hc
    · rw [(hs.idle hidle).2] at hstopped
      cases hstopped

theorem step_stop (h : s.step .stop = some t) : s.task ≠ .idle ∧
    s.writer.isStopped = false ∧ t = { s with writer := .stopped, wTx := [] } := by
  simp only [Shutdown.step, Option.ite_none_left_eq_some, Option.some.injEq, not_or,
    Bool.not_eq_true] at h
  exact ⟨h.1.1, h.1.2, h.2.symm⟩

theorem rsts_flight (c : ℕ) (s : Shutdown) :
    rsts c s.flight = rsts c s.written+rsts c (s.writer.hand ++ s.wTx) := rsts_append c _ _

/-- Before the writer loop ends, what is neither on the channel nor in hand is
written. -/
theorem stopsLast_iff (hs : Consistent s) (hstopped : s.writer.isStopped = false) :
    s.StopsLast .stop ↔ ∀ c ∈ s.opened, rsts c s.written = 1 := by
  constructor
  · intro h c hc
    obtain ⟨hreset, hnone⟩ := h rfl c hc
    calc rsts c s.written
        = rsts c s.written+rsts c (s.writer.hand ++ s.wTx) := by rw [hnone, Nat.add_zero]
      _ = rsts c s.flight := (rsts_flight c s).symm
      _ = 1 := hs.sent hstopped c hc hreset
  · intro h _ c hc
    have hone := h c hc
    have hreset : c ∈ s.reset := by
      by_contra hnot
      have hzero := hs.unsent c hnot
      rw [rsts_flight, hone] at hzero
      omega
    have hflight := hs.sent hstopped c hc hreset
    rw [rsts_flight, hone] at hflight
    exact ⟨hreset, by omega⟩

theorem Consistent.stop (hs : Consistent s) (h : s.step .stop = some t)
    (hlast : ∀ c ∈ s.opened, rsts c s.written = 1) : Consistent t := by
  obtain ⟨htask, -, rfl⟩ := step_stop h
  exact {
    idle := fun hidle => absurd hidle htask
    known := hs.known
    resetKnown := hs.resetKnown
    fresh := hs.fresh
    unsent := fun c hc => by
      have hwritten : rsts c s.written ≤ rsts c s.flight := rsts_written_le c s
      rw [hs.unsent c hc] at hwritten
      simpa [flight, Writer.hand] using hwritten
    sent := fun hstopped => by cases hstopped
    ended := fun _ => hlast }

/-- A step from a consistent state keeps the RSTs precisely if it does not end
the writer loop too soon. -/
theorem step_exact (hs : Consistent s) (honce : s.ResetsOnce a) (h : s.step a = some t) :
    (s.StopsLast a → Consistent t) ∧ (t.WritesRsts → s.StopsLast a) := by
  by_cases ha : a = .stop
  · subst ha
    obtain ⟨-, hstopped, rfl⟩ := step_stop h
    rw [stopsLast_iff hs hstopped]
    exact ⟨hs.stop h, fun hwritten c hc => (hwritten c hc).2 rfl⟩
  · exact ⟨fun _ => hs.step honce ha h, fun _ hstop => absurd hstop ha⟩

end

/-- When no connection is reset twice, each connection that was open at the
shutdown has exactly one RST written, if and only if the writer loop is not
ended before. -/
theorem writesRsts_iff_stopsLast (as : List Action)
    (honce : StepSystem.EveryStep step ResetsOnce start as) :
    StepSystem.EveryState step WritesRsts start as ↔
      StepSystem.EveryStep step StopsLast start as :=
  StepSystem.everyState_iff_everyStep_of (fun _ _ _ hs hr h => step_exact hs hr h)
    (fun _ hs => hs.writesRsts) consistent_start honce

/-- A connection to port 62078, and the reply that completes its handshake. -/
def synAck : UsbDevicePacket :=
  buildTcp AUTO_SEQ AUTO_SEQ { tcpHeader 62078 1 0 1 .SYN with ack := true }

/-- The connection is made, and its packets are written. -/
def connected : List Action :=
  [.syn 1 62078, .recv, .submitEnd, .connect 1 62078 synAck, .recv, .submitEnd]

/-- The RST is written before the writer loop ends, and the connection is dropped
after that. -/
def lateStop : List Action :=
  connected ++ [.cancel, .dropLoops, .closeNext, .recv, .submitEnd, .closeNext, .stop, .drop 0]

theorem lateStop_resetsOnce : StepSystem.EveryStep step ResetsOnce start lateStop := by
  decide

theorem writesRsts_iff_stopsLast_lateStop :
    StepSystem.EveryState step WritesRsts start lateStop ↔
      StepSystem.EveryStep step StopsLast start lateStop :=
  writesRsts_iff_stopsLast lateStop lateStop_resetsOnce

/-- The writer loop ends as soon as the token is cancelled, and `close_all` fails. -/
theorem not_writesRsts_cancelled :
    ¬ ∀ as : List Action, StepSystem.EveryState step WritesRsts start as := by
  intro h
  have hrun := h (connected ++ [.cancel, .stop, .dropLoops, .closeNext])
  have hlast := hrun.last rfl
  have hone := (hlast 0 (by decide)).2 rfl
  exact absurd hone (by decide)

end Shutdown

end Rusbmux
