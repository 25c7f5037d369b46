import Rusbmux.StepSystem
import Rusbmux.UsbConn

/-! `handle_usb_device_connect` of src/handler/connect.rs: the relay between a
client and a connection of a device, with the device, the writer loop and the
client as its environment. -/
namespace Rusbmux

/-- The room of the channels of the router and of the writer loop. -/
def QUEUE_SIZE : ℕ := 256

/-- A packet on the connection's queue, with the stream bytes of the connection
that the device had received when it sent the packet. -/
structure Arrival where
  packet : UsbDevicePacket
  acked : ℕ
  deriving DecidableEq

inductive Relay.Phase where
  /-- In `select!`: the value of `get_sendable_bytes` it was entered with, and
  the packet whose ACK `conn.recv()` is waiting to send. -/
  | select (sendable : ℕ) (held : Option Arrival)
  /-- In `client_send`, with the bytes not written yet. -/
  | clientSend (remaining : Bytes)
  /-- In `send_bytes`, with the packet the writer channel has not taken yet. -/
  | sendBytes (packet : UsbDevicePacket)
  /-- In `conn.close()`. -/
  | closing
  | ended
  deriving DecidableEq

/-- `taken`, `sentTotal` and `ackedTotal` are no part of the program: the packets
taken out of `conn.rx`, the payload bytes sent before, and those that the device
had received by the last packet recorded. -/
structure Relay where
  conn : UsbDeviceConn
  rx : List Arrival
  wTx : List UsbDevicePacket
  clientIn : Bytes
  clientEof : Bool
  clientOut : Bytes
  readBuf : Bytes
  cancelled : Bool
  phase : Relay.Phase
  taken : List UsbDevicePacket
  sentTotal : ℕ
  ackedTotal : ℕ
  deriving DecidableEq

namespace Relay

inductive Action where
  | deviceData (a : Arrival)
  | writerTakes
  | otherSends (p : UsbDevicePacket)
  | clientWrites (b : Bytes)
  | clientCloses
  | cancel
  /-- `conn.recv()` takes a packet, and sends the ACK if there is room for it. -/
  | pollRecv
  /-- The waiting ACK gets its place in the writer channel. -/
  | pollAck
  | recvFails
  /-- `client_read` wins, after a read of `k` bytes if its buffer was empty. -/
  | pollClient (k : ℕ)
  | clientReadFails
  | pollShutdown
  /-- `write_all` hands `k` bytes to the client. -/
  | clientTakes (k : ℕ)
  | clientSendDone
  | clientSendFails
  | sendDone
  | sendFails
  | closeDone
  deriving DecidableEq

/-- The next turn of the loop. -/
def loop (s : Relay) : Relay := { s with phase := .select s.conn.sendableBytes none }

/-- `conn.recv()` up to its second await. -/
def takePacket (s : Relay) (a : Arrival) (rest : List Arrival) : Relay :=
  { s with
    rx := rest
    conn := s.conn.recvTake a.packet
    taken := s.taken ++ [a.packet]
    ackedTotal := if a.packet.tcpHdr.isSome then a.acked else s.ackedTotal }

/-- The end of `conn.recv()`, with room for the ACK, and the arm it wins. -/
def ackSent (s : Relay) (a : Arrival) : Relay :=
  { s with
    wTx := s.wTx ++ [s.conn.tcpAck]
    conn := s.conn.updateSendableBytes
    phase := .clientSend a.packet.payload.encode }

/-- `client_read`: the bytes it returns and the relay they leave. How much a read
gets is up to the socket and to the room in the buffer. -/
def clientRead (s : Relay) (sendable k : ℕ) : Option (Bytes × Relay) :=
  -- bytes left from an earlier read go first, and the socket is not read
  if s.readBuf ≠ [] then
    some (s.readBuf.take sendable, { s with readBuf := s.readBuf.drop sendable })
  else if s.clientIn = [] then
    if s.clientEof then some ([], s) else none
  else if 0 < k ∧ k ≤ s.clientIn.length then
    let buf := s.clientIn.take k
    some (buf.take sendable,
      { s with clientIn := s.clientIn.drop k, readBuf := buf.drop sendable })
  else none

/-- What the client arm does with what `client_read` returned. -/
def clientPacket (s : Relay) (packet : Bytes) : Relay :=
  if packet = [] then { s with conn := { s.conn with dropped := true }, phase := .closing }
  else { s with phase := .sendBytes (s.conn.bytesPacket packet) }

def hasRoom (s : Relay) : Bool := s.wTx.length < QUEUE_SIZE

def step (s : Relay) : Action → Option Relay
  -- the environment: the device, the writer loop, the other connections, the client
  | .deviceData a =>
    if s.rx.length < QUEUE_SIZE then some { s with rx := s.rx ++ [a] } else none
  | .writerTakes => if s.wTx = [] then none else some { s with wTx := s.wTx.tail }
  | .otherSends p => if s.hasRoom then some { s with wTx := s.wTx ++ [p] } else none
  | .clientWrites b =>
    if s.clientEof then none else some { s with clientIn := s.clientIn ++ b }
  | .clientCloses => some { s with clientEof := true }
  | .cancel => some { s with cancelled := true }
  -- the arms of `select!`; the one that wins drops the futures of the others
  | .pollRecv => match s.phase, s.rx with
    | .select sendable none, a :: rest =>
      let s := s.takePacket a rest
      if s.hasRoom then some (s.ackSent a)
      -- out of the queue and recorded, but in the suspended future only
      else some { s with phase := .select sendable (some a) }
    | _, _ => none
  | .pollAck => match s.phase with
    | .select _ (some a) => if s.hasRoom then some (s.ackSent a) else none
    | _ => none
  | .recvFails => match s.phase with
    | .select _ _ => some { s with phase := .ended }
    | _ => none
  | .pollClient k => match s.phase with
    -- a packet that `conn.recv()` holds goes with its future
    | .select sendable _ =>
      if 0 < sendable then
        (s.clientRead sendable k).map fun (packet, s) => s.clientPacket packet
      else none
    | _ => none
  | .clientReadFails => match s.phase with
    | .select sendable _ =>
      if 0 < sendable ∧ s.readBuf = [] then some { s with phase := .ended } else none
    | _ => none
  | .pollShutdown => match s.phase with
    | .select _ _ => if s.cancelled then some { s with phase := .ended } else none
    | _ => none
  -- the bodies of the arms, which nothing cancels
  | .clientTakes k => match s.phase with
    | .clientSend remaining =>
      if 0 < k ∧ k ≤ remaining.length then
        some { s with
          clientOut := s.clientOut ++ remaining.take k
          phase := .clientSend (remaining.drop k) }
      else none
    | _ => none
  | .clientSendDone => match s.phase with
    | .clientSend [] => some s.loop
    | _ => none
  | .clientSendFails => match s.phase with
    | .clientSend _ => some { s with phase := .ended }
    | _ => none
  | .sendDone => match s.phase with
    | .sendBytes packet =>
      if s.hasRoom then
        some (loop { s with
          wTx := s.wTx ++ [packet]
          conn := s.conn.packetSent packet
          sentTotal := s.sentTotal+packet.payload.len })
      else none
    | _ => none
  | .sendFails => match s.phase with
    | .sendBytes _ => some { s with phase := .ended }
    | _ => none
  | .closeDone => match s.phase with
    | .closing =>
      if s.hasRoom then
        some { s with wTx := s.wTx ++ [s.conn.rstPacket], phase := .ended }
      else none
    | _ => none

/-- A relay at its start, on a connection that may have packets waiting and may
have been resumed. -/
def start (conn : UsbDeviceConn) (rx : List Arrival) (wTx : List UsbDevicePacket)
    (sentTotal ackedTotal : ℕ) : Relay where
  conn := conn
  rx := rx
  wTx := wTx
  clientIn := []
  clientEof := false
  clientOut := []
  readBuf := []
  cancelled := false
  phase := .select conn.sendableBytes none
  taken := []
  sentTotal := sentTotal
  ackedTotal := ackedTotal

/-- What `client_read` leaves alone, and when it returns nothing. -/
structure Reads (s : Relay) (sendable : ℕ) (packet : Bytes) (t : Relay) : Prop where
  conn : t.conn = s.conn
  rx : t.rx = s.rx
  wTx : t.wTx = s.wTx
  clientOut : t.clientOut = s.clientOut
  phase : t.phase = s.phase
  taken : t.taken = s.taken
  sentTotal : t.sentTotal = s.sentTotal
  ackedTotal : t.ackedTotal = s.ackedTotal
  length_le : packet.length ≤ sendable
  eq_nil_iff : packet = [] ↔ s.readBuf = [] ∧ s.clientIn = []

theorem clientRead_reads {s t : Relay} {sendable k : ℕ} {packet : Bytes} (hs : 0 < sendable)
    (h : s.clientRead sendable k = some (packet, t)) : s.Reads sendable packet t := by
  unfold clientRead at h
  split_ifs at h with hbuf hin heof hk
  · cases h
    refine ⟨rfl, rfl, rfl, rfl, rfl, rfl, rfl, rfl, List.length_take_le _ _, ?_⟩
    simp only [List.take_eq_nil_iff, Nat.ne_of_gt hs, hbuf, false_or, false_and]
  · cases h
    refine ⟨rfl, rfl, rfl, rfl, rfl, rfl, rfl, rfl, Nat.zero_le _, ?_⟩
    simp only [not_not.mp hbuf, hin, and_self]
  · cases h
    refine ⟨rfl, rfl, rfl, rfl, rfl, rfl, rfl, rfl, List.length_take_le _ _, ?_⟩
    simp only [List.take_eq_nil_iff, Nat.ne_of_gt hs, Nat.ne_of_gt hk.1, hin, false_or, and_false]

/-- What a step does, one case for each way to take one. -/
inductive Move (s : Relay) : Action → Relay → Prop
  | deviceData (a : Arrival) (hroom : s.rx.length < QUEUE_SIZE) :
      Move s (.deviceData a) { s with rx := s.rx ++ [a] }
  | writerTakes (hne : s.wTx ≠ []) : Move s .writerTakes { s with wTx := s.wTx.tail }
  | otherSends (p : UsbDevicePacket) (hroom : s.hasRoom = true) :
      Move s (.otherSends p) { s with wTx := s.wTx ++ [p] }
  | clientWrites (b : Bytes) (heof : s.clientEof = false) :
      Move s (.clientWrites b) { s with clientIn := s.clientIn ++ b }
  | clientCloses : Move s .clientCloses { s with clientEof := true }
  | cancel : Move s .cancel { s with cancelled := true }
  | acked (sendable : ℕ) (a : Arrival) (rest : List Arrival)
      (hp : s.phase = .select sendable none) (hrx : s.rx = a :: rest)
      (hroom : (s.takePacket a rest).hasRoom = true) :
      Move s .pollRecv ((s.takePacket a rest).ackSent a)
  | held (sendable : ℕ) (a : Arrival) (rest : List Arrival)
      (hp : s.phase = .select sendable none) (hrx : s.rx = a :: rest)
      (hroom : (s.takePacket a rest).hasRoom = false) :
      Move s .pollRecv { s.takePacket a rest with phase := .select sendable (some a) }
  | pollAck (sendable : ℕ) (a : Arrival) (hp : s.phase = .select sendable (some a))
      (hroom : s.hasRoom = true) : Move s .pollAck (s.ackSent a)
  | recvFails (sendable : ℕ) (held : Option Arrival) (hp : s.phase = .select sendable held) :
      Move s .recvFails { s with phase := .ended }
  | pollClient (k sendable : ℕ) (held : Option Arrival) (packet : Bytes) (u : Relay)
      (hp : s.phase = .select sendable held) (hpos : 0 < sendable)
      (hu : s.clientRead sendable k = some (packet, u)) :
      Move s (.pollClient k) (u.clientPacket packet)
  | clientReadFails (sendable : ℕ) (held : Option Arrival) (hp : s.phase = .select sendable held)
      (hpos : 0 < sendable) (hbuf : s.readBuf = []) :
      Move s .clientReadFails { s with phase := .ended }
  | pollShutdown (sendable : ℕ) (held : Option Arrival) (hp : s.phase = .select sendable held)
      (hcancelled : s.cancelled = true) : Move s .pollShutdown { s with phase := .ended }
  | clientTakes (k : ℕ) (remaining : Bytes) (hp : s.phase = .clientSend remaining) (hpos : 0 < k)
      (hle : k ≤ remaining.length) :
      Move s (.clientTakes k) { s with
        clientOut := s.clientOut ++ remaining.take k
        phase := .clientSend (remaining.drop k) }
  | clientSendDone (hp : s.phase = .clientSend []) : Move s .clientSendDone s.loop
  | clientSendFails (remaining : Bytes) (hp : s.phase = .clientSend remaining) :
      Move s .clientSendFails { s with phase := .ended }
  | sendDone (packet : UsbDevicePacket) (hp : s.phase = .sendBytes packet)
      (hroom : s.hasRoom = true) :
      Move s .sendDone (loop { s with
        wTx := s.wTx ++ [packet]
        conn := s.conn.packetSent packet
        sentTotal := s.sentTotal+packet.payload.len })
  | sendFails (packet : UsbDevicePacket) (hp : s.phase = .sendBytes packet) :
      Move s .sendFails { s with phase := .ended }
  | closeDone (hp : s.phase = .closing) (hroom : s.hasRoom = true) :
      Move s .closeDone { s with wTx := s.wTx ++ [s.conn.rstPacket], phase := .ended }

theorem move_of_step {s t : Relay} {action : Action} (h : s.step action = some t) :
    Move s action t := by
  cases action with
  | deviceData a =>
    simp only [step] at h
    split_ifs at h with hroom
    cases h
    exact .deviceData a hroom
  | writerTakes =>
    simp only [step] at h
    split_ifs at h with hnil
    cases h
    exact .writerTakes hnil
  | otherSends p =>
    simp only [step] at h
    split_ifs at h with hroom
    cases h
    exact .otherSends p hroom
  | clientWrites b =>
    simp only [step] at h
    split_ifs at h with heof
    cases h
    exact .clientWrites b (Bool.eq_false_iff.mpr heof)
  | clientCloses =>
    cases h
    exact .clientCloses
  | cancel =>
    cases h
    exact .cancel
  | pollRecv =>
    simp only [step] at h
    split at h
    -- the acknowledgment goes out at once, or the future of the arm holds it
    next sendable a rest hp hrx =>
      split_ifs at h with hroom
      · cases h
        exact .acked sendable a rest hp hrx hroom
      · cases h
        exact .held sendable a rest hp hrx (Bool.eq_false_iff.mpr hroom)
    next => cases h
  | pollAck =>
    simp only [step] at h
    split at h
    next sendable a hp =>
      split_ifs at h with hroom
      cases h
      exact .pollAck sendable a hp hroom
    next => cases h
  | recvFails =>
    simp only [step] at h
    split at h
    next sendable held hp =>
      cases h
      exact .recvFails sendable held hp
    next => cases h
  | pollClient k =>
    simp only [step] at h
    split at h
    next sendable held hp =>
      split_ifs at h with hpos
      obtain ⟨⟨packet, u⟩, hu, rfl⟩ := Option.map_eq_some_iff.mp h
      exact .pollClient k sendable held packet u hp hpos hu
    next => cases h
  | clientReadFails =>
    simp only [step] at h
    split at h
    next sendable held hp =>
      split_ifs at h with hread
      cases h
      exact .clientReadFails sendable held hp hread.1 hread.2
    next => cases h
  | pollShutdown =>
    simp only [step] at h
    split at h
    next sendable held hp =>
      split_ifs at h with hcancelled
      cases h
      exact .pollShutdown sendable held hp hcancelled
    next => cases h
  | clientTakes k =>
    simp only [step] at h
    split at h
    next remaining hp =>
      split_ifs at h with hk
      cases h
      exact .clientTakes k remaining hp hk.1 hk.2
    next => cases h
  | clientSendDone =>
    simp only [step] at h
    split at h
    next hp =>
      cases h
      exact .clientSendDone hp
    next => cases h
  | clientSendFails =>
    simp only [step] at h
    split at h
    next remaining hp =>
      cases h
      exact .clientSendFails remaining hp
    next => cases h
  | sendDone =>
    simp only [step] at h
    split at h
    next packet hp =>
      split_ifs at h with hroom
      cases h
      exact .sendDone packet hp hroom
    next => cases h
  | sendFails =>
    simp only [step] at h
    split at h
    next packet hp =>
      cases h
      exact .sendFails packet hp
    next => cases h
  | closeDone =>
    simp only [step] at h
    split at h
    next hp =>
      split_ifs at h with hroom
      cases h
      exact .closeDone hp hroom
    next => cases h

end Relay

end Rusbmux
