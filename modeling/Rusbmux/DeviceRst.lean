import Rusbmux.RouterOwners
import Rusbmux.ClientHandler

/-! The RST of a device, from the reader loop of src/device/usb.rs to the router,
the connections of src/conn/usb.rs and the clients of src/handler/connect.rs. -/
namespace Rusbmux

/-- How far the connection of a queue is. -/
inductive ConnLink where
  /-- In `UsbDeviceConn::new`, before its SYN is sent. -/
  | connecting (sourcePort destinationPort : UInt16)
  /-- The SYN is sent and the reply awaited. -/
  | opening (sourcePort destinationPort : UInt16)
  /-- The reply is taken, and the ACK waits for room. -/
  | acking (conn : UsbDeviceConn) (tcpAck : UsbDevicePacket)
  | opened (conn : UsbDeviceConn)
  /-- `new` has failed, or the connection is closed or dropped. -/
  | ended

namespace ConnLink

/-- The port that the device sends to, of a connection being opened or open. -/
def sourcePort : ConnLink → Option UInt16
  | connecting sourcePort _ | opening sourcePort _ => some sourcePort
  | acking conn _ | opened conn => some conn.sourcePort
  | ended => none

def BeingOpened : ConnLink → Prop
  | connecting _ _ | opening _ _ | acking _ _ => True
  | opened _ | ended => False

end ConnLink

/-- The connections are numbered as their queues are. `sent` and `told` are no
part of the program: the packets that each connection has put on the channel of
the writer loop, and the results that the client of each was sent. -/
structure DeviceRst where
  router : RouterLock
  nextSourcePort : UInt16
  links : KeyTable ℕ ConnLink
  wTx : List UsbDevicePacket
  /-- The writer loop runs. -/
  writing : Bool
  sent : List (ℕ × UsbDevicePacket)
  told : List (ℕ × ResultCode)

namespace DeviceRst

open RouterLock (isRst routePort ByOwner ByReader Running Unrouted)
open PortRouting (queued)

-- the shard that a port is hashed to
variable (shard : UInt16 → ℕ)

/-- What the owner of a connection does. -/
inductive ConnAction where
  | syn
  /-- The `send` or the `recv` that `new` awaits gives an error. -/
  | connectFails
  /-- `new` receives the reply to its SYN. -/
  | synAck
  | ackSent
  /-- The relay receives a packet, with room for the ACK of it. -/
  | recv
  /-- The relay sends what it has read from the client. -/
  | clientPacket (value : Bytes)
  /-- `close_all` -/
  | sendRst
  /-- The RST of `close` or of the destructor is sent, and `unregister` is called. -/
  | close
  /-- The RST of the destructor is not sent, and nothing is unregistered. -/
  | drop
  | unregister
  | freeReceiver

inductive Action where
  /-- The reader loop gets a packet; an RST is dropped. -/
  | packetArrives (packet : UsbDevicePacket)
  | pollSend
  | connect (destinationPort : UInt16)
  | connectFrom (destinationPort sourcePort : UInt16) (sentBytes receivedBytes : UInt32)
    (deviceLastWindowSize : UInt16) (deviceLastReceivedBytes : UInt32)
  | conn (q : ℕ) (a : ConnAction)
  /-- `unregister` of a port by anybody, as in `cleanup_conn`. -/
  | unregister (port : UInt16)
  /-- `router.clear()` in `close_all`. -/
  | clear
  | writerTakes
  | stopWriter

def hasRoom (s : DeviceRst) : Bool := s.writing && decide (s.wTx.length < QUEUE_SIZE)

/-- What a step of an owner leaves: the router, the connection, the packets put
on the channel of the writer loop, and the results sent to the client. -/
structure Turn where
  router : RouterLock
  link : ConnLink
  sends : List UsbDevicePacket
  tells : List ResultCode

/-- `connect` returns an error, and the receiver is dropped. -/
def refuse (router : RouterLock) (q : ℕ) (e : RusbmuxError) : Option Turn :=
  (router.step shard (.freeReceiver q)).map fun r => ⟨r, .ended, [], [connectErrorCode e]⟩

def turn (s : DeviceRst) (q : ℕ) : ConnLink → ConnAction → Option Turn
  | .connecting sourcePort destinationPort, .syn =>
    if s.hasRoom then
      some ⟨s.router, .opening sourcePort destinationPort,
        [UsbDeviceConn.tcpSyn sourcePort destinationPort], []⟩
    else none
  | .connecting _ _, .connectFails | .acking _ _, .connectFails =>
    if s.writing then none else refuse shard s.router q (.channel "sending on a closed channel")
  | .opening _ _, .connectFails =>
    if queued s.router q = [] ∧ s.router.hasSender q = false then
      refuse shard s.router q (.channel "receiving on a closed channel")
    else none
  | .opening sourcePort destinationPort, .synAck => match queued s.router q with
    | [] => none
    | tcpSynAck :: _ => (s.router.step shard (.recv q)).bind fun r =>
      match UsbDeviceConn.new sourcePort destinationPort tcpSynAck with
      | .ok (tcpAck, conn) => some ⟨r, .acking conn tcpAck, [], []⟩
      | .error e => refuse shard r q e
  | .acking conn tcpAck, .ackSent =>
    if s.hasRoom then some ⟨s.router, .opened conn, [tcpAck], [.ok]⟩ else none
  | .opened conn, .recv => match queued s.router q with
    | [] => none
    | response :: _ =>
      if s.hasRoom then
        (s.router.step shard (.recv q)).map fun r =>
          ⟨r, .opened (conn.recv response).1, [(conn.recv response).2], []⟩
      else none
  | .opened conn, .clientPacket value =>
    if value ≠ [] ∧ value.length ≤ conn.sendableBytes ∧ s.hasRoom = true then
      let packet := conn.bytesPacket value
      some ⟨s.router, .opened (conn.packetSent packet), [packet], []⟩
    else none
  | .opened conn, .sendRst =>
    if s.hasRoom then some ⟨s.router, .opened conn, [conn.rstPacket], []⟩ else none
  | .opened conn, .close =>
    if s.hasRoom then
      (s.router.step shard (.callUnregister q)).map fun r => ⟨r, .ended, [conn.rstPacket], []⟩
    else none
  | .opened _, .drop =>
    if s.hasRoom then none
    else (s.router.step shard (.freeReceiver q)).map fun r => ⟨r, .ended, [], []⟩
  | .ended, .unregister => (s.router.step shard (.unregister q)).map fun r => ⟨r, .ended, [], []⟩
  | .ended, .freeReceiver =>
    (s.router.step shard (.freeReceiver q)).map fun r => ⟨r, .ended, [], []⟩
  | _, _ => none

def put (s : DeviceRst) (q : ℕ) (u : Turn) : DeviceRst :=
  { s with
    router := u.router
    links := s.links.insert q u.link
    wTx := s.wTx ++ u.sends
    sent := s.sent ++ u.sends.map fun packet => (q, packet)
    told := s.told ++ u.tells.map fun code => (q, code) }

/-- A new queue for the port, and the connection that receives from it. -/
def register (s : DeviceRst) (port : UInt16) (link : ConnLink) : Option DeviceRst :=
  (s.router.step shard (.register port)).map fun r =>
    { s with router := r, links := s.links.insert s.router.nextQueue link }

def step (s : DeviceRst) : Action → Option DeviceRst
  | .packetArrives packet =>
    (s.router.step shard (.packetArrives packet)).map fun r => { s with router := r }
  | .pollSend => (s.router.step shard .pollSend).map fun r => { s with router := r }
  | .connect destinationPort =>
    let s' := { s with nextSourcePort := s.nextSourcePort+1 }
    -- the client without a connection is told another result
    if s.nextSourcePort = 0 then some s'
    else s'.register shard s.nextSourcePort (.connecting s.nextSourcePort destinationPort)
  | .connectFrom destinationPort sourcePort sentBytes receivedBytes window received =>
    s.register shard sourcePort (.opened
      (.newFrom destinationPort sourcePort sentBytes receivedBytes window received))
  | .conn q a => (s.links.get q).bind fun link => (turn shard s q link a).map (s.put q)
  | .unregister port =>
    if s.router.guarded shard (shard port) then none
    else some { s with router := { s.router with conns := s.router.conns.unregister port } }
  | .clear => match s.router.reader with
    | .reading => some { s with router := { s.router with conns := .empty } }
    | _ => none
  | .writerTakes =>
    if s.writing && !s.wTx.isEmpty then some { s with wTx := s.wTx.tail } else none
  | .stopWriter => some { s with writing := false }

/-- A device just created. -/
def new : DeviceRst where
  router := .new
  nextSourcePort := 1
  links := .empty
  wTx := []
  writing := true
  sent := []
  told := []

/-- The data packets that the connection has put on the channel. -/
def dataSent (s : DeviceRst) (q : ℕ) : List UsbDevicePacket :=
  (s.sent.filter fun p => p.1 = q ∧ 0 < p.2.payload.len).map Prod.snd

/-- A receive on the queue of the connection waits. -/
def Waits (s : DeviceRst) (q : ℕ) : Prop := queued s.router q = [] ∧ s.router.hasSender q = true

/-- The client is told that the connection stands. -/
def Accepts (q : ℕ) (s : DeviceRst) : Prop := (q, .ok) ∈ s.told

def Refuses (q : ℕ) (s : DeviceRst) : Prop := (q, .connectionRefused) ∈ s.told

/-- The connection is at an end: what holds of it from here on, whatever the
device, the client and all tasks do. -/
structure Ended (s : DeviceRst) (q : ℕ) : Prop where
  gone : ∀ port, s.router.conns.get port ≠ some q
  silent : ∀ as t, StepSystem.after (step shard) s as = some t → t.dataSent q = s.dataSent q
  fails : ∀ as t, StepSystem.after (step shard) s as = some t → ¬ t.Waits q
  refused : ∀ link, s.links.get q = some link → link.BeingOpened → ∀ as t,
    StepSystem.after (step shard) s as = some t →
      (∀ code, (q, code) ∈ t.told → code = .connectionRefused) ∧
        StepSystem.CanReach (step shard) (Refuses q) t

/-- An RST for a connection being opened or open ends it. -/
def RstEnds (s : DeviceRst) : Action → Prop
  | .packetArrives packet => isRst packet = true → ∀ q link, s.links.get q = some link →
    link.sourcePort = some (routePort packet) → ∀ t,
      s.step shard (.packetArrives packet) = some t → Ended shard t q
  | _ => True

/-- A connection without a sender comes to nothing: the writer loop has ended,
or there is no reply to its SYN in the queue, or the device takes no data. -/
def Doomed (s : DeviceRst) (q : ℕ) : ConnLink → Prop
  | .connecting _ _ | .opening _ _ => s.writing = true →
    ∀ packet, (queued s.router q).head? = some packet → packet.tcpHdr = none
  | .acking _ _ => s.writing = false
  | .opened conn => s.writing = true →
    ∀ n, (conn.recvAll ((queued s.router q).take n)).1.sendableBytes = 0
  | .ended => True

/-- An RST for a connection comes when the router has lost it anyhow. -/
def RstTooLate (s : DeviceRst) : Action → Prop
  | .packetArrives packet => isRst packet = true → ∀ q link, s.links.get q = some link →
    link.sourcePort = some (routePort packet) →
      (∀ port, s.router.conns.get port ≠ some q) ∧ s.Doomed q link
  | _ => True

/-- What a run keeps. -/
structure Inv (s : DeviceRst) : Prop where
  linked : s.router.Linked
  fresh : ∀ q link, s.links.get q = some link → q < s.router.nextQueue
  running : ∀ q link, s.links.get q = some link → link ≠ .ended → Running s.router q
  told : ∀ q code, (q, code) ∈ s.told →
    ∃ link, s.links.get q = some link ∧ ¬ link.BeingOpened

theorem inv_new : Inv new := by
  refine ⟨RouterLock.linked_new, ?_, ?_, ?_⟩
  · intro q link h
    cases h
  · intro q link h
    cases h
  · intro q code h
    cases h

/-- What a step of an owner does. -/
inductive Move (s : DeviceRst) (q : ℕ) : ConnLink → Turn → Prop where
  | syn (sourcePort destinationPort : UInt16) (room : s.hasRoom = true) :
    Move s q (.connecting sourcePort destinationPort) ⟨s.router,
      .opening sourcePort destinationPort,
      [UsbDeviceConn.tcpSyn sourcePort destinationPort], []⟩
  | synAck (sourcePort destinationPort : UInt16) (tcpSynAck tcpAck : UsbDevicePacket)
    (rest : List UsbDevicePacket) (conn : UsbDeviceConn) (r : RouterLock)
    (queue : queued s.router q = tcpSynAck :: rest)
    (received : s.router.step shard (.recv q) = some r)
    (reply : UsbDeviceConn.new sourcePort destinationPort tcpSynAck = .ok (tcpAck, conn)) :
    Move s q (.opening sourcePort destinationPort) ⟨r, .acking conn tcpAck, [], []⟩
  | ackSent (conn : UsbDeviceConn) (tcpAck : UsbDevicePacket) (room : s.hasRoom = true) :
    Move s q (.acking conn tcpAck) ⟨s.router, .opened conn, [tcpAck], [.ok]⟩
  /-- At an error of a send or a receive, or with a reply that is none. -/
  | refused (link : ConnLink) (r r' : RouterLock) (opened : link.BeingOpened)
    (reader : r = s.router ∨ s.router.step shard (.recv q) = some r)
    (freed : r.step shard (.freeReceiver q) = some r') :
    Move s q link ⟨r', .ended, [], [.connectionRefused]⟩
  | recv (conn : UsbDeviceConn) (response : UsbDevicePacket) (rest : List UsbDevicePacket)
    (r : RouterLock) (queue : queued s.router q = response :: rest)
    (received : s.router.step shard (.recv q) = some r) :
    Move s q (.opened conn) ⟨r, .opened (conn.recv response).1, [(conn.recv response).2], []⟩
  | clientPacket (conn : UsbDeviceConn) (value : Bytes) (nonempty : value ≠ [])
    (fits : value.length ≤ conn.sendableBytes) (room : s.hasRoom = true) :
    Move s q (.opened conn) ⟨s.router, .opened (conn.packetSent (conn.bytesPacket value)),
      [conn.bytesPacket value], []⟩
  | sendRst (conn : UsbDeviceConn) :
    Move s q (.opened conn) ⟨s.router, .opened conn, [conn.rstPacket], []⟩
  | close (conn : UsbDeviceConn) (r : RouterLock)
    (called : s.router.step shard (.callUnregister q) = some r) :
    Move s q (.opened conn) ⟨r, .ended, [conn.rstPacket], []⟩
  | unregister (r : RouterLock) (gone : s.router.step shard (.unregister q) = some r) :
    Move s q .ended ⟨r, .ended, [], []⟩
  | freeReceiver (link : ConnLink) (r : RouterLock) (notOpened : ¬ link.BeingOpened)
    (freed : s.router.step shard (.freeReceiver q) = some r) :
    Move s q link ⟨r, .ended, [], []⟩

/-- What a step of an owner keeps. -/
structure TurnSpec (s : DeviceRst) (q : ℕ) (link : ConnLink) (u : Turn) : Prop where
  router : ByOwner q s.router u.router
  running : u.link ≠ .ended → Running u.router q
  told : ¬ link.BeingOpened ∨ u.tells ≠ [] → ¬ u.link.BeingOpened

section

variable {shard} {s t : DeviceRst} {q j : ℕ} {link : ConnLink} {u : Turn} {r : RouterLock}

theorem new_error {sourcePort destinationPort : UInt16} {packet : UsbDevicePacket}
    {e : RusbmuxError} (h : UsbDeviceConn.new sourcePort destinationPort packet = .error e) :
    connectErrorCode e = .connectionRefused := by
  unfold UsbDeviceConn.new at h
  split at h <;> cases h
  rfl

theorem move_of_refuse {e : RusbmuxError} (hopened : link.BeingOpened)
    (he : connectErrorCode e = .connectionRefused)
    (hr : r = s.router ∨ s.router.step shard (.recv q) = some r)
    (h : refuse shard r q e = some u) : Move shard s q link u := by
  obtain ⟨r', hfreed, rfl⟩ := Option.map_eq_some_iff.mp h
  rw [he]
  exact .refused link r r' hopened hr hfreed

theorem move_of_turn {a : ConnAction} (h : turn shard s q link a = some u) :
    Move shard s q link u := by
  unfold turn at h
  split at h
  next =>
    -- the SYN is sent
    split_ifs at h with hroom
    cases h
    exact .syn _ _ hroom
  next =>
    -- the SYN cannot be sent
    split_ifs at h
    exact move_of_refuse trivial rfl (.inl rfl) h
  next =>
    -- the ACK cannot be sent
    split_ifs at h
    exact move_of_refuse trivial rfl (.inl rfl) h
  next =>
    -- the reply does not come
    split_ifs at h
    exact move_of_refuse trivial rfl (.inl rfl) h
  next =>
    -- the reply is received
    split at h
    next => cases h
    next hqueue =>
      obtain ⟨r, hrecv, h⟩ := Option.bind_eq_some_iff.mp h
      split at h
      next hnew =>
        cases h
        exact .synAck _ _ _ _ _ _ _ hqueue hrecv hnew
      next hnew => exact move_of_refuse trivial (new_error hnew) (.inr hrecv) h
  next =>
    -- the ACK is sent
    split_ifs at h with hroom
    cases h
    exact .ackSent _ _ hroom
  next =>
    -- the relay receives
    split at h
    next => cases h
    next hqueue =>
      split_ifs at h
      obtain ⟨r, hrecv, rfl⟩ := Option.map_eq_some_iff.mp h
      exact .recv _ _ _ _ hqueue hrecv
  next =>
    -- the relay sends
    split_ifs at h with hsend
    cases h
    exact .clientPacket _ _ hsend.1 hsend.2.1 hsend.2.2
  next =>
    -- `close_all`
    split_ifs at h
    cases h
    exact .sendRst _
  next =>
    -- `close`
    split_ifs at h
    obtain ⟨r, hr, rfl⟩ := Option.map_eq_some_iff.mp h
    exact .close _ _ hr
  next =>
    -- the destructor, without an RST
    split_ifs at h
    obtain ⟨r, hr, rfl⟩ := Option.map_eq_some_iff.mp h
    exact .freeReceiver _ _ id hr
  next =>
    obtain ⟨r, hr, rfl⟩ := Option.map_eq_some_iff.mp h
    exact .unregister _ hr
  next =>
    obtain ⟨r, hr, rfl⟩ := Option.map_eq_some_iff.mp h
    exact .freeReceiver _ _ id hr
  next => cases h

theorem TurnSpec.of_ended (h : ByOwner q s.router u.router) (hlink : u.link = .ended) :
    TurnSpec s q link u := by
  refine ⟨h, fun hne => absurd hlink hne, fun _ => ?_⟩
  rw [hlink]
  exact id

theorem TurnSpec.of_router_eq (hs : Inv s) (hq : s.links.get q = some link)
    (hlink : link ≠ .ended) (hr : u.router = s.router)
    (htold : ¬ link.BeingOpened ∨ u.tells ≠ [] → ¬ u.link.BeingOpened) :
    TurnSpec s q link u := by
  refine ⟨?_, fun _ => ?_, htold⟩
  · rw [hr]
    exact .refl hs.linked
  · rw [hr]
    exact hs.running q link hq hlink

theorem Move.spec (h : Move shard s q link u) (hs : Inv s) (hq : s.links.get q = some link) :
    TurnSpec s q link u := by
  cases h with
  | syn =>
    exact .of_router_eq hs hq nofun rfl fun htold => htold.elim (absurd trivial) (absurd rfl)
  | synAck sourcePort destinationPort tcpSynAck tcpAck rest conn r hqueue hrecv =>
    obtain ⟨hr, hrunning⟩ := RouterLock.byOwner_recv hs.linked hrecv
    exact ⟨hr, fun _ => hrunning, fun htold => htold.elim (absurd trivial) (absurd rfl)⟩
  | refused link r r' hopened hreader hfreed =>
    have hr : ByOwner q s.router r := by
      rcases hreader with rfl | hrecv
      · exact .refl hs.linked
      · exact (RouterLock.byOwner_recv hs.linked hrecv).1
    exact .of_ended (hr.trans (RouterLock.byOwner_freeReceiver hr.linked hfreed)) rfl
  | ackSent | clientPacket | sendRst => exact .of_router_eq hs hq nofun rfl fun _ => id
  | recv conn response rest r hqueue hrecv =>
    obtain ⟨hr, hrunning⟩ := RouterLock.byOwner_recv hs.linked hrecv
    exact ⟨hr, fun _ => hrunning, fun _ => id⟩
  | close conn r hcalled =>
    exact .of_ended (RouterLock.byOwner_callUnregister hs.linked hcalled) rfl
  | unregister r hgone => exact .of_ended (RouterLock.byOwner_unregister hs.linked hgone) rfl
  | freeReceiver link r hover hfreed =>
    exact .of_ended (RouterLock.byOwner_freeReceiver hs.linked hfreed) rfl

theorem Inv.put (hs : Inv s) (hq : s.links.get q = some link) (hu : TurnSpec s q link u) :
    Inv (s.put q u) := by
  have hother {j : ℕ} {l : ConnLink} (hj : (s.put q u).links.get j = some l) :
      (j = q ∧ l = u.link) ∨ (j ≠ q ∧ s.links.get j = some l) := by
    unfold DeviceRst.put at hj
    rw [KeyTable.get_insert] at hj
    split_ifs at hj with hjq
    · exact .inl ⟨hjq, (Option.some.inj hj).symm⟩
    · exact .inr ⟨hjq, hj⟩
  refine ⟨hu.router.linked, fun j l hj => ?_, fun j l hj hl => ?_, fun j code hj => ?_⟩
  · change j < u.router.nextQueue
    rw [hu.router.next]
    rcases hother hj with ⟨rfl, -⟩ | ⟨-, hj⟩
    · exact hs.fresh j link hq
    · exact hs.fresh j l hj
  · rcases hother hj with ⟨rfl, rfl⟩ | ⟨hne, hj⟩
    · exact hu.running hl
    · exact hu.router.running hne (hs.running j l hj hl)
  · have hnow : (s.put q u).links.get q = some u.link := KeyTable.get_insert_self _ _ _
    rcases List.mem_append.mp hj with hj | hj
    · obtain ⟨l, hl, hover⟩ := hs.told j code hj
      by_cases hjq : j = q
      · subst hjq
        rw [hq] at hl
        cases hl
        exact ⟨u.link, hnow, hu.told (.inl hover)⟩
      · exact ⟨l, (KeyTable.get_insert_of_ne _ _ hjq).trans hl, hover⟩
    · obtain ⟨code', hcode, he⟩ := List.mem_map.mp hj
      cases he
      exact ⟨u.link, hnow, hu.told (.inr (List.ne_nil_of_mem hcode))⟩

theorem Inv.byReader (hs : Inv s) (hr : ByReader s.router r) : Inv { s with router := r } :=
  ⟨hr.linked, fun q l hq => hr.next ▸ hs.fresh q l hq,
    fun q l hq hl => hr.running q (hs.running q l hq hl), hs.told⟩

theorem Inv.register {port : UInt16} (hs : Inv s) (hst : s.register shard port link = some t) :
    Inv t := by
  obtain ⟨r, hr, rfl⟩ := Option.map_eq_some_iff.mp hst
  have hreg := RouterLock.registers_of_step hs.linked hr
  have hold {q : ℕ} {l : ConnLink} (hq : (s.links.insert s.router.nextQueue link).get q = some l) :
      q = s.router.nextQueue ∨ s.links.get q = some l := by
    rw [KeyTable.get_insert] at hq
    split_ifs at hq with hnew
    · exact .inl hnew
    · exact .inr hq
  refine ⟨hreg.linked, fun q l hq => ?_, fun q l hq hl => ?_, fun q code hq => ?_⟩
  · change q < r.nextQueue
    rw [hreg.next]
    rcases hold hq with rfl | hq
    · exact Nat.lt_succ_self _
    · exact Nat.lt_succ_of_lt (hs.fresh q l hq)
  · rcases hold hq with rfl | hq
    · exact hreg.running
    · obtain ⟨c, hc, hrun⟩ := hs.running q l hq hl
      exact ⟨c, (hreg.other q (hs.fresh q l hq)).trans hc, hrun⟩
  · obtain ⟨l, hl, hover⟩ := hs.told q code hq
    have hne : q ≠ s.router.nextQueue := Nat.ne_of_lt (hs.fresh q l hl)
    exact ⟨l, (KeyTable.get_insert_of_ne _ _ hne).trans hl, hover⟩

/-- A step that touches neither the router nor a connection. -/
theorem Inv.congr (hs : Inv s) (hrouter : t.router = s.router) (hlinks : t.links = s.links)
    (htold : t.told = s.told) : Inv t := by
  refine ⟨?_, ?_, ?_, ?_⟩
  · rw [hrouter]
    exact hs.linked
  · rw [hrouter, hlinks]
    exact hs.fresh
  · rw [hrouter, hlinks]
    exact hs.running
  · rw [hlinks, htold]
    exact hs.told

theorem Inv.conns {conns : PacketRouter} (hs : Inv s)
    (hless : ∀ port j, conns.get port = some j → s.router.conns.get port = some j) :
    Inv { s with router := { s.router with conns := conns } } :=
  ⟨hs.linked.conns hless, hs.fresh, hs.running, hs.told⟩

theorem Inv.step {a : Action} (hs : Inv s) (hst : s.step shard a = some t) : Inv t := by
  cases a with
  | packetArrives packet =>
    obtain ⟨r, hr, rfl⟩ := Option.map_eq_some_iff.mp hst
    exact hs.byReader (RouterLock.byReader_packetArrives hs.linked hr)
  | pollSend =>
    obtain ⟨r, hr, rfl⟩ := Option.map_eq_some_iff.mp hst
    exact hs.byReader (RouterLock.byReader_pollSend hs.linked hr)
  | connect destinationPort =>
    have hs' : Inv { s with nextSourcePort := s.nextSourcePort+1 } := hs.congr rfl rfl rfl
    simp only [DeviceRst.step] at hst
    split_ifs at hst
    · cases hst
      exact hs'
    · exact hs'.register hst
  | connectFrom => exact hs.register hst
  | conn q a =>
    obtain ⟨link, hq, hst⟩ := Option.bind_eq_some_iff.mp hst
    obtain ⟨u, hu, rfl⟩ := Option.map_eq_some_iff.mp hst
    exact hs.put hq ((move_of_turn hu).spec hs hq)
  | unregister port =>
    simp only [DeviceRst.step] at hst
    split_ifs at hst
    cases hst
    exact hs.conns (RouterLock.unregister_less _ port)
  | clear =>
    simp only [DeviceRst.step] at hst
    split at hst <;> cases hst
    exact hs.conns nofun
  | writerTakes =>
    simp only [DeviceRst.step] at hst
    split_ifs at hst
    cases hst
    exact hs.congr rfl rfl rfl
  | stopWriter =>
    cases hst
    exact hs.congr rfl rfl rfl

end

end DeviceRst

end Rusbmux
