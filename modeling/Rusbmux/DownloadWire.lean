import Rusbmux.DeviceOpen
import Rusbmux.RelayLoss
import Rusbmux.RouterLock
import Rusbmux.TransferRouting

/-! The device's bytes on their way to a client: the bulk transfers, the reader
loop, the queue of one connection in the router, and the relay behind it. -/
namespace Rusbmux

namespace TransferLoop

/-- The packet that the loop gives to the router when it goes on. -/
def routes (s : TransferLoop) : Option UsbDevicePacket :=
  match s.task with
  | .returned (.ok packet) => if packet.isRst then none else some packet
  | _ => none

end TransferLoop

/-- The queue of the connection is that of the relay. -/
structure DownloadWire where
  reader : TransferLoop
  relay : Relay

namespace DownloadWire

variable (codec : TcpCodec) (port : UInt16)

inductive Action where
  | poll (early : Bool)
  | complete
  /-- The reader loop goes on. A packet that it routes to the connection was sent
  when the device had received so many bytes of it. -/
  | advance (acked : ℕ)
  | relay (a : Relay.Action)

def toPort (p : UsbDevicePacket) : Bool := RouterLock.routePort p == port

/-- The packet that the loop is about to put on the queue. -/
def routing (s : DownloadWire) : Option UsbDevicePacket := s.reader.routes.filter (toPort port)

def step (s : DownloadWire) : Action → Option DownloadWire
  | .poll early => (s.reader.step codec (.poll early)).map fun reader => { s with reader := reader }
  | .complete => (s.reader.step codec .complete).map fun reader => { s with reader := reader }
  | .advance acked => (s.reader.step codec .advance).bind fun reader =>
    match s.routing port with
    | none => some { s with reader := reader }
    | some packet =>
      -- the receiver is gone, and `route` drops the packet
      if s.relay.phase = .ended then some { s with reader := reader }
      -- `route` waits for room on the queue, and with it the whole loop
      else (s.relay.step (.deviceData ⟨packet, acked⟩)).map fun relay => ⟨reader, relay⟩
  -- only the loop puts packets on the queue
  | .relay (.deviceData _) => none
  | .relay a => (s.relay.step a).map fun relay => { s with relay := relay }

/-- The packets of the connection that the relay has got or is to get. -/
def queued (s : DownloadWire) : List UsbDevicePacket :=
  s.relay.taken ++ s.relay.rx.map Arrival.packet

/-- The client gets the payloads of the packets in their order and without a gap,
and all of them once the loop waits behind the last transfer and the relay for the
next packet. -/
structure Delivers (packets : List UsbDevicePacket) (s : DownloadWire) : Prop where
  bytes : s.relay.clientOut <+: Relay.payloads packets
  complete : ∀ n got next sendable, s.reader.task = .reading n got next → got.length < n →
    s.reader.polls.reader.left = [] → s.reader.polls.waiting = [] →
      s.relay.phase = .select sendable none → s.relay.rx = [] →
        s.relay.clientOut = Relay.payloads packets

/-- The client arm does not win while `conn.recv()` holds bytes for the client. -/
def KeepsHeld (s : DownloadWire) : Action → Prop
  | .relay a => s.relay.KeepsHeld a
  | _ => True

end DownloadWire

namespace TransferLoop

variable {codec : TcpCodec} {s t : TransferLoop}

theorem routed_poll {early : Bool} (h : s.step codec (.poll early) = some t) :
    t.loop.routed = s.loop.routed := by
  simp only [step] at h
  split at h
  next n got next htask =>
    split_ifs at h with hlt
    obtain ⟨⟨p, polls⟩, -, rfl⟩ := Option.map_eq_some_iff.mp h
    cases p with
    | pending => rfl
    | ready o =>
      cases o with
      | error e => rfl
      | ok data =>
        simp only [gets]
        split_ifs <;> rfl
  next => cases h

theorem routed_complete (h : s.step codec .complete = some t) :
    t.loop.routed = s.loop.routed := by
  obtain ⟨polls, -, rfl⟩ := Option.map_eq_some_iff.mp h
  rfl

theorem routed_advance (h : s.step codec .advance = some t) :
    t.loop.routed = s.loop.routed ++ s.routes.toList := by
  simp only [step] at h
  unfold routes
  split at h
  next n got next htask =>
    split_ifs at h with hlt
    cases h
    rw [htask]
    exact (List.append_nil s.loop.routed).symm
  next o htask =>
    cases h
    rw [htask]
    cases o with
    | ok packet => exact ReaderLoop.handle_routed s.loop packet
    | err e => cases e <;> exact (List.append_nil s.loop.routed).symm
    | fault => exact (List.append_nil s.loop.routed).symm
  next => cases h

end TransferLoop

namespace Relay

variable {s t : Relay} {action : Action}

/-- Only the router puts packets on the queue, and those that leave it are taken. -/
theorem queued_of_step (ha : ∀ a, action ≠ .deviceData a) (h : s.step action = some t) :
    t.taken ++ t.rx.map Arrival.packet = s.taken ++ s.rx.map Arrival.packet := by
  cases move_of_step h with
  | deviceData a => exact absurd rfl (ha a)
  | acked sendable a rest hp hrx =>
    rw [hrx]
    exact List.append_assoc s.taken [a.packet] _
  | held sendable a rest hp hrx =>
    rw [hrx]
    exact List.append_assoc s.taken [a.packet] _
  | pollClient k sendable held packet u hp hpos hu =>
    have hr := clientRead_reads hpos hu
    rw [← hr.taken, ← hr.rx]
    unfold clientPacket
    split_ifs <;> rfl
  | _ => rfl

/-- A relay that has ended does not go on. -/
theorem phase_ne_ended_of_step (h : s.step action = some t) (ht : t.phase ≠ .ended) :
    s.phase ≠ .ended := by
  cases move_of_step h with
  | deviceData | writerTakes | otherSends | clientWrites | clientCloses | cancel => exact ht
  | _ =>
    intro hs
    simp_all

end Relay

namespace DownloadWire

variable {codec : TcpCodec} {port : UInt16} {results : List BulkRead}
  {before packets : List UsbDevicePacket} {s t : DownloadWire} {a : Action}

/-- What holds along a run; `before` are the packets that were put on the queue
and taken off it before the relay began. -/
structure Sound (codec : TcpCodec) (port : UInt16) (results : List BulkRead)
    (before : List UsbDevicePacket) (s : DownloadWire) : Prop where
  reader : s.reader.Simulates codec results
  noLoss : s.relay.NoLoss
  queued : before ++ s.queued <+: s.reader.loop.routed.filter (toPort port)
  running : s.relay.phase ≠ .ended →
    before ++ s.queued = s.reader.loop.routed.filter (toPort port)

theorem filter_routes (reader : TransferLoop) (relay : Relay) (routed : List UsbDevicePacket) :
    (routed ++ reader.routes.toList).filter (toPort port) =
      routed.filter (toPort port) ++ ((⟨reader, relay⟩ : DownloadWire).routing port).toList := by
  rw [List.filter_append, routing]
  congr 1
  cases reader.routes with
  | none => rfl
  | some packet => cases h : toPort port packet <;> simp [Option.filter, h]

/-- The loop reads on, and gives the router nothing. -/
theorem Sound.reads (h : s.Sound codec port results before) {reader : TransferLoop}
    (hr : reader.Simulates codec results) (hrouted : reader.loop.routed = s.reader.loop.routed) :
    Sound codec port results before { s with reader := reader } where
  reader := hr
  noLoss := h.noLoss
  queued := by
    rw [hrouted]
    exact h.queued
  running hp := by
    rw [hrouted]
    exact h.running hp

theorem Sound.advance (h : s.Sound codec port results before) {acked : ℕ}
    (hst : s.step codec port (.advance acked) = some t) : t.Sound codec port results before := by
  obtain ⟨reader, hreader, hst⟩ := Option.bind_eq_some_iff.mp hst
  have hsimulates := h.reader.step hreader
  have hfilter : reader.loop.routed.filter (toPort port) =
      s.reader.loop.routed.filter (toPort port) ++ (s.routing port).toList := by
    rw [TransferLoop.routed_advance hreader]
    exact filter_routes s.reader s.relay s.reader.loop.routed
  have hqueued : before ++ s.queued <+: reader.loop.routed.filter (toPort port) := by
    rw [hfilter]
    exact h.queued.trans (List.prefix_append _ _)
  cases hrouting : s.routing port with
  | none =>
    rw [hrouting] at hst hfilter
    cases hst
    refine ⟨hsimulates, h.noLoss, hqueued, fun hp => ?_⟩
    rw [hfilter]
    exact (h.running hp).trans (List.append_nil _).symm
  | some packet =>
    rw [hrouting] at hst hfilter
    dsimp only at hst
    split_ifs at hst with hended
    · cases hst
      exact ⟨hsimulates, h.noLoss, hqueued, fun hp => absurd hended hp⟩
    · obtain ⟨relay, hrelay, rfl⟩ := Option.map_eq_some_iff.mp hst
      have hnoLoss : relay.NoLoss := Relay.noLoss_step h.noLoss (fun _ _ _ ha => by cases ha) hrelay
      cases Relay.move_of_step hrelay with
      | deviceData _ hroom =>
        have hsame : before ++ (s.relay.taken ++
            (s.relay.rx ++ [(⟨packet, acked⟩ : Arrival)]).map Arrival.packet) =
              reader.loop.routed.filter (toPort port) := by
          rw [hfilter, ← h.running hended, List.map_append, ← List.append_assoc,
            ← List.append_assoc, DownloadWire.queued, List.append_assoc before]
          rfl
        exact ⟨hsimulates, hnoLoss, ⟨[], (List.append_nil _).trans hsame⟩, fun _ => hsame⟩

theorem Sound.relay (h : s.Sound codec port results before) {action : Relay.Action}
    (hk : s.relay.KeepsHeld action) (hst : s.step codec port (.relay action) = some t) :
    t.Sound codec port results before := by
  have ha : ∀ arrival, action ≠ .deviceData arrival := by
    rintro arrival rfl
    cases hst
  have hrelay : ∃ relay, s.relay.step action = some relay ∧ { s with relay := relay } = t := by
    cases action with
    | deviceData arrival => exact absurd rfl (ha arrival)
    | _ => exact Option.map_eq_some_iff.mp hst
  obtain ⟨relay, hrelay, rfl⟩ := hrelay
  have hsame : DownloadWire.queued { s with relay := relay } = s.queued :=
    Relay.queued_of_step ha hrelay
  refine ⟨h.reader, Relay.noLoss_step h.noLoss hk hrelay, ?_, fun hp => ?_⟩
  · rw [hsame]
    exact h.queued
  · rw [hsame]
    exact h.running (Relay.phase_ne_ended_of_step hrelay hp)

theorem Sound.step (h : s.Sound codec port results before) (hk : s.KeepsHeld a)
    (hst : s.step codec port a = some t) : t.Sound codec port results before := by
  cases a with
  | poll early =>
    obtain ⟨reader, hreader, rfl⟩ := Option.map_eq_some_iff.mp hst
    exact h.reads (h.reader.step hreader) (TransferLoop.routed_poll hreader)
  | complete =>
    obtain ⟨reader, hreader, rfl⟩ := Option.map_eq_some_iff.mp hst
    exact h.reads (h.reader.step hreader) (TransferLoop.routed_complete hreader)
  | advance acked => exact h.advance hst
  | relay action => exact h.relay hk hst

/-- The writer channel is no concern of what the client gets. -/
theorem Sound.channel (h : s.Sound codec port results before) (wTx : List UsbDevicePacket) :
    Sound codec port results before { s with relay := { s.relay with wTx := wTx } } :=
  ⟨h.reader, h.noLoss.frame rfl rfl rfl, h.queued, h.running⟩

/-- Once all is routed and taken, the client has got all. -/
theorem Sound.clientOut_eq (h : s.Sound codec port results before) {sendable : ℕ}
    (hphase : s.relay.phase = .select sendable none) (hrx : s.relay.rx = [])
    (hpackets : s.reader.loop.routed.filter (toPort port) = before ++ packets) :
    s.relay.clientOut = Relay.payloads packets := by
  have hrunning : s.relay.phase ≠ .ended := by
    rw [hphase]
    exact fun hc => by cases hc
  have hwhole : before ++ s.queued = before ++ packets := by
    rw [h.running hrunning, hpackets]
  have hall : s.queued = packets := List.append_cancel_left hwhole
  have htaken : s.relay.taken = packets := by
    rw [← hall, DownloadWire.queued, hrx]
    exact (List.append_nil s.relay.taken).symm
  have hdone := (h.noLoss.delivered hphase (fun hc => by cases hc) fun hc => by cases hc).total
  rw [← htaken, ← hdone]
  exact (List.append_nil s.relay.clientOut).symm

/-- What is routed to the connection from its relay's start on. -/
theorem Sound.delivers (h : s.Sound codec port results before)
    (hpackets : ((ReaderLoop.start.startReaderLoop codec
      (ReaderPolls.transferData results)).routed.filter (toPort port)) = before ++ packets) :
    s.Delivers packets := by
  have hrefines := h.reader.refines
  have hqueued : s.queued <+: packets := by
    apply (List.prefix_append_right_inj before).mp
    rw [← hpackets]
    exact h.queued.trans (hrefines.routed.filter _)
  obtain ⟨rest, hdelivered⟩ := h.noLoss.exists_delivered
  refine ⟨?_, fun n got next sendable htask hlt hleft hwaiting hphase hrx => ?_⟩
  · obtain ⟨later, rfl⟩ := hqueued
    have hout : s.relay.clientOut <+: Relay.payloads s.relay.taken :=
      ⟨rest, hdelivered.total⟩
    apply hout.trans
    rw [DownloadWire.queued, List.append_assoc, Relay.payloads, Relay.payloads, List.flatMap_append]
    exact List.prefix_append _ _
  · have hloop := hrefines.complete n got next htask hlt hleft hwaiting
    rw [hloop] at hpackets
    exact h.clientOut_eq hphase hrx hpackets

theorem sound_start (hresults : ∀ result ∈ results, result.status = 0 ∧ result.data ≠ [])
    {bs : List TransferLoop.Action} {reader : TransferLoop}
    (hreader : StepSystem.after (TransferLoop.step codec) (.start codec results) bs = some reader)
    (conn : UsbDeviceConn) {rx : List Arrival}
    (hrx : reader.loop.routed.filter (toPort conn.sourcePort) = before ++ rx.map Arrival.packet)
    (wTx : List UsbDevicePacket) (sentTotal ackedTotal : ℕ) :
    Sound codec conn.sourcePort results before
      ⟨reader, .start conn rx wTx sentTotal ackedTotal⟩ where
  reader := StepSystem.after_induction (fun _ _ _ h hst => h.step hst)
    (TransferLoop.simulates_start hresults) hreader
  noLoss := Relay.noLoss_start conn rx wTx sentTotal ackedTotal
  queued := ⟨[], by
    rw [List.append_nil]
    exact hrx.symm⟩
  running _ := hrx.symm

/-- What has been routed before the relay's start is the front of all. -/
theorem Sound.filter_routed (h : s.Sound codec port results before) :
    (ReaderLoop.start.startReaderLoop codec (ReaderPolls.transferData results)).routed.filter
        (toPort port) =
      before ++ ((ReaderLoop.start.startReaderLoop codec
        (ReaderPolls.transferData results)).routed.filter (toPort port)).drop before.length := by
  have hfront : before <+: (ReaderLoop.start.startReaderLoop codec
      (ReaderPolls.transferData results)).routed.filter (toPort port) := by
    refine (List.prefix_append before s.queued).trans (h.queued.trans ?_)
    exact h.reader.refines.routed.filter _
  exact (List.prefix_iff_eq_append.mp hfront).symm

/-- What the router gets of the packets that a device sends. -/
theorem routed_encode {wire : TcpWire} (hw : wire.Lawful) {ps : List UsbDevicePacket}
    (hps : ∀ p ∈ ps, ∃ protocol, p.WellFormed protocol)
    (hdata : ReaderPolls.transferData results = ps.flatMap (UsbDevicePacket.encode wire)) :
    (ReaderLoop.start.startReaderLoop wire.toTcpCodec (ReaderPolls.transferData results)).routed =
      ps.filter fun p => !p.isRst := by
  rw [hdata, DeviceOpen.startReaderLoop_encode hw hps]
  exact List.nil_append _

/-- In every run of a relay on a device, however the device's packets are cut into
transfers and the loops are polled, the client is given the payloads of just the
packets for its connection, in their order, and all of them once there is nothing
left to read, as long as the client arm drops no packet that `conn.recv()` holds. -/
theorem download_reaches_client {wire : TcpWire} (hw : wire.Lawful) {ps : List UsbDevicePacket}
    (hps : ∀ p ∈ ps, ∃ protocol, p.WellFormed protocol)
    (hresults : ∀ result ∈ results, result.status = 0 ∧ result.data ≠ [])
    (hdata : ReaderPolls.transferData results = ps.flatMap (UsbDevicePacket.encode wire))
    {bs : List TransferLoop.Action} {reader : TransferLoop}
    (hreader : StepSystem.after (TransferLoop.step wire.toTcpCodec)
      (.start wire.toTcpCodec results) bs = some reader)
    (conn : UsbDeviceConn) {rx : List Arrival}
    -- what the handshake and earlier connections of the port have taken, and what waits
    (hrx : reader.loop.routed.filter (toPort conn.sourcePort) = before ++ rx.map Arrival.packet)
    (wTx : List UsbDevicePacket) (sentTotal ackedTotal : ℕ) {as : List Action}
    (ha : StepSystem.EveryStep (step wire.toTcpCodec conn.sourcePort) KeepsHeld
      ⟨reader, .start conn rx wTx sentTotal ackedTotal⟩ as) :
    StepSystem.EveryState (step wire.toTcpCodec conn.sourcePort)
      (Delivers ((ps.filter fun p => !p.isRst && toPort conn.sourcePort p).drop before.length))
      ⟨reader, .start conn rx wTx sentTotal ackedTotal⟩ as := by
  have hstart := sound_start hresults hreader conn hrx wTx sentTotal ackedTotal
  have hpackets : (ReaderLoop.start.startReaderLoop wire.toTcpCodec
      (ReaderPolls.transferData results)).routed.filter (toPort conn.sourcePort) =
        before ++ (ps.filter fun p => !p.isRst && toPort conn.sourcePort p).drop before.length := by
    have hmine : ((ps.filter fun p => !p.isRst).filter (toPort conn.sourcePort)) =
        ps.filter fun p => !p.isRst && toPort conn.sourcePort p := by
      rw [List.filter_filter]
      exact List.filter_congr fun p _ => Bool.and_comm _ _
    rw [hstart.filter_routed, routed_encode hw hps hdata, hmine]
  have hrun : StepSystem.EveryState (step wire.toTcpCodec conn.sourcePort)
      (Sound wire.toTcpCodec conn.sourcePort results before)
      ⟨reader, .start conn rx wTx sentTotal ackedTotal⟩ as :=
    StepSystem.everyState_of_everyStep (fun _ _ _ h hk hst => h.step hk hst) hstart ha
  exact hrun.mono fun _ h => h.delivers hpackets

/-- A byte of a device for the connection, cut within its header. -/
def byteFor1 : UsbDevicePacket := buildTcpBytes 0 0 (tcpHeader 62078 1 1 1 .ACK) [7]

def byteTransfers : List BulkRead :=
  [⟨⟨0⟩, (byteFor1.encode tcpWire).take 20⟩, ⟨⟨0⟩, (byteFor1.encode tcpWire).drop 20⟩]

theorem download_reaches_client_byte :
    StepSystem.EveryState (step tcpWire.toTcpCodec 1) (Delivers [byteFor1])
      ⟨.start tcpWire.toTcpCodec byteTransfers, .start (.newFrom 62078 1 1 1 512 1) [] [] 0 0⟩
      [.poll true, .advance 0, .poll true, .advance 0, .poll false, .poll false, .complete,
        .poll false, .advance 0, .poll false, .advance 0, .advance 0, .relay .pollRecv,
        .relay (.clientTakes 1), .relay .clientSendDone] := by
  have hwell : byteFor1.WellFormed .tcp :=
    UsbDevicePacketBuilder.build_wellFormed writeXml (.tcpBytes 0 0 ⟨62078, 1, 1, 1, .ACK⟩ [7])
      (by decide)
  have hps : ∀ p ∈ [byteFor1], ∃ protocol, p.WellFormed protocol := by
    intro p hp
    rw [List.mem_singleton.mp hp]
    exact ⟨.tcp, hwell⟩
  have hresults : ∀ result ∈ byteTransfers, result.status = 0 ∧ result.data ≠ [] := by decide
  have hdata : ReaderPolls.transferData byteTransfers =
      [byteFor1].flatMap (UsbDevicePacket.encode tcpWire) := by decide
  have hreader : StepSystem.after (TransferLoop.step tcpWire.toTcpCodec)
      (.start tcpWire.toTcpCodec byteTransfers) [] =
        some (.start tcpWire.toTcpCodec byteTransfers) := rfl
  have hrx : (TransferLoop.start tcpWire.toTcpCodec byteTransfers).loop.routed.filter (toPort 1) =
      [] ++ ([] : List Arrival).map Arrival.packet := rfl
  refine download_reaches_client tcpWire_lawful hps hresults hdata hreader
    (.newFrom 62078 1 1 1 512 1) hrx [] 0 0 (StepSystem.everyStep_of_forall fun a ha t => ?_)
  -- the client sends nothing
  repeat
    rcases List.mem_cons.mp ha with rfl | ha
    · first
      | exact trivial
      | exact fun _ _ _ hc => by cases hc
  cases ha

end DownloadWire

end Rusbmux
