import Rusbmux.DeviceOpen
import Rusbmux.RelayUpload

/-! The client's bytes on their way to an opened device: the relay of one
connection, the writer loop that all connections share, and the endpoint. -/
namespace Rusbmux

/-- The relay and the loop share the writer channel. -/
structure UploadWire where
  upload : Upload
  writer : WriterTransfers

namespace UploadWire

variable (wire : TcpWire) (toWriterXml : PlistValue → Bytes)

inductive Action where
  | relay (a : Relay.Action)
  | writer (a : WriterTransfers.Action)

/-- The step of one side, with the channel as it leaves it for the other. -/
def step (s : UploadWire) : Action → Option UploadWire
  -- the loop itself takes packets off the channel, and the relay's side puts them there
  | .relay .writerTakes => none
  | .writer (.produce _) => none
  | .relay a => (s.upload.step a).map fun upload =>
    ⟨upload, { s.writer with loop := { s.writer.loop with wTx := upload.relay.wTx } }⟩
  | .writer a => (s.writer.step wire toWriterXml a).map fun writer =>
    ⟨{ s.upload with relay := { s.upload.relay with wTx := writer.loop.wTx } }, writer⟩

def start (conn : UsbDeviceConn) (rx : List Arrival) (writer : WriterTransfers)
    (sentTotal ackedTotal : ℕ) : UploadWire :=
  ⟨.start conn rx writer.loop.wTx sentTotal ackedTotal, writer⟩

/-- A packet with bytes of the connection that has the source port. -/
def fromPort (port : UInt16) (p : UsbDevicePacket) : Bool :=
  (p.tcpHdr.any fun h => h.sourcePort == port) && p.payload.encode != []

/-- What the device has decoded, if it is such a packet. -/
def ofPort (port : UInt16) : Outcome UsbDevicePacket × Bytes → Option UsbDevicePacket
  | (.ok p, _) => if fromPort port p then some p else none
  | _ => none

/-- The packets of the connection among those that the device has decoded. -/
def arrived (port : UInt16) (s : UploadWire) : List UsbDevicePacket :=
  (s.writer.decoded wire).filterMap (ofPort port)

/-- The device gets the client's bytes in their order and without a gap, each
packet with the number of its first byte, and all of them once the relay has
found the client gone and the loop has nothing left to write. -/
structure Reaches (seq : UInt32) (port : UInt16) (s : UploadWire) : Prop where
  bytes : Relay.payloads (s.arrived wire port) <+: s.upload.written
  packets : ∀ earlier p later, s.arrived wire port = earlier ++ p :: later →
    p.tcpHdr.map TcpHeader.sequenceNumber =
      some (seq+UInt32.ofNat (Relay.payloads earlier).length)
  complete : s.upload.relay.conn.dropped = true → s.writer.loop.phase = .recv →
    s.writer.loop.wTx = [] → Relay.payloads (s.arrived wire port) = s.upload.written

/-- The other producers send what the builder makes, below the threshold of the
writer, and not from this port; no transfer fails. -/
def Others (port : UInt16) : Action → Prop
  | .relay (.otherSends p) => WriterTransfers.Built toWriterXml p ∧ fromPort port p = false
  | .writer a => WriterTransfers.Answered toWriterXml a
  | _ => True

variable {wire} {toWriterXml} {port : UInt16} {seq : UInt32} {m : ℕ}

/-- A packet that the relay is about to send. -/
def Sending (port : UInt16) (s : Relay) : Prop := ∀ packet, s.phase = .sendBytes packet →
  ∃ args value, packet = buildTcpBytes AUTO_SEQ AUTO_SEQ (TcpHeaderArgs.header args) value ∧
    args.sourcePort = port

/-- What holds along a run: of the packets put on the channel, those that carry
bytes of the connection are the relay's. -/
structure Sound (wire : TcpWire) (toWriterXml : PlistValue → Bytes) (m : ℕ) (seq : UInt32)
    (port : UInt16) (s : UploadWire) : Prop where
  upload : s.upload.Sound seq
  shared : s.upload.relay.wTx = s.writer.loop.wTx
  opened : DeviceOpen.Opened wire toWriterXml m s.writer
  started : s.writer.loop.dequeued ++ s.writer.loop.wTx ≠ []
  sourcePort : s.upload.relay.conn.sourcePort = port
  sending : Sending port s.upload.relay
  data : (s.writer.loop.dequeued ++ s.writer.loop.wTx).filter (fromPort port) = s.upload.sent

/-- What a step of the relay's side puts on the channel. -/
structure Appends (toWriterXml : PlistValue → Bytes) (port : UInt16) (s : Relay)
    (action : Relay.Action) (t : Relay) : Prop where
  sourcePort : t.conn.sourcePort = port
  sending : Sending port t
  packets : ∃ ps, t.wTx = s.wTx ++ ps ∧ ps.filter (fromPort port) = Upload.enqueues s action ∧
    ∀ p ∈ ps, WriterTransfers.Built toWriterXml p

theorem Appends.nothing {s t : Relay} {action : Relay.Action} (hport : t.conn.sourcePort = port)
    (hsending : Sending port t) (hwTx : t.wTx = s.wTx)
    (haction : Upload.enqueues s action = []) : Appends toWriterXml port s action t where
  sourcePort := hport
  sending := hsending
  packets := ⟨[], by rw [hwTx, List.append_nil], haction.symm, fun _ hp => by cases hp⟩

/-- A packet with a TCP header only, as an ACK or a reset. -/
theorem Appends.bare {s t : Relay} {action : Relay.Action} (hport : t.conn.sourcePort = port)
    (hsending : Sending port t) (conn : UsbDeviceConn) (flags : TcpFlags)
    (hwTx : t.wTx = s.wTx ++ [buildTcp AUTO_SEQ AUTO_SEQ (conn.header flags)])
    (haction : Upload.enqueues s action = []) : Appends toWriterXml port s action t where
  sourcePort := hport
  sending := hsending
  packets := by
    refine ⟨_, hwTx, ?_, fun p hp => ?_⟩
    · have hbare : fromPort port (buildTcp AUTO_SEQ AUTO_SEQ (conn.header flags)) = false :=
        Bool.and_false _
      rw [List.filter_singleton, hbare, haction]
      rfl
    · rw [List.mem_singleton.mp hp]
      refine ⟨.tcp AUTO_SEQ AUTO_SEQ ⟨conn.sourcePort, conn.destinationPort, conn.sentBytes,
        conn.receivedBytes, flags⟩, rfl, Nat.le_of_ble_eq_true rfl⟩

theorem recvTake_sourcePort (conn : UsbDeviceConn) (p : UsbDevicePacket) :
    (conn.recvTake p).sourcePort = conn.sourcePort := by
  unfold UsbDeviceConn.recvTake
  cases p.tcpHdr <;> rfl

theorem appends_of_step {s : Upload} {t : Relay} {action : Relay.Action} (h : s.Sound seq)
    (hport : s.relay.conn.sourcePort = port) (hsending : Sending port s.relay)
    (ho : Others toWriterXml port (.relay action)) (ha : action ≠ .writerTakes)
    (hst : s.relay.step action = some t) : Appends toWriterXml port s.relay action t := by
  cases Relay.move_of_step hst with
  | deviceData | clientWrites | clientCloses | cancel =>
    exact Appends.nothing hport hsending rfl rfl
  | writerTakes => exact absurd rfl ha
  | otherSends p hroom =>
    obtain ⟨hbuilt, hother⟩ := ho
    refine ⟨hport, hsending, [p], rfl, ?_, fun q hq => ?_⟩
    · -- a packet of another port
      rw [List.filter_singleton, hother]
      rfl
    · rw [List.mem_singleton.mp hq]
      exact hbuilt
  | acked sendable a rest =>
    -- `recv` keeps the port, and its acknowledgment has no payload
    have hconn := (recvTake_sourcePort s.relay.conn a.packet).trans hport
    exact Appends.bare hconn (fun _ hp => by cases hp) (s.relay.conn.recvTake a.packet) .ACK rfl
      rfl
  | held sendable a rest =>
    have hconn := (recvTake_sourcePort s.relay.conn a.packet).trans hport
    exact Appends.nothing hconn (fun _ hp => by cases hp) rfl rfl
  | pollAck sendable a =>
    exact Appends.bare hport (fun _ hp => by cases hp) s.relay.conn .ACK rfl rfl
  | recvFails | clientReadFails | pollShutdown | clientSendFails | sendFails =>
    exact Appends.nothing hport (fun _ hp => by cases hp) rfl rfl
  | pollClient k sendable held packet u hp hpos hu =>
    have hr := Relay.clientRead_reads hpos hu
    have hconn : u.conn.sourcePort = port := by
      rw [hr.conn]
      exact hport
    unfold Relay.clientPacket
    -- a read of no bytes is the end of the client's stream
    split_ifs with hnil
    · exact Appends.nothing hconn (fun _ hp => by cases hp) hr.wTx rfl
    · refine Appends.nothing hconn (fun q hq => ?_) hr.wTx rfl
      cases hq
      exact ⟨⟨u.conn.sourcePort, u.conn.destinationPort, u.conn.sentBytes, u.conn.receivedBytes,
        .ACK⟩, packet, rfl, hconn⟩
  | clientTakes k remaining => exact Appends.nothing hport (fun _ hp => by cases hp) rfl rfl
  | clientSendDone => exact Appends.nothing hport (fun _ hp => by cases hp) rfl rfl
  | sendDone packet hp =>
    have hfollows := h.phase
    rw [hp] at hfollows
    obtain ⟨args, value, rfl, hargs⟩ := hsending packet hp
    have hlen : 0 < value.length := hfollows.pos
    have hle : value.length ≤ MAX_PACKET_PAYLOAD_SIZE := hfollows.le
    refine ⟨hport, (fun _ hq => by cases hq), _, rfl, ?_, fun q hq => ?_⟩
    · have hfrom : fromPort port (buildTcpBytes AUTO_SEQ AUTO_SEQ args.header value) = true := by
        -- the chunk is not empty, so that the packet counts as one of the port
        have hne : value ≠ [] := List.length_pos_iff.mp hlen
        rw [fromPort, Bool.and_eq_true]
        exact ⟨beq_iff_eq.mpr hargs, bne_iff_ne.mpr hne⟩
      rw [List.filter_singleton, hfrom, Upload.enqueues, hp]
      rfl
    · rw [List.mem_singleton.mp hq]
      refine ⟨.tcpBytes AUTO_SEQ AUTO_SEQ args value, rfl, ?_⟩
      change UsbDevicePacket.HEADERS_LEN_V2+value.length < MAX_PACKET_SIZE*2
      -- the chunk and its headers are below the limit of the writer
      have hmax : UsbDevicePacket.HEADERS_LEN_V2+MAX_PACKET_PAYLOAD_SIZE < MAX_PACKET_SIZE*2 := by
        decide
      omega
  | closeDone => exact Appends.bare hport (fun _ hp => by cases hp) s.relay.conn .RST rfl rfl

variable {s t : UploadWire}

theorem sound_relay {action : Relay.Action} (h : s.Sound wire toWriterXml m seq port)
    (ho : Others toWriterXml port (.relay action))
    (hst : s.step wire toWriterXml (.relay action) = some t) :
    t.Sound wire toWriterXml m seq port := by
  have ha : action ≠ .writerTakes := by
    rintro rfl
    cases hst
  have hstep : (s.upload.step action).map (fun upload => (⟨upload, { s.writer with
      loop := { s.writer.loop with wTx := upload.relay.wTx } }⟩ : UploadWire)) = some t := by
    cases action <;> first | exact hst | exact absurd rfl ha
  obtain ⟨upload, hupload, rfl⟩ := Option.map_eq_some_iff.mp hstep
  have hsound := Upload.sound_step h.upload hupload
  obtain ⟨relay, hrelay, rfl⟩ := Option.map_eq_some_iff.mp hupload
  obtain ⟨hport, hsending, ps, hwTx, hdata, hbuilt⟩ :=
    appends_of_step h.upload h.sourcePort h.sending ho ha hrelay
  rw [h.shared] at hwTx
  have hne : s.writer.loop.dequeued ++ (s.writer.loop.wTx ++ ps) ≠ [] := by
    rw [← List.append_assoc]
    exact List.append_ne_nil_of_left_ne_nil h.started ps
  refine ⟨hsound, rfl, ?_, ?_, hport, hsending, ?_⟩
  · rw [hwTx]
    refine ⟨h.opened.carries.channel hbuilt, fun p hp => h.opened.headBare p ?_⟩
    rw [← List.append_assoc, List.head?_append_of_ne_nil _ h.started] at hp
    exact hp
  · rw [hwTx]
    exact hne
  · rw [hwTx, ← List.append_assoc, List.filter_append, h.data, hdata]

theorem sound_writer (hw : wire.Lawful) {action : WriterTransfers.Action}
    (h : s.Sound wire toWriterXml m seq port) (ho : Others toWriterXml port (.writer action))
    (hst : s.step wire toWriterXml (.writer action) = some t) :
    t.Sound wire toWriterXml m seq port := by
  have ha : ∀ b, action ≠ .produce b := by
    rintro b rfl
    cases hst
  have hstep : (s.writer.step wire toWriterXml action).map (fun writer =>
      (⟨{ s.upload with relay := { s.upload.relay with wTx := writer.loop.wTx } }, writer⟩ :
        UploadWire)) = some t := by
    cases action <;> first | exact hst | exact absurd rfl (ha _)
  obtain ⟨writer, hwriter, rfl⟩ := Option.map_eq_some_iff.mp hstep
  have hpackets := WriterTransfers.packets_of_step hwriter
  have hnone : WriterTransfers.produced toWriterXml action = [] := by
    cases action <;> first | rfl | exact absurd rfl (ha _)
  have hfirst : DeviceOpen.FirstBare s.writer action := by
    cases action with
    | produce b => exact absurd rfl (ha b)
    | _ => trivial
  rw [hnone, List.append_nil] at hpackets
  refine ⟨h.upload.stays ⟨rfl, rfl, id, rfl, rfl, id⟩ rfl, rfl, h.opened.step hw ho hfirst hwriter,
    ?_, h.sourcePort, h.sending, ?_⟩
  · rw [hpackets]
    exact h.started
  · rw [hpackets]
    exact h.data

/-- What the loop leaves of a packet as it is. -/
def content (p : UsbDevicePacket) : Option TcpHeader × UsbDevicePacketPayload :=
  (p.tcpHdr, p.payload)

theorem content_patch (p : UsbDevicePacket) (sendSeq recvSeq : UInt16) :
    content (p.patch sendSeq recvSeq) = content p := by
  unfold UsbDevicePacket.patch
  split <;> rfl

theorem fromPort_of_content {p q : UsbDevicePacket} (h : content p = content q) :
    fromPort port p = fromPort port q := by
  obtain ⟨htcp, hpayload⟩ := Prod.mk.inj h
  rw [fromPort, fromPort, htcp, hpayload]

theorem payloads_eq (ps : List UsbDevicePacket) :
    Relay.payloads ps = (ps.map content).flatMap fun c => c.2.encode := by
  rw [List.flatMap_map]
  rfl

theorem payloads_of_content {ps qs : List UsbDevicePacket} (h : ps.map content = qs.map content) :
    Relay.payloads ps = Relay.payloads qs := by
  rw [payloads_eq, payloads_eq, h]

/-- The packets of a port go out as they came off the channel, but for their numbers. -/
theorem content_outgoing (n : ℕ) (ps : List (UsbDevicePacket × ℕ)) :
    ((WriterLoop.outgoing n ps).filter (fromPort port)).map content =
      ((ps.map Prod.fst).filter (fromPort port)).map content := by
  induction ps generalizing n with
  | nil => rfl
  | cons p ps ih =>
    have hp := content_patch p.1 (UInt16.ofNat n) (UInt16.ofNat p.2)
    rw [WriterLoop.outgoing, List.map_cons, List.filter_cons, List.filter_cons,
      fromPort_of_content hp]
    cases fromPort port p.1 with
    | true =>
      rw [if_pos rfl, if_pos rfl, List.map_cons, List.map_cons, hp, ih]
    | false => exact ih _

theorem filterMap_ofPort (ps : List UsbDevicePacket) :
    (ps.map fun p => ((.ok p, []) : Outcome UsbDevicePacket × Bytes)).filterMap (ofPort port) =
      ps.filter (fromPort port) := by
  rw [List.filterMap_map, ← List.filterMap_eq_filter]
  rfl

/-- What the device has decoded of the connection is the front of what the relay sent. -/
theorem Sound.arrived (hw : wire.Lawful) (hm : DeviceOpen.BulkPacketSize m)
    (h : s.Sound wire toWriterXml m seq port) :
    (s.arrived wire port).map content <+: s.upload.sent.map content ∧
      (s.writer.loop.phase = .recv → s.writer.loop.wTx = [] →
        (s.arrived wire port).map content = s.upload.sent.map content) := by
  have hdelivers := DeviceOpen.delivers_of_headBare hw hm h.opened.carries h.opened.headBare
  have hfilter : ([versionPacket, setupPacket] ++
      WriterLoop.outgoing 1 s.writer.loop.loaded).filter (fromPort port) =
        (WriterLoop.outgoing 1 s.writer.loop.loaded).filter (fromPort port) := rfl
  have hdata := h.data
  constructor
  · have hfront := hdelivers.decoded.filterMap (ofPort port)
    rw [filterMap_ofPort, hfilter] at hfront
    refine (hfront.map content).trans ?_
    rw [content_outgoing, ← hdata]
    exact ((hdelivers.order.trans (List.prefix_append _ _)).filter _).map content
  · intro hp hwTx
    obtain ⟨hloaded, hdecoded⟩ := hdelivers.complete hp
    rw [hwTx, List.append_nil] at hdata
    rw [UploadWire.arrived, hdecoded, filterMap_ofPort, hfilter, content_outgoing, hloaded, hdata]

theorem Sound.reaches (hw : wire.Lawful) (hm : DeviceOpen.BulkPacketSize m)
    (h : s.Sound wire toWriterXml m seq port) : s.Reaches wire seq port := by
  obtain ⟨⟨rest, hfront⟩, hcomplete⟩ := h.arrived hw hm
  refine ⟨?_, fun earlier p later hsplit => ?_, fun hdropped hp hwTx => ?_⟩
  · refine List.IsPrefix.trans ⟨rest.flatMap fun c => c.2.encode, ?_⟩ h.upload.prefixed
    rw [payloads_eq, payloads_eq, ← List.flatMap_append, hfront]
  · rw [hsplit, List.map_append, List.map_cons, List.append_assoc, List.cons_append] at hfront
    -- the packet as the relay sent it
    obtain ⟨sent, after, hsent, hearlier, hafter⟩ := List.map_eq_append_iff.mp hfront.symm
    obtain ⟨q, later', rfl, hq, -⟩ := List.map_eq_cons_iff.mp hafter
    have hfollows := h.upload.packets sent q later' hsent
    rw [← payloads_of_content hearlier, ← (Prod.mk.inj hq).1]
    exact hfollows.sequenceNumber
  · rw [payloads_of_content (hcomplete hp hwTx)]
    exact (h.upload.eof hdropped).2

/-- In every run of a relay on an opened device, whatever the other connections
put on the channel in between and however the loop is polled, the device decodes
of the relay's connection just the client's bytes, in their order, and all of
them once the client is gone and the loop has nothing left to do. -/
theorem upload_reaches_device (hw : wire.Lawful) {maxPacketSize : UInt16}
    (hm : DeviceOpen.BulkPacketSize maxPacketSize.toNat) {stream : Bytes}
    {as : List DeviceOpen.Action} {device : DeviceOpen} {v : UsbDevicePacketVersion}
    (hdevice : StepSystem.after (DeviceOpen.step wire) (.start wire maxPacketSize stream) as =
      some device) (hopened : device.phase = .opened v)
    {bs : List WriterTransfers.Action} {writer : WriterTransfers}
    (hbs : StepSystem.EveryStep (WriterTransfers.step wire toWriterXml)
      (fun t a => WriterTransfers.Answered toWriterXml a ∧ DeviceOpen.FirstBare t a)
      (.start device.out) bs)
    (hwriter : StepSystem.after (WriterTransfers.step wire toWriterXml) (.start device.out) bs =
      some writer)
    -- the SYN has been put on the channel, and no bytes of the port
    (hsyn : writer.loop.dequeued ++ writer.loop.wTx ≠ [])
    (hport : ∀ p ∈ writer.loop.dequeued ++ writer.loop.wTx, fromPort port p = false)
    {destinationPort : UInt16} {tcpSynAck tcpAck : UsbDevicePacket} {tcpSynAckTcpHdr : TcpHeader}
    {conn : UsbDeviceConn} (hhdr : tcpSynAck.tcpHdr = some tcpSynAckTcpHdr)
    (hnew : UsbDeviceConn.new port destinationPort tcpSynAck = .ok (tcpAck, conn))
    (rx : List Arrival) (sentTotal ackedTotal : ℕ) {cs : List Action}
    (hcs : StepSystem.EveryStep (step wire toWriterXml) (fun _ a => Others toWriterXml port a)
      (start conn rx writer sentTotal ackedTotal) cs) :
    StepSystem.EveryState (step wire toWriterXml)
      (Reaches wire tcpSynAckTcpHdr.acknowledgmentNumber port)
      (start conn rx writer sentTotal ackedTotal) cs := by
  -- the device behind its handshake and the packets before the SYN
  have hwriter : DeviceOpen.Opened wire toWriterXml maxPacketSize.toNat writer := by
    have hrun := StepSystem.everyState_of_everyStep
      (fun _ _ _ h ha hst => DeviceOpen.Opened.step hw h ha.1 ha.2 hst)
      (DeviceOpen.opened_start hdevice hopened) hbs
    exact hrun.last hwriter
  simp only [UsbDeviceConn.new, hhdr, Except.ok.injEq, Prod.mk.injEq] at hnew
  obtain ⟨-, rfl⟩ := hnew
  have hstart : Sound wire toWriterXml maxPacketSize.toNat tcpSynAckTcpHdr.acknowledgmentNumber
      port (start (.newFrom destinationPort port tcpSynAckTcpHdr.acknowledgmentNumber
        tcpSynAckTcpHdr.sequenceNumber tcpSynAckTcpHdr.windowSize
        tcpSynAckTcpHdr.acknowledgmentNumber) rx writer sentTotal ackedTotal) := by
    refine ⟨Upload.sound_start _ _ _ _ _ _ _ _ _ _, rfl, hwriter, hsyn, rfl,
      (fun _ hp => by cases hp), ?_⟩
    exact List.filter_eq_nil_iff.mpr fun p hp => Bool.eq_false_iff.mp (hport p hp)
  have hrun := StepSystem.everyState_of_everyStep
    (fun s a t h ho hst => by
      cases a with
      | relay a => exact sound_relay h ho hst
      | writer a => exact sound_writer hw h ho hst) hstart hcs
  exact hrun.mono fun _ h => h.reaches hw hm

/-- The loop of an opened device, once the SYN of port 1 has gone out. -/
def synEnd : WriterTransfers :=
  (StepSystem.after (WriterTransfers.step tcpWire writeXml)
    (.start DeviceOpen.handshakeEnd.out)
    [.produce (.tcp 0 0 ⟨1, 62078, 0, 0, .SYN⟩), .recv, .takeSendSeq, .getRecvSeq,
      .poll (.ok ()), .headerDone, .submitEnd (.ok ()) (.ok ())]).get (by decide)

/-- The client writes five bytes and closes, while another connection sends. -/
theorem upload_reaches_device_hello :
    StepSystem.EveryState (step tcpWire writeXml) (Reaches tcpWire 1 1)
      (start (.newFrom 62078 1 1 9 512 1) [] synEnd 0 0)
      [.relay (.clientWrites [104, 101, 108, 108, 111]), .relay (.pollClient 5),
        .relay (.otherSends (buildTcp 0 0 (tcpHeader 2 62078 0 0 .SYN))), .relay .sendDone,
        .writer .recv, .relay .clientCloses, .writer .takeSendSeq, .writer .getRecvSeq,
        .relay (.pollClient 0), .writer (.poll (.ok ())), .writer .headerDone,
        .writer (.submitEnd (.ok ()) (.ok ())), .writer .recv, .writer .takeSendSeq,
        .writer .getRecvSeq, .writer (.poll (.ok ())), .writer .headerDone,
        .writer (.poll (.ok ())), .writer (.submitEnd (.ok ()) (.ok ()))] := by
  refine @upload_reaches_device _ _ 1 tcpWire_lawful 64 (by decide) _ _ _ _
    DeviceOpen.after_handshake rfl _ synEnd (by decide) (Option.some_get _).symm (by decide)
    (by decide) 62078 (buildTcp 0 0 (tcpHeader 62078 1 9 1 ⟨3⟩)) _ _ _ rfl rfl [] 0 0 _
    (StepSystem.everyStep_of_forall fun a ha _ => ?_)
  have hother : Others writeXml 1
      (.relay (.otherSends (buildTcp 0 0 (tcpHeader 2 62078 0 0 .SYN)))) :=
    ⟨⟨.tcp 0 0 ⟨2, 62078, 0, 0, .SYN⟩, rfl, by decide⟩, by decide⟩
  repeat
    rcases List.mem_cons.mp ha with rfl | ha
    · first
      | exact hother
      | exact trivial
      | exact ⟨rfl, rfl⟩
  cases ha

end UploadWire

end Rusbmux
