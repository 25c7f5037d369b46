import Rusbmux.ReaderLoop
import Rusbmux.WriterTransfers

/-! `UsbDevice::new` of src/device/usb.rs: the version and the setup packet, before
the loops take the endpoints over. -/
namespace Rusbmux

/-- The packets of `new`, with `header_setup` for the second one. -/
def versionPacket : UsbDevicePacket := buildVersion 2 0

def setupPacket : UsbDevicePacket := buildSetup 0 65535 [7]

namespace DeviceOpen

/-- What is being sent: the second packet once the version has come. -/
inductive Handshake where
  | version
  | setup (version : UsbDevicePacketVersion)
  deriving DecidableEq

inductive Phase where
  /-- In `write_all`, with the bytes not written yet. -/
  | writing (handshake : Handshake) (remaining : Bytes)
  /-- In `flush`. -/
  | flushing (handshake : Handshake)
  /-- In the loop that waits for the version. -/
  | waiting
  /-- The loops are spawned. -/
  | opened (version : UsbDevicePacketVersion)
  | failed (e : RusbmuxError)
  | panicked
  deriving DecidableEq

inductive Action where
  /-- The task polls; `submit` and `early` are for a transfer that the poll submits. -/
  | poll (submit : Except String Unit) (early : Option (Option BulkResult))
  /-- `from_reader` returns. -/
  | read
  /-- The transfer in flight ends. -/
  | complete (value : Option BulkResult)

end DeviceOpen

/-- `stream` has what the device sends that no call has read yet. -/
structure DeviceOpen where
  out : RusbAsyncWriter
  stream : Bytes
  phase : DeviceOpen.Phase
  deriving DecidableEq

namespace DeviceOpen

variable (wire : TcpWire)

/-- Behind a `flush`. -/
def Handshake.flushed : Handshake → Phase
  | version => .waiting
  | setup v => .opened v

/-- A packet while the version is missing: another one is dropped. -/
def received (packet : UsbDevicePacket) : Phase :=
  match packet.payload with
  | .version v => .writing (.setup v) (setupPacket.encode wire)
  | _ => .waiting

def step (s : DeviceOpen) : Action → Option DeviceOpen
  | .poll submit early => match s.phase with
    | .writing handshake remaining => match s.out.pollWrite submit remaining with
      | none => some { s with phase := .panicked }
      | some (.pending, out) => some { s with out := out }
      | some (.ready (.ok n), out) =>
        let remaining := remaining.drop n
        let phase := if remaining = [] then .flushing handshake else .writing handshake remaining
        some { s with out := out, phase := phase }
      | some (.ready (.error _), out) => some { s with out := out, phase := .failed (.io .other) }
    | .flushing handshake => match s.out.pollFlush submit early with
      | none => some { s with phase := .panicked }
      | some (.pending, out) => some { s with out := out }
      | some (.ready (.ok ()), out) => some { s with out := out, phase := handshake.flushed }
      | some (.ready (.error _), out) => some { s with out := out, phase := .failed (.io .other) }
    | _ => none
  | .read => match s.phase with
    | .waiting => match UsbDevicePacket.fromReader wire.toTcpCodec s.stream with
      | (.ok packet, rest) => some { s with stream := rest, phase := received wire packet }
      | (.err e, rest) => some { s with stream := rest, phase := .failed (.parse e) }
      | (.fault, rest) => some { s with stream := rest, phase := .panicked }
    | _ => none
  | .complete value => (s.out.complete value).map fun out => { s with out := out }

def start (maxPacketSize : UInt16) (stream : Bytes) : DeviceOpen where
  out := .new maxPacketSize
  stream := stream
  phase := .writing .version (versionPacket.encode wire)

/-- The loop for the version, on the bytes that the device sends. -/
def awaitVersion (stream : Bytes) : Outcome UsbDevicePacketVersion × Bytes :=
  match _h : UsbDevicePacket.fromReader wire.toTcpCodec stream with
  | (.ok packet, rest) => match packet.payload with
    | .version v => (.ok v, rest)
    | _ => awaitVersion rest
  | (.err e, rest) => (.err e, rest)
  | (.fault, rest) => (.fault, rest)
termination_by stream.length
decreasing_by all_goals exact UsbDevicePacket.length_lt_of_fromReader wire.toTcpCodec _h (by simp)

/-- The packet that is being sent, encoded. -/
def Handshake.bytes : Handshake → Bytes
  | version => versionPacket.encode wire
  | setup _ => setupPacket.encode wire

/-- The transfers of the packets before it. -/
def Handshake.before : Handshake → List Bytes
  | version => []
  | setup _ => [versionPacket.encode wire]

/-- The writer has handed over these transfers and has counted them. -/
structure Handed (sent : List Bytes) (w : RusbAsyncWriter) : Prop where
  transfers : w.transfers = sent
  counted : w.currentTransferLen = UInt64.ofNat sent.flatten.length

/-- What the loop for the version has read of the device's bytes. -/
def Heard (stream : Bytes) (s : DeviceOpen) : Handshake → Prop
  | .version => awaitVersion wire s.stream = awaitVersion wire stream
  | .setup v => awaitVersion wire stream = (.ok v, s.stream)

/-- What holds in a phase. -/
def InPhase (stream : Bytes) (s : DeviceOpen) : Phase → Prop
  | .writing handshake remaining => remaining ≠ [] ∧ s.out.pending = none ∧
    s.out.buffer ++ remaining = handshake.bytes wire ∧ Handed (handshake.before wire) s.out ∧
      s.Heard wire stream handshake
  | .flushing handshake => s.Heard wire stream handshake ∧
    (s.out.pending = none ∧ s.out.buffer = handshake.bytes wire ∧
        Handed (handshake.before wire) s.out ∨
      s.out.pending ≠ none ∧ s.out.buffer = [] ∧
        Handed (handshake.before wire ++ [handshake.bytes wire]) s.out)
  | .waiting => s.out.pending = none ∧ s.out.buffer = [] ∧
    Handed [versionPacket.encode wire] s.out ∧ s.Heard wire stream .version
  | .opened v => s.out.pending = none ∧ s.out.buffer = [] ∧
    Handed [versionPacket.encode wire, setupPacket.encode wire] s.out ∧
      s.Heard wire stream (.setup v)
  | .failed _ | .panicked => True

structure Sound (maxPacketSize : UInt16) (stream : Bytes) (s : DeviceOpen) : Prop where
  size : s.out.maxPacketSize = maxPacketSize.toNat
  phase : s.InPhase wire stream s.phase

variable {wire} {maxPacketSize : UInt16} {stream : Bytes} {s t : DeviceOpen}

theorem Handshake.bytes_ne_nil (handshake : Handshake) : handshake.bytes wire ≠ [] := by
  cases handshake <;> exact UsbDevicePacket.encode_ne_nil wire _

theorem Handshake.length_bytes_le (handshake : Handshake) :
    (handshake.bytes wire).length ≤ 20 := by
  cases handshake <;> exact Nat.le_of_ble_eq_true rfl

theorem sound_start : (start wire maxPacketSize stream).Sound wire maxPacketSize stream where
  size := rfl
  phase := ⟨UsbDevicePacket.encode_ne_nil wire _, rfl, rfl, ⟨rfl, rfl⟩, rfl⟩

/-- The packet has gone out. -/
theorem inPhase_flushed {handshake : Handshake} (hheard : s.Heard wire stream handshake)
    (hpending : s.out.pending = none) (hbuffer : s.out.buffer = [])
    (hhanded : Handed (handshake.before wire ++ [handshake.bytes wire]) s.out) :
    s.InPhase wire stream handshake.flushed := by
  cases handshake with
  | version => exact ⟨hpending, hbuffer, hhanded, hheard⟩
  | setup v => exact ⟨hpending, hbuffer, hhanded, hheard⟩

theorem Handed.append {w : RusbAsyncWriter} {sent : List Bytes} (h : Handed sent w) (data : Bytes)
    (pending : Option (OneshotReceiver BulkResult)) : Handed (sent ++ [data]) { w with
      buffer := []
      transfers := w.transfers ++ [data]
      currentTransferLen := w.currentTransferLen+UInt64.ofNat data.length
      pending := pending } where
  transfers := by rw [h.transfers]
  counted := by
    rw [h.counted, List.flatten_append, List.length_append, List.flatten_singleton,
      UInt64.ofNat_add]

/-- The whole packet fits into the buffer. -/
theorem step_writing {submit : Except String Unit} {early : Option (Option BulkResult)}
    {handshake : Handshake} {remaining : Bytes} (h : s.Sound wire maxPacketSize stream)
    (hp : s.phase = .writing handshake remaining) :
    s.step wire (.poll submit early) = some { s with
      out := { s.out with buffer := s.out.buffer ++ remaining }
      phase := .flushing handshake } := by
  have hphase := h.phase
  rw [hp] at hphase
  obtain ⟨hne, hpending, hbytes, -⟩ := hphase
  have hlt : s.out.buffer.length+remaining.length < MAX_PACKET_SIZE*2 := by
    have hle : (handshake.bytes wire).length ≤ 20 := handshake.length_bytes_le
    rw [← hbytes, List.length_append] at hle
    have hmax : 20 < MAX_PACKET_SIZE*2 := by decide
    omega
  simp only [step, hp, RusbAsyncWriter.pollWrite_of_below hpending hne hlt, List.drop_length,
    if_true]

theorem sound_writing {submit : Except String Unit} {early : Option (Option BulkResult)}
    {handshake : Handshake} {remaining : Bytes} (h : s.Sound wire maxPacketSize stream)
    (hp : s.phase = .writing handshake remaining)
    (hst : s.step wire (.poll submit early) = some t) : t.Sound wire maxPacketSize stream := by
  cases (step_writing h hp).symm.trans hst
  obtain ⟨hsize, hphase⟩ := h
  rw [hp] at hphase
  obtain ⟨-, hpending, hbytes, hhanded, hheard⟩ := hphase
  exact ⟨hsize, hheard, Or.inl ⟨hpending, hbytes, hhanded.transfers, hhanded.counted⟩⟩

/-- What a poll of `flush` leads to, if it does not fail. -/
structure Flushes (wire : TcpWire) (stream : Bytes) (s : DeviceOpen) (handshake : Handshake)
    (r : Poll (Except String Unit)) (out : RusbAsyncWriter) : Prop where
  size : out.maxPacketSize = s.out.maxPacketSize
  pending : r = .pending → InPhase wire stream { s with out := out } (.flushing handshake)
  ready : r = .ready (.ok ()) → InPhase wire stream { s with out := out } handshake.flushed

/-- The transfer of the packet that is being sent is polled. -/
theorem flushes_drive {w : RusbAsyncWriter} {rx : OneshotReceiver BulkResult}
    {handshake : Handshake} {r : Poll (Except String Unit)} {out : RusbAsyncWriter}
    (hr : w.drive rx = some (r, out)) (hsize : w.maxPacketSize = s.out.maxPacketSize)
    (hheard : s.Heard wire stream handshake) (hbuffer : w.buffer = [])
    (hhanded : Handed (handshake.before wire ++ [handshake.bytes wire]) w) :
    Flushes wire stream s handshake r out := by
  unfold RusbAsyncWriter.drive at hr
  split at hr
  · split_ifs at hr <;> cases hr
    · exact ⟨hsize, fun hc => (by cases hc), fun hc => (by cases hc)⟩
    · refine ⟨hsize, fun hc => (by cases hc), fun _ => ?_⟩
      exact inPhase_flushed (s := { s with out := { w with pending := none } }) hheard rfl hbuffer
        ⟨hhanded.transfers, hhanded.counted⟩
  · cases hr
    exact ⟨hsize, fun hc => (by cases hc), fun hc => (by cases hc)⟩
  · cases hr
    refine ⟨hsize, fun _ => ⟨hheard, Or.inr ⟨?_, hbuffer, hhanded.transfers, hhanded.counted⟩⟩,
      fun hc => (by cases hc)⟩
    exact Option.some_ne_none _
  · cases hr

theorem flushes_pollFlush {submit : Except String Unit} {early : Option (Option BulkResult)}
    {handshake : Handshake} {r : Poll (Except String Unit)} {out : RusbAsyncWriter}
    (h : s.InPhase wire stream (.flushing handshake))
    (hr : s.out.pollFlush submit early = some (r, out)) :
    Flushes wire stream s handshake r out := by
  obtain ⟨hheard, ⟨hpending, hbuffer, hhanded⟩ | ⟨hpending, hbuffer, hhanded⟩⟩ := h
  · -- the transfer is submitted
    have hne : s.out.buffer ≠ [] := by
      rw [hbuffer]
      exact handshake.bytes_ne_nil
    simp only [RusbAsyncWriter.pollFlush, hpending, if_neg hne] at hr
    cases submit with
    | error e =>
      cases hr
      exact ⟨rfl, fun hc => (by cases hc), fun hc => (by cases hc)⟩
    | ok u =>
      have happend := hhanded.append s.out.buffer none
      rw [hbuffer] at hr happend
      exact flushes_drive hr rfl hheard rfl ⟨happend.transfers, happend.counted⟩
  · obtain ⟨rx, hrx⟩ := Option.ne_none_iff_exists'.mp hpending
    simp only [RusbAsyncWriter.pollFlush, hrx] at hr
    exact flushes_drive hr rfl hheard hbuffer hhanded

theorem sound_flushing {submit : Except String Unit} {early : Option (Option BulkResult)}
    {handshake : Handshake} (h : s.Sound wire maxPacketSize stream)
    (hp : s.phase = .flushing handshake) (hst : s.step wire (.poll submit early) = some t) :
    t.Sound wire maxPacketSize stream := by
  obtain ⟨hsize, hphase⟩ := h
  rw [hp] at hphase
  simp only [step, hp] at hst
  split at hst
  next =>
    cases hst
    exact ⟨hsize, trivial⟩
  next out hr =>
    cases hst
    have hflushes := flushes_pollFlush hphase hr
    exact ⟨hflushes.size.trans hsize, hp ▸ hflushes.pending rfl⟩
  next out hr =>
    cases hst
    have hflushes := flushes_pollFlush hphase hr
    refine ⟨hflushes.size.trans hsize, ?_⟩
    cases handshake <;> exact hflushes.ready rfl
  next e out hr =>
    cases hst
    exact ⟨(flushes_pollFlush hphase hr).size.trans hsize, trivial⟩

theorem awaitVersion_ok {stream rest : Bytes} {packet : UsbDevicePacket}
    (h : UsbDevicePacket.fromReader wire.toTcpCodec stream = (.ok packet, rest)) :
    awaitVersion wire stream = match packet.payload with
      | .version v => (.ok v, rest)
      | _ => awaitVersion wire rest := by
  rw [awaitVersion]
  split
  next packet' rest' h' =>
    cases h.symm.trans h'
    rfl
  next e rest' h' => cases h.symm.trans h'
  next rest' h' => cases h.symm.trans h'

theorem sound_read (h : s.Sound wire maxPacketSize stream)
    (hst : s.step wire .read = some t) : t.Sound wire maxPacketSize stream := by
  obtain ⟨hsize, hphase⟩ := h
  simp only [step] at hst
  split at hst
  next hp =>
    rw [hp] at hphase
    obtain ⟨hpending, hbuffer, hhanded, hheard⟩ := hphase
    split at hst
    next packet rest hread =>
      cases hst
      have hawait := hheard.symm.trans (awaitVersion_ok hread)
      refine ⟨hsize, ?_⟩
      unfold received
      split <;> rename_i hpayload
      · rw [hpayload] at hawait
        refine ⟨setupPacket.encode_ne_nil wire, hpending, ?_, hhanded, hawait⟩
        rw [hbuffer]
        rfl
      · split at hawait
        next v hv => exact absurd hv (hpayload v)
        next => exact ⟨hpending, hbuffer, hhanded, hawait.symm⟩
    next e rest hread =>
      cases hst
      exact ⟨hsize, trivial⟩
    next rest hread =>
      cases hst
      exact ⟨hsize, trivial⟩
  next => cases hst

theorem sound_complete {value : Option BulkResult} (h : s.Sound wire maxPacketSize stream)
    (hst : s.step wire (.complete value) = some t) : t.Sound wire maxPacketSize stream := by
  obtain ⟨hsize, hphase⟩ := h
  obtain ⟨out, hout, rfl⟩ := Option.map_eq_some_iff.mp hst
  unfold RusbAsyncWriter.complete at hout
  split at hout
  next hpending =>
    cases hout
    refine ⟨hsize, ?_⟩
    have hwaits : s.out.pending ≠ none := hpending ▸ Option.some_ne_none _
    -- only `flush` has a transfer in flight
    cases hp : s.phase with
    | writing handshake remaining =>
      rw [hp] at hphase
      exact absurd hphase.2.1 hwaits
    | flushing handshake =>
      rw [hp] at hphase
      obtain ⟨hheard, ⟨hnone, -⟩ | ⟨-, hbuffer, hhanded⟩⟩ := hphase
      · exact absurd hnone hwaits
      · exact ⟨hheard, Or.inr ⟨Option.some_ne_none _, hbuffer, hhanded.transfers,
          hhanded.counted⟩⟩
    | waiting =>
      rw [hp] at hphase
      exact absurd hphase.1 hwaits
    | opened v =>
      rw [hp] at hphase
      exact absurd hphase.1 hwaits
    | failed e | panicked => trivial
  next => cases hout

theorem sound_step {action : Action} (h : s.Sound wire maxPacketSize stream)
    (hst : s.step wire action = some t) : t.Sound wire maxPacketSize stream := by
  cases action with
  | poll submit early =>
    cases hp : s.phase with
    | writing handshake remaining => exact sound_writing h hp hst
    | flushing handshake => exact sound_flushing h hp hst
    | _ =>
      simp only [step, hp] at hst
      cases hst
  | read => exact sound_read h hst
  | complete value => exact sound_complete h hst

/-- A device is opened with both packets handed over, and with the bytes of the
device behind the packet that had the version. -/
theorem opened_of_after {as : List Action} {v : UsbDevicePacketVersion}
    (hs : StepSystem.after (step wire) (start wire maxPacketSize stream) as = some s)
    (hp : s.phase = .opened v) :
    s.out.maxPacketSize = maxPacketSize.toNat ∧ s.out.pending = none ∧ s.out.buffer = [] ∧
      Handed [versionPacket.encode wire, setupPacket.encode wire] s.out ∧
      awaitVersion wire stream = (.ok v, s.stream) := by
  have hsound : s.Sound wire maxPacketSize stream :=
    StepSystem.after_induction (fun _ _ _ h hst => sound_step h hst) sound_start hs
  have hphase := hsound.phase
  rw [hp] at hphase
  exact ⟨hsound.size, hphase.1, hphase.2.1, hphase.2.2.1, hphase.2.2.2⟩

/-- The sizes that packets have on a bulk endpoint. -/
def BulkPacketSize (m : ℕ) : Prop := m ∈ [8, 16, 32, 64, 512, 1024]

instance (m : ℕ) : Decidable (BulkPacketSize m) := inferInstanceAs (Decidable (_ ∈ _))

/-- The first packet of the loop fills its packets neither alone nor behind the
37 bytes of the handshake. -/
def FirstShort (m : ℕ) (s : WriterTransfers) : WriterTransfers.Action → Prop
  | .submitEnd _ _ => s.loop.segments = [] →
    ¬m ∣ s.loop.written.length ∧ ¬m ∣ 37+s.loop.written.length
  | _ => True

/-- A packet with a TCP header only, such as a SYN. -/
def isBare : UsbDevicePacketBuilder → Bool
  | .tcp _ _ _ => true
  | _ => false

/-- The first packet that is put on the channel has no payload. -/
def FirstBare (s : WriterTransfers) : WriterTransfers.Action → Prop
  | .produce b => s.loop.dequeued ++ s.loop.wTx = [] → isBare b = true
  | _ => True

instance (s : WriterTransfers) : DecidablePred (FirstBare s)
  | .produce b => inferInstanceAs (Decidable (s.loop.dequeued ++ s.loop.wTx = [] → isBare b = true))
  | .accept | .recv | .takeSendSeq | .getRecvSeq | .poll _ | .headerDone | .submitEnd _ _
  | .complete _ => .isTrue trivial

theorem BulkPacketSize.facts {m : ℕ} (hm : BulkPacketSize m) :
    0 < m ∧ ¬m ∣ 20 ∧ ¬m ∣ 17 ∧ ¬m ∣ 36 ∧ ¬m ∣ 37 ∧ ¬m ∣ 73 := by
  simp only [BulkPacketSize, List.mem_cons, List.not_mem_nil, or_false] at hm
  rcases hm with rfl | rfl | rfl | rfl | rfl | rfl <;> decide

/-- The device gets the two packets one by one: neither fills its packets. -/
theorem received_handshake {m : ℕ} (hm : BulkPacketSize m) :
    ShortPackets.received m [versionPacket.encode wire, setupPacket.encode wire] =
      ([versionPacket.encode wire, setupPacket.encode wire], []) := by
  obtain ⟨hpos, hversion, hsetup, -⟩ := hm.facts
  have hv : ShortPackets.received m [versionPacket.encode wire] =
      ([versionPacket.encode wire], []) := ShortPackets.received_singleton hpos hversion
  have hs : ShortPackets.received m [setupPacket.encode wire] =
      ([setupPacket.encode wire], []) := ShortPackets.received_singleton hpos hsetup
  rw [← List.singleton_append, ShortPackets.received_append hv, hs]

theorem Handed.toNat {w : RusbAsyncWriter}
    (h : Handed [versionPacket.encode wire, setupPacket.encode wire] w) :
    w.currentTransferLen.toNat = 37 := by
  rw [h.counted]
  rfl

theorem firstEnds_iff {m : ℕ} (hm : BulkPacketSize m) (s : WriterTransfers)
    (action : WriterTransfers.Action) :
    WriterTransfers.FirstEnds m 37 s action ↔ FirstShort m s action := by
  cases action with
  | submitEnd flush zlp =>
    obtain ⟨-, -, -, -, hodd, -⟩ := hm.facts
    refine forall_congr' fun _ => ⟨fun hiff => ?_, fun hshort => ?_⟩
    · have hnot : ¬m ∣ s.loop.written.length := by
        intro hd
        exact hodd ((Nat.dvd_add_left hd).mp (hiff.mpr hd))
      exact ⟨hnot, fun hd => hnot (hiff.mp hd)⟩
    · exact iff_of_false hshort.2 hshort.1
  | _ => exact Iff.rfl

variable {toWriterXml : PlistValue → Bytes}

/-- On a device that was opened, the endpoint carries the handshake and then the
packets of the loop one by one, in every run precisely if the first of them fills
its packets neither alone nor behind the handshake: `flush` leaves what it has
counted to the first `submit_end`. -/
theorem session_received_iff {as : List Action} {v : UsbDevicePacketVersion} (hw : wire.Lawful)
    (hm : BulkPacketSize maxPacketSize.toNat)
    (hs : StepSystem.after (step wire) (start wire maxPacketSize stream) as = some s)
    (hp : s.phase = .opened v) {bs : List WriterTransfers.Action}
    (ha : StepSystem.EveryStep (WriterTransfers.step wire toWriterXml)
      (fun _ a => WriterTransfers.Answered toWriterXml a) (.start s.out) bs) :
    StepSystem.EveryState (WriterTransfers.step wire toWriterXml)
        (fun t => t.received =
          (versionPacket.encode wire :: setupPacket.encode wire :: t.loop.segments, []))
        (.start s.out) bs ↔
      StepSystem.EveryStep (WriterTransfers.step wire toWriterXml)
        (FirstShort maxPacketSize.toNat) (.start s.out) bs := by
  obtain ⟨hsize, hpending, hbuffer, hhanded, -⟩ := opened_of_after hs hp
  have hmsgs : ShortPackets.received s.out.maxPacketSize s.out.transfers =
      ([versionPacket.encode wire, setupPacket.encode wire], []) := by
    rw [hsize, hhanded.transfers]
    exact received_handshake hm
  have hpos : 0 < s.out.maxPacketSize := by
    rw [hsize]
    exact hm.facts.1
  have hcount : s.out.currentTransferLen.toNat < 2^32 := by
    rw [hhanded.toNat]
    decide
  have hiff := WriterTransfers.received_iff hw hpos hbuffer hpending hmsgs hcount ha
  rw [hsize, hhanded.toNat] at hiff
  have hshort : WriterTransfers.FirstEnds maxPacketSize.toNat 37 =
      FirstShort maxPacketSize.toNat := by
    funext t action
    exact propext (firstEnds_iff hm t action)
  rwa [hshort] at hiff

/-- What the run below leaves on a full-speed endpoint. -/
def handshakeEnd : DeviceOpen where
  out := ⟨64, [], 37, none, [versionPacket.encode tcpWire, setupPacket.encode tcpWire]⟩
  stream := setupPacket.encode tcpWire
  phase := .opened ⟨2, 0, 0⟩

/-- A device that sends another packet before its version, and one after it. -/
theorem after_handshake : StepSystem.after (step tcpWire)
    (start tcpWire 64 (([setupPacket] ++ versionPacket :: [setupPacket]).flatMap
      (UsbDevicePacket.encode tcpWire)))
    [.poll (.ok ()) none, .poll (.ok ()) none, .complete (some ⟨0⟩), .poll (.ok ()) none, .read,
      .read, .poll (.ok ()) none, .poll (.ok ()) (some (some ⟨0⟩))] = some handshakeEnd := by
  decide

/-- A first packet of 64 bytes. -/
theorem session_received_iff_setup :
    StepSystem.EveryState (WriterTransfers.step tcpWire writeXml)
        (fun t => t.received =
          (versionPacket.encode tcpWire :: setupPacket.encode tcpWire :: t.loop.segments, []))
        (.start handshakeEnd.out)
        [.produce (.setup 0 0 (List.replicate 48 7)), .recv, .takeSendSeq, .getRecvSeq,
          .poll (.ok ()), .headerDone, .poll (.ok ()), .submitEnd (.ok ()) (.ok ())] ↔
      StepSystem.EveryStep (WriterTransfers.step tcpWire writeXml) (FirstShort 64)
        (.start handshakeEnd.out)
        [.produce (.setup 0 0 (List.replicate 48 7)), .recv, .takeSendSeq, .getRecvSeq,
          .poll (.ok ()), .headerDone, .poll (.ok ()), .submitEnd (.ok ()) (.ok ())] :=
  session_received_iff tcpWire_lawful (by decide) after_handshake rfl (by decide)

/-- The channel has the packets in the order in which they were put on it, and
the first of them has no payload. -/
def HeadBare (s : WriterTransfers) : Prop :=
  ∀ p ∈ (s.loop.dequeued ++ s.loop.wTx).head?, p.encodedLen = UsbDevicePacket.HEADERS_LEN_V2

theorem HeadBare.step {s t : WriterTransfers} {action : WriterTransfers.Action} (h : HeadBare s)
    (hb : FirstBare s action) (hst : s.step wire toWriterXml action = some t) : HeadBare t := by
  intro p hhead
  rw [WriterTransfers.packets_of_step hst] at hhead
  by_cases hnil : s.loop.dequeued ++ s.loop.wTx = []
  · rw [hnil, List.nil_append] at hhead
    cases action with
    | produce b =>
      have hbare := hb hnil
      cases hhead
      cases b with
      | tcp sendSeq recvSeq args => rfl
      | _ => cases hbare
    | _ => cases hhead
  · rw [List.head?_append_of_ne_nil _ hnil] at hhead
    exact h p hhead

/-- The transfers of the handshake, and of nothing else. -/
def handshakeTransfers (wire : TcpWire) : List Bytes :=
  [versionPacket.encode wire, setupPacket.encode wire]

/-- The first packet that goes out is the first one put on the channel, and the
37 bytes before it change nothing at its end. -/
theorem received_of_headBare (hw : wire.Lawful) {m : ℕ} (hm : BulkPacketSize m)
    {s : WriterTransfers} (hc : s.Carries wire toWriterXml m 37 (handshakeTransfers wire))
    (hb : HeadBare s) : s.received = (handshakeTransfers wire ++ s.loop.segments, []) := by
  apply (hc.received_iff hm.facts.1 (received_handshake hm)).mpr
  intro first hfirst
  have hlen : first.length = 36 := by
    obtain ⟨segments, hsegments⟩ := hc.sound.refines.segments
    obtain ⟨rest, hdequeued⟩ := hc.sound.refines.dequeued
    rcases hloaded : s.loop.loaded with _ | ⟨⟨p, accepted⟩, loaded⟩
    · rw [hloaded] at hsegments
      rw [(List.append_eq_nil_iff.mp hsegments).1] at hfirst
      cases hfirst
    · rw [hloaded] at hsegments hdequeued
      have hlength := hb p (by rw [← hdequeued]; rfl)
      obtain ⟨segments', hcons⟩ := List.head?_eq_some_iff.mp hfirst
      rw [hcons] at hsegments
      rw [(List.cons.inj hsegments).1, UsbDevicePacket.length_encode hw,
        UsbDevicePacket.encodedLen_patch, hlength]
      rfl
  obtain ⟨-, -, -, hbare, -, hboth⟩ := hm.facts
  rw [hlen]
  exact iff_of_false hboth hbare

theorem delivers_of_headBare (hw : wire.Lawful) {m : ℕ} (hm : BulkPacketSize m)
    {s : WriterTransfers} (hc : s.Carries wire toWriterXml m 37 (handshakeTransfers wire))
    (hb : HeadBare s) : s.Delivers wire [versionPacket, setupPacket] := by
  refine hc.delivers hw (fun p hp => ?_) (received_of_headBare hw hm hc hb)
  rcases List.mem_cons.mp hp with rfl | hp
  · exact ⟨.version, UsbDevicePacketBuilder.build_wellFormed toWriterXml (.version 2 0)
      (Nat.le_of_ble_eq_true rfl)⟩
  · rw [List.mem_singleton.mp hp]
    exact ⟨.setup, UsbDevicePacketBuilder.build_wellFormed toWriterXml (.setup 0 65535 [7])
      (Nat.le_of_ble_eq_true rfl)⟩

/-- What holds along a run of an opened device. -/
structure Opened (wire : TcpWire) (toWriterXml : PlistValue → Bytes) (m : ℕ)
    (s : WriterTransfers) : Prop where
  carries : s.Carries wire toWriterXml m 37 (handshakeTransfers wire)
  headBare : HeadBare s

theorem opened_start {as : List Action} {v : UsbDevicePacketVersion}
    (hs : StepSystem.after (step wire) (start wire maxPacketSize stream) as = some s)
    (hp : s.phase = .opened v) :
    Opened wire toWriterXml maxPacketSize.toNat (.start s.out) := by
  obtain ⟨hsize, hpending, hbuffer, hhanded, -⟩ := opened_of_after hs hp
  have hstart : (WriterTransfers.start s.out).Carries wire toWriterXml s.out.maxPacketSize
      s.out.currentTransferLen.toNat s.out.transfers :=
    WriterTransfers.carries_start hbuffer hpending
  rw [hsize, hhanded.toNat, hhanded.transfers] at hstart
  exact ⟨hstart, fun _ hhead => by cases hhead⟩

theorem Opened.step (hw : wire.Lawful) {m : ℕ} {s t : WriterTransfers}
    {action : WriterTransfers.Action} (h : Opened wire toWriterXml m s)
    (ha : WriterTransfers.Answered toWriterXml action) (hb : FirstBare s action)
    (hst : s.step wire toWriterXml action = some t) : Opened wire toWriterXml m t where
  carries := (h.carries.step hw (by decide) ha hst).1
  headBare := h.headBare.step hb hst

/-- In every run of an opened device on whose channel a packet without payload is
put first, as a connection does, the device decodes the version and the setup
packet and then just the packets that came off the channel, numbered from 1 on. -/
theorem session_delivers {as : List Action} {v : UsbDevicePacketVersion} (hw : wire.Lawful)
    (hm : BulkPacketSize maxPacketSize.toNat)
    (hs : StepSystem.after (step wire) (start wire maxPacketSize stream) as = some s)
    (hp : s.phase = .opened v) {bs : List WriterTransfers.Action}
    (ha : StepSystem.EveryStep (WriterTransfers.step wire toWriterXml)
      (fun t a => WriterTransfers.Answered toWriterXml a ∧ FirstBare t a) (.start s.out) bs) :
    StepSystem.EveryState (WriterTransfers.step wire toWriterXml)
      (WriterTransfers.Delivers wire [versionPacket, setupPacket]) (.start s.out) bs := by
  have hrun : StepSystem.EveryState (WriterTransfers.step wire toWriterXml)
      (Opened wire toWriterXml maxPacketSize.toNat) (.start s.out) bs :=
    StepSystem.everyState_of_everyStep (fun _ _ _ h ha hst => h.step hw ha.1 ha.2 hst)
      (opened_start hs hp) ha
  exact hrun.mono fun _ h => delivers_of_headBare hw hm h.carries h.headBare

/-- A SYN, and then a packet of 64 bytes. -/
theorem session_delivers_syn : StepSystem.EveryState (WriterTransfers.step tcpWire writeXml)
    (WriterTransfers.Delivers tcpWire [versionPacket, setupPacket]) (.start handshakeEnd.out)
    [.produce (.tcp 0 0 ⟨1, 62078, 0, 0, .SYN⟩), .produce (.setup 0 0 (List.replicate 48 7)),
      .recv, .takeSendSeq, .getRecvSeq, .poll (.ok ()), .headerDone,
      .submitEnd (.ok ()) (.ok ()), .recv, .takeSendSeq, .getRecvSeq, .poll (.ok ()),
      .headerDone, .poll (.ok ()), .submitEnd (.ok ()) (.ok ())] :=
  session_delivers tcpWire_lawful (by decide) after_handshake rfl (by decide)

/-- The packets that a device sends are read one by one. -/
theorem startReaderLoop_encode (hw : wire.Lawful) {ps : List UsbDevicePacket}
    (hps : ∀ p ∈ ps, ∃ protocol, p.WellFormed protocol) (loop : ReaderLoop) :
    loop.startReaderLoop wire.toTcpCodec (ps.flatMap (UsbDevicePacket.encode wire)) =
      { recvSeq := loop.recvSeq+UInt16.ofNat ps.length
        routed := loop.routed ++ ps.filter fun p => !p.isRst
        notified := true } := by
  induction ps generalizing loop with
  | nil =>
    have hend := UsbDevicePacket.fromReader_short wire.toTcpCodec [] (by decide)
    rw [List.flatMap_nil, ReaderLoop.startReaderLoop]
    split
    next packet rest h => cases hend.symm.trans h
    next kind rest h =>
      rw [List.filter_nil, List.append_nil, List.length_nil]
      congr 1
      exact (UInt16.add_zero _).symm
    all_goals next h => cases hend.symm.trans h
  | cons p ps ih =>
    obtain ⟨protocol, hwell⟩ := hps p List.mem_cons_self
    have hread := UsbDevicePacket.fromReader_encode hw hwell
      (ps.flatMap (UsbDevicePacket.encode wire))
    rw [List.flatMap_cons, ReaderLoop.startReaderLoop_ok hread,
      ih fun q hq => hps q (List.mem_cons_of_mem p hq)]
    have hcount : (loop.handle p).recvSeq = loop.recvSeq+1 := by
      unfold ReaderLoop.handle
      dsimp only
      split_ifs <;> rfl
    rw [hcount, ReaderLoop.handle_routed, List.length_cons, Nat.add_comm, UInt16.ofNat_add,
      UInt16.add_assoc, List.append_assoc, List.filter_cons]
    congr 1
    cases p.isRst <;> rfl

end DeviceOpen

end Rusbmux
