import Rusbmux.ShortPackets
import Rusbmux.WriterLoop
import Rusbmux.RusbWriter
import Mathlib.Algebra.GroupWithZero.Nat

/-! The writer loop of src/device/usb.rs over the bulk writer, one `poll_write`
after the other, and what the device makes of its transfers. -/
namespace Rusbmux

structure WriterTransfers where
  loop : WriterLoop
  out : RusbAsyncWriter

namespace WriterTransfers

variable (wire : TcpWire) (toWriterXml : PlistValue → Bytes)

inductive Action where
  | produce (b : UsbDevicePacketBuilder)
  | accept
  | recv
  | takeSendSeq
  | getRecvSeq
  /-- `write_all` polls the writer; `submit` is the answer of `alloc_and_submit`,
  if it is called. -/
  | poll (submit : Except String Unit)
  | headerDone
  /-- `flush` and `zlp` are the answers of the two calls of `write_bulk`. -/
  | submitEnd (flush zlp : Except String Unit)
  /-- The transfer in flight ends. -/
  | complete (value : Option BulkResult)

/-- What `write_all` has still to write. -/
def remaining (s : WriterTransfers) : Bytes :=
  match s.loop.phase with
  | .header remaining _ | .payload remaining => remaining
  | _ => []

/-- In a `write_all` that has bytes left the loop is at the headers or the payload. -/
theorem phase_of_remaining (s : WriterTransfers) (h : s.remaining ≠ []) :
    (∃ packet, s.loop.phase = .header s.remaining packet) ∨
      s.loop.phase = .payload s.remaining := by
  unfold remaining at h ⊢
  revert h
  cases s.loop.phase with
  | header remaining packet => exact fun _ => .inl ⟨packet, rfl⟩
  | payload remaining => exact fun _ => .inr rfl
  | _ => exact fun h => absurd rfl h

/-- The loop behind a `write_all` that has failed. -/
def failed (loop : WriterLoop) : WriterLoop :=
  match loop.phase with
  -- `continue`, without a `submit_end`
  | .header _ _ => { loop with phase := .recv }
  | .payload _ => { loop with phase := .payload [] }
  | _ => loop

/-- A step of the loop that leaves the writer alone. -/
def inner (s : WriterTransfers) (action : WriterLoop.Action) : Option WriterTransfers :=
  (s.loop.step wire toWriterXml action).map fun loop => { s with loop := loop }

def step (s : WriterTransfers) : Action → Option WriterTransfers
  | .produce b => s.inner wire toWriterXml (.produce b)
  | .accept => s.inner wire toWriterXml .accept
  | .recv => s.inner wire toWriterXml .recv
  | .takeSendSeq => s.inner wire toWriterXml .takeSendSeq
  | .getRecvSeq => s.inner wire toWriterXml .getRecvSeq
  | .poll submit =>
    if s.remaining = [] then none
    else match s.out.pollWrite submit s.remaining with
      | none => some { s with loop := { s.loop with phase := .panicked } }
      | some (.pending, out) => some { s with out := out }
      | some (.ready (.ok n), out) =>
        (s.loop.step wire toWriterXml (.write n)).map fun loop => ⟨loop, out⟩
      | some (.ready (.error _), out) => some ⟨failed s.loop, out⟩
  | .headerDone => s.inner wire toWriterXml .headerDone
  | .submitEnd flush zlp =>
    -- its error is dropped
    (s.loop.step wire toWriterXml .submitEnd).map fun loop => ⟨loop, (s.out.submitEnd flush zlp).2⟩
  | .complete value => (s.out.complete value).map fun out => { s with out := out }

/-- The loop of a new device, with what has gone through its writer. -/
def start (out : RusbAsyncWriter) : WriterTransfers := ⟨.start, out⟩

/-- What the device makes of the transfers. -/
def received (s : WriterTransfers) : List Bytes × Bytes :=
  ShortPackets.received s.out.maxPacketSize s.out.transfers

/-- What the device decodes of the messages, with the bytes that it leaves of each. -/
def decoded (s : WriterTransfers) : List (Outcome UsbDevicePacket × Bytes) :=
  s.received.1.map fun b => UsbDevicePacket.fromSlice wire.toTcpCodec b

/-- After the packets `first`, the device gets those that came off the channel,
one by one and in their order, with the numbers that the loop has put into them. -/
structure Delivers (first : List UsbDevicePacket) (s : WriterTransfers) : Prop where
  whole : s.received.2 = []
  order : s.loop.loaded.map Prod.fst <+: s.loop.dequeued
  decoded : s.decoded wire <+:
    (first ++ WriterLoop.outgoing 1 s.loop.loaded).map fun p => (.ok p, [])
  complete : s.loop.phase = .recv → s.loop.loaded.map Prod.fst = s.loop.dequeued ∧
    s.decoded wire = (first ++ WriterLoop.outgoing 1 s.loop.loaded).map fun p => (.ok p, [])

/-- A packet stays below the threshold of the writer. -/
def Below (p : UsbDevicePacket) : Prop := p.encodedLen < MAX_PACKET_SIZE*2

instance (p : UsbDevicePacket) : Decidable (Below p) := inferInstanceAs (Decidable (_ < _))

/-- The packets stay below the threshold, and no call of `write_bulk` fails. -/
def Answered : Action → Prop
  | .produce b => Below (b.build toWriterXml)
  | .submitEnd flush zlp => flush = .ok () ∧ zlp = .ok ()
  | _ => True

instance : DecidablePred (Answered toWriterXml)
  | .produce b => inferInstanceAs (Decidable (Below (b.build toWriterXml)))
  | .submitEnd flush zlp => inferInstanceAs (Decidable (flush = .ok () ∧ zlp = .ok ()))
  | .accept | .recv | .takeSendSeq | .getRecvSeq | .poll _ | .headerDone | .complete _ =>
    .isTrue trivial

/-- A `submit_end` of the first packet decides by its length alone. -/
def FirstEnds (m c : ℕ) (s : WriterTransfers) : Action → Prop
  | .submitEnd _ _ => s.loop.segments = [] →
    (m ∣ c+s.loop.written.length ↔ m ∣ s.loop.written.length)
  | _ => True

/-- The packets that the producers may put on the channel. -/
def Built (p : UsbDevicePacket) : Prop :=
  ∃ b : UsbDevicePacketBuilder, p = b.build toWriterXml ∧ Below p

end WriterTransfers

theorem UsbDevicePacket.length_encode {wire : TcpWire} (hw : wire.Lawful) (p : UsbDevicePacket) :
    (p.encode wire).length = p.encodedLen := by
  have htcp : (p.tcpBytes wire).length = (p.tcpHdr.map TcpHeader.headerLen).getD 0 := by
    unfold tcpBytes
    cases p.tcpHdr with
    | none => rfl
    | some h => exact hw.length_toBytes h
  rw [encode_eq, List.length_append, List.length_append, UsbDevicePacketHeader.length_encode,
    UsbDevicePacketPayload.length_encode, htcp, encodedLen, Nat.add_assoc]

theorem UsbDevicePacket.encode_ne_nil (wire : TcpWire) (p : UsbDevicePacket) :
    p.encode wire ≠ [] := by
  rw [encode_eq]
  cases p.header <;> exact List.cons_ne_nil _ _

theorem UsbDevicePacket.encodedLen_patch (p : UsbDevicePacket) (sendSeq recvSeq : UInt16) :
    (p.patch sendSeq recvSeq).encodedLen = p.encodedLen := by
  unfold patch
  split <;> rename_i hh
  · rfl
  · simp only [encodedLen, hh]
    rfl

/-- The numbers of a packet are no concern of a decoder. -/
theorem UsbDevicePacket.WellFormed.patch {p : UsbDevicePacket}
    {protocol : UsbDevicePacketProtocol} (h : p.WellFormed protocol) (sendSeq recvSeq : UInt16) :
    (p.patch sendSeq recvSeq).WellFormed protocol := by
  unfold UsbDevicePacket.patch
  split <;> rename_i hh
  · exact h
  · have hprotocol := h.protocol_eq
    have hsize := h.size_eq
    have hlength := h.length_eq
    simp only [encodedLen, hh] at hprotocol hsize hlength
    exact ⟨hprotocol, hsize, h.noTcp, h.tcp, hlength, h.payload_eq⟩

namespace WriterLoop

variable {wire : TcpWire} {toWriterXml : PlistValue → Bytes} {s t : WriterLoop}

/-- Every packet that goes out is one that came off the channel, with its numbers. -/
theorem exists_of_mem_outgoing {q : UsbDevicePacket} {n : ℕ}
    {ps : List (UsbDevicePacket × ℕ)} (h : q ∈ outgoing n ps) :
    ∃ p ∈ ps.map Prod.fst, ∃ sendSeq recvSeq, q = p.patch sendSeq recvSeq := by
  induction ps generalizing n with
  | nil => cases h
  | cons p ps ih =>
    rcases List.mem_cons.mp h with rfl | h
    · exact ⟨p.1, List.mem_cons_self, _, _, rfl⟩
    · obtain ⟨q', hq', heq⟩ := ih h
      exact ⟨q', List.mem_cons_of_mem p.1 hq', heq⟩

/-- The packet that an action puts on the channel. -/
def produced (toWriterXml : PlistValue → Bytes) : Action → List UsbDevicePacket
  | .produce b => [b.build toWriterXml]
  | _ => []

/-- A step that is no write: nothing is written, and the packets keep their order. -/
structure Quiet (toWriterXml : PlistValue → Bytes) (s : WriterLoop) (action : Action)
    (t : WriterLoop) : Prop where
  written : t.written = s.written
  segments : t.segments = s.segments
  packets : t.dequeued ++ t.wTx = s.dequeued ++ s.wTx ++ produced toWriterXml action

theorem Quiet.of_eq {action : Action} (hwritten : t.written = s.written)
    (hsegments : t.segments = s.segments) (hpackets : t.dequeued ++ t.wTx = s.dequeued ++ s.wTx)
    (hproduced : produced toWriterXml action = []) : Quiet toWriterXml s action t where
  written := hwritten
  segments := hsegments
  packets := by rw [hpackets, hproduced, List.append_nil]

theorem quiet_writeHeaders {action : Action} (h : Quiet toWriterXml s action t)
    (loaded : List (UsbDevicePacket × ℕ)) (packet : UsbDevicePacket) :
    Quiet toWriterXml s action
      (writeHeaders wire { t with loaded := loaded } packet) := by
  unfold writeHeaders
  split <;> exact ⟨h.written, h.segments, h.packets⟩

theorem quiet_of_step {action : Action} (hwrite : ∀ k, action ≠ .write k)
    (hend : action ≠ .submitEnd) (hst : s.step wire toWriterXml action = some t) :
    Quiet toWriterXml s action t := by
  cases action with
  | produce b =>
    simp only [step, Option.ite_none_right_eq_some, Option.some.injEq] at hst
    obtain ⟨-, rfl⟩ := hst
    exact ⟨rfl, rfl, (List.append_assoc _ _ _).symm⟩
  | accept =>
    cases hst
    exact Quiet.of_eq rfl rfl rfl rfl
  | recv =>
    simp only [step] at hst
    split at hst
    next packet rest hp hq =>
      -- the packet goes from the channel to the loop
      have hmoved : (s.dequeued ++ [packet]) ++ rest = s.dequeued ++ s.wTx := by
        rw [hq, List.append_assoc, List.singleton_append]
      split at hst
      next =>
        cases hst
        exact quiet_writeHeaders (Quiet.of_eq (s := s) (t := { s with
          wTx := rest, dequeued := s.dequeued ++ [packet] }) rfl rfl hmoved rfl) _ _
      next =>
        cases hst
        exact Quiet.of_eq rfl rfl hmoved rfl
    next => cases hst
  | takeSendSeq =>
    simp only [step] at hst
    split at hst
    next =>
      cases hst
      exact Quiet.of_eq rfl rfl rfl rfl
    next => cases hst
  | getRecvSeq =>
    simp only [step] at hst
    split at hst
    next =>
      cases hst
      exact quiet_writeHeaders (Quiet.of_eq rfl rfl rfl rfl) _ _
    next => cases hst
  | write k => exact absurd rfl (hwrite k)
  | headerDone =>
    simp only [step] at hst
    split at hst
    next =>
      cases hst
      exact Quiet.of_eq rfl rfl rfl rfl
    next => cases hst
  | submitEnd => exact absurd rfl hend

theorem write_step {k : ℕ} (h : s.step wire toWriterXml (.write k) = some t) :
    t.segments = s.segments ∧ t.dequeued = s.dequeued ∧ t.wTx = s.wTx := by
  simp only [step] at h
  split at h
  case h_1 =>
    split_ifs at h
    cases h
    exact ⟨rfl, rfl, rfl⟩
  case h_2 =>
    split_ifs at h
    cases h
    exact ⟨rfl, rfl, rfl⟩
  case h_3 => cases h

/-- A write of all the bytes that `write_all` has leaves none of them. -/
theorem writeAll_step {loop : WriterLoop} {s : WriterTransfers}
    (h : s.loop.step wire toWriterXml (.write s.remaining.length) = some loop) :
    s.remaining ≠ [] ∧ ∃ phase : Phase,
      loop = { s.loop with written := s.loop.written ++ s.remaining, phase := phase } ∧
        ((∃ packet, s.loop.phase = .header s.remaining packet ∧ phase = .header [] packet) ∨
          s.loop.phase = .payload s.remaining ∧ phase = .payload []) := by
  have hne : s.remaining ≠ [] := by
    intro hnil
    simp only [hnil, step, List.length_nil, Nat.lt_irrefl, false_and, if_false] at h
    split at h <;> cases h
  have hpos : 0 < s.remaining.length ∧ s.remaining.length ≤ s.remaining.length :=
    ⟨List.length_pos_iff.mpr hne, Nat.le_refl _⟩
  refine ⟨hne, ?_⟩
  rcases s.phase_of_remaining hne with ⟨packet, hp⟩ | hp
  · simp only [step, hp, if_pos hpos, List.take_length, List.drop_length, Option.some.injEq] at h
    exact ⟨_, h.symm, .inl ⟨packet, hp, rfl⟩⟩
  · simp only [step, hp, if_pos hpos, List.take_length, List.drop_length, Option.some.injEq] at h
    exact ⟨_, h.symm, .inr ⟨hp, rfl⟩⟩

theorem submitEnd_step (h : s.step wire toWriterXml .submitEnd = some t) :
    s.phase = .payload [] ∧
      t = { s with segments := s.segments ++ [s.written], written := [], phase := .recv } := by
  simp only [step] at h
  split at h
  next hp =>
    cases h
    exact ⟨hp, rfl⟩
  next => cases h

end WriterLoop

namespace RusbAsyncWriter

/-- `submit_end` hands over the buffer, and ends it by what it has counted. -/
theorem submitEnd_ok {w : RusbAsyncWriter} (hb : w.buffer ≠ [])
    (hlt : w.currentTransferLen.toNat+w.buffer.length < 2^64) :
    (w.submitEnd (.ok ()) (.ok ())).2 = { w with
      buffer := []
      currentTransferLen := 0
      transfers := w.transfers ++
        ShortPackets.endedAfter w.maxPacketSize w.currentTransferLen.toNat w.buffer } := by
  have hpos : 0 < w.buffer.length := List.length_pos_iff.mpr hb
  have hcount : (w.currentTransferLen+UInt64.ofNat w.buffer.length).toNat =
      w.currentTransferLen.toNat+w.buffer.length := by
    rw [UInt64.toNat_add, UInt64.toNat_ofNat', Nat.add_mod_mod, Nat.mod_eq_of_lt hlt]
  have hzero : 0 < w.currentTransferLen+UInt64.ofNat w.buffer.length := by
    rw [UInt64.lt_iff_toNat_lt, hcount]
    exact Nat.add_pos_right _ hpos
  simp only [submitEnd, syncFlushAndZlp, syncFlush, if_neg hb, syncZlp, hzero, true_and,
    isMultipleOf_iff, hcount, ShortPackets.endedAfter]
  split_ifs with hd
  · simp only [List.append_assoc, List.singleton_append]
  · rfl

end RusbAsyncWriter

namespace WriterTransfers

open WriterLoop ShortPackets

variable {wire : TcpWire} {toWriterXml : PlistValue → Bytes} {m c : ℕ} {before : List Bytes}
  {s t : WriterTransfers}

/-- What holds along a run whose calls are answered: the writer has the bytes
since the last `submit_end`, behind the transfers of what the loop has written. -/
structure Carries (wire : TcpWire) (toWriterXml : PlistValue → Bytes) (m c : ℕ)
    (before : List Bytes) (s : WriterTransfers) : Prop where
  sound : s.loop.Sound wire
  size : s.out.maxPacketSize = m
  pending : s.out.pending = none
  buffer : s.out.buffer = s.loop.written
  transfers : s.out.transfers = before ++ sentAfter m c s.loop.segments
  counted : s.out.currentTransferLen.toNat = if s.loop.segments = [] then c else 0
  packets : ∀ p ∈ s.loop.dequeued ++ s.loop.wTx, Built toWriterXml p

theorem carries_start {out : RusbAsyncWriter} (hbuffer : out.buffer = [])
    (hpending : out.pending = none) : (start out).Carries wire toWriterXml out.maxPacketSize
      out.currentTransferLen.toNat out.transfers where
  sound := sound_start
  size := rfl
  pending := hpending
  buffer := hbuffer
  transfers := (List.append_nil out.transfers).symm
  counted := rfl
  packets := fun _ hp => absurd hp List.not_mem_nil

/-- What the loop is writing is a packet that came off the channel. -/
theorem Carries.exists_packet (h : s.Carries wire toWriterXml m c before) {rest : Bytes}
    (hwriting : s.loop.Writing wire rest) :
    ∃ p, Built toWriterXml p ∧ ∃ sendSeq recvSeq,
      s.loop.written ++ rest = (p.patch sendSeq recvSeq).encode wire := by
  have hmem : s.loop.written ++ rest ∈ s.loop.encoded wire := by
    rw [← hwriting.segments]
    exact List.mem_append_right _ List.mem_cons_self
  obtain ⟨q, hq, heq⟩ := List.mem_map.mp hmem
  obtain ⟨p, hp, sendSeq, recvSeq, rfl⟩ := exists_of_mem_outgoing hq
  rw [← hwriting.dequeued] at hp
  exact ⟨p, h.packets p (List.mem_append_left _ hp), sendSeq, recvSeq, heq.symm⟩

theorem Carries.length_lt (hw : wire.Lawful) (h : s.Carries wire toWriterXml m c before)
    {rest : Bytes} (hwriting : s.loop.Writing wire rest) :
    s.loop.written.length+rest.length < MAX_PACKET_SIZE*2 := by
  obtain ⟨p, ⟨-, -, hbelow⟩, sendSeq, recvSeq, heq⟩ := h.exists_packet hwriting
  rw [← List.length_append, heq, UsbDevicePacket.length_encode hw,
    UsbDevicePacket.encodedLen_patch]
  exact hbelow

/-- A step of the loop that is no write. -/
theorem Carries.inner (hw : wire.Lawful) (h : s.Carries wire toWriterXml m c before)
    {action : WriterLoop.Action} (hwrite : ∀ k, action ≠ .write k) (hend : action ≠ .submitEnd)
    (hb : ∀ b, action = .produce b → Below (b.build toWriterXml))
    (hst : s.inner wire toWriterXml action = some t) :
    t.Carries wire toWriterXml m c before := by
  obtain ⟨loop, hloop, rfl⟩ := Option.map_eq_some_iff.mp hst
  have hquiet := quiet_of_step hwrite hend hloop
  refine ⟨sound_step hw h.sound hloop, h.size, h.pending, ?_, ?_, ?_, fun p hp => ?_⟩
  · rw [hquiet.written]
    exact h.buffer
  · rw [hquiet.segments]
    exact h.transfers
  · rw [hquiet.segments]
    exact h.counted
  · rw [hquiet.packets] at hp
    rcases List.mem_append.mp hp with hp | hp
    · exact h.packets p hp
    · cases action with
      | produce b => exact ⟨b, List.mem_singleton.mp hp, List.mem_singleton.mp hp ▸ hb b rfl⟩
      | _ => cases hp

/-- The packet that an action puts on the channel. -/
def produced (toWriterXml : PlistValue → Bytes) : Action → List UsbDevicePacket
  | .produce b => [b.build toWriterXml]
  | _ => []

/-- Every packet that was put on the channel is still there or has come off it. -/
theorem packets_of_step {action : Action} (hst : s.step wire toWriterXml action = some t) :
    t.loop.dequeued ++ t.loop.wTx =
      s.loop.dequeued ++ s.loop.wTx ++ produced toWriterXml action := by
  have hinner {inner : WriterLoop.Action} (hwrite : ∀ k, inner ≠ .write k)
      (hend : inner ≠ .submitEnd) (hst : s.inner wire toWriterXml inner = some t) :
      t.loop.dequeued ++ t.loop.wTx =
        s.loop.dequeued ++ s.loop.wTx ++ WriterLoop.produced toWriterXml inner := by
    obtain ⟨loop, hloop, rfl⟩ := Option.map_eq_some_iff.mp hst
    exact (quiet_of_step hwrite hend hloop).packets
  cases action with
  | produce b | accept | recv | takeSendSeq | getRecvSeq | headerDone =>
    exact hinner (fun k hk => by cases hk) (fun he => by cases he) hst
  | poll submit =>
    refine Eq.trans ?_ (List.append_nil _).symm
    simp only [step] at hst
    split_ifs at hst
    split at hst
    · cases hst
      rfl
    · cases hst
      rfl
    · obtain ⟨loop, hloop, rfl⟩ := Option.map_eq_some_iff.mp hst
      obtain ⟨-, hdequeued, hwTx⟩ := write_step hloop
      rw [hdequeued, hwTx]
    · cases hst
      unfold failed
      split <;> rfl
  | submitEnd flush zlp =>
    obtain ⟨loop, hloop, rfl⟩ := Option.map_eq_some_iff.mp hst
    obtain ⟨-, rfl⟩ := submitEnd_step hloop
    exact (List.append_nil _).symm
  | complete value =>
    obtain ⟨out, -, rfl⟩ := Option.map_eq_some_iff.mp hst
    exact (List.append_nil _).symm

/-- Others may put packets on the channel at any time. -/
theorem Carries.channel (h : s.Carries wire toWriterXml m c before) {ps : List UsbDevicePacket}
    (hps : ∀ p ∈ ps, Built toWriterXml p) :
    Carries wire toWriterXml m c before
      { s with loop := { s.loop with wTx := s.loop.wTx ++ ps } } := by
  obtain ⟨⟨hbuf, hwTx, hrecv⟩, hphase⟩ := h.sound
  refine ⟨⟨⟨hbuf, fun p hp => ?_, hrecv⟩, hphase.frame _ _ _⟩, h.size, h.pending, h.buffer,
    h.transfers, h.counted, fun p hp => ?_⟩
  · rcases List.mem_append.mp hp with hp | hp
    · exact hwTx p hp
    · obtain ⟨b, rfl, -⟩ := hps p hp
      exact fits_build toWriterXml b
  · rw [← List.append_assoc] at hp
    rcases List.mem_append.mp hp with hp | hp
    · exact h.packets p hp
    · exact hps p hp

/-- The bytes that `write_all` still has are part of the packet being written. -/
theorem Carries.remaining (hw : wire.Lawful) (h : s.Carries wire toWriterXml m c before)
    (hr : s.remaining ≠ []) :
    s.loop.written.length+s.remaining.length < MAX_PACKET_SIZE*2 := by
  have hphase := h.sound.phase
  rcases s.phase_of_remaining hr with ⟨packet, hp⟩ | hp
  · rw [hp] at hphase
    have hlt := h.length_lt hw hphase
    rw [List.length_append] at hlt
    omega
  · rw [hp] at hphase
    exact h.length_lt hw hphase

theorem Carries.poll (hw : wire.Lawful) (h : s.Carries wire toWriterXml m c before)
    {submit : Except String Unit} (hst : s.step wire toWriterXml (.poll submit) = some t) :
    t.Carries wire toWriterXml m c before ∧ t.loop.segments = s.loop.segments := by
  simp only [step] at hst
  split_ifs at hst with hr
  have hlt := h.remaining hw hr
  rw [← h.buffer] at hlt
  rw [RusbAsyncWriter.pollWrite_of_below h.pending hr hlt] at hst
  obtain ⟨loop, hloop, rfl⟩ := Option.map_eq_some_iff.mp hst
  have hsound := sound_step hw h.sound hloop
  obtain ⟨-, phase, rfl, -⟩ := writeAll_step hloop
  have hbuffer : s.out.buffer ++ s.remaining = s.loop.written ++ s.remaining := by rw [h.buffer]
  exact ⟨⟨hsound, h.size, h.pending, hbuffer, h.transfers, h.counted, h.packets⟩, rfl⟩

theorem Carries.submitEnd (hw : wire.Lawful) (h : s.Carries wire toWriterXml m c before)
    (hc : c < 2^32) (hst : s.step wire toWriterXml (.submitEnd (.ok ()) (.ok ())) = some t) :
    t.Carries wire toWriterXml m c before ∧
      t.loop.segments = s.loop.segments ++ [s.loop.written] := by
  obtain ⟨loop, hloop, rfl⟩ := Option.map_eq_some_iff.mp hst
  have hsound := sound_step hw h.sound hloop
  obtain ⟨hp, rfl⟩ := submitEnd_step hloop
  have hwriting := h.sound.phase
  rw [hp] at hwriting
  have hlt := h.length_lt hw hwriting
  obtain ⟨p, -, sendSeq, recvSeq, heq⟩ := h.exists_packet hwriting
  have hne : s.out.buffer ≠ [] := by
    rw [List.append_nil] at heq
    rw [h.buffer, heq]
    exact UsbDevicePacket.encode_ne_nil wire _
  have hcount : s.out.currentTransferLen.toNat+s.out.buffer.length < 2^64 := by
    rw [h.counted, h.buffer]
    have hmax : MAX_PACKET_SIZE*2 < 2^32 := by decide
    have hle : (if s.loop.segments = [] then c else 0) ≤ c := by split_ifs <;> omega
    omega
  refine ⟨?_, rfl⟩
  rw [RusbAsyncWriter.submitEnd_ok hne hcount]
  refine ⟨hsound, h.size, h.pending, rfl, ?_, ?_, h.packets⟩
  · simp only [h.transfers, h.size, h.counted, h.buffer, sentAfter_append_singleton,
      List.append_assoc]
  · rw [if_neg (List.append_ne_nil_of_right_ne_nil _ (List.cons_ne_nil _ _))]
    rfl

/-- One step: the segments are new only after a `submit_end`. -/
theorem Carries.step (hw : wire.Lawful) (h : s.Carries wire toWriterXml m c before)
    (hc : c < 2^32) {action : Action} (ha : Answered toWriterXml action)
    (hst : s.step wire toWriterXml action = some t) :
    t.Carries wire toWriterXml m c before ∧
      ((∀ flush zlp, action ≠ .submitEnd flush zlp) ∧ t.loop.segments = s.loop.segments ∨
        (∃ flush zlp, action = .submitEnd flush zlp) ∧
          t.loop.segments = s.loop.segments ++ [s.loop.written]) := by
  have hinner {inner : WriterLoop.Action} (hwrite : ∀ k, inner ≠ .write k)
      (hend : inner ≠ .submitEnd)
      (hb : ∀ b, inner = .produce b → Below (b.build toWriterXml))
      (hst : s.inner wire toWriterXml inner = some t) :
      t.Carries wire toWriterXml m c before ∧ t.loop.segments = s.loop.segments := by
    refine ⟨h.inner hw hwrite hend hb hst, ?_⟩
    obtain ⟨loop, hloop, rfl⟩ := Option.map_eq_some_iff.mp hst
    exact (quiet_of_step hwrite hend hloop).segments
  cases action with
  | produce b =>
    have hb : ∀ b', WriterLoop.Action.produce b = .produce b' → Below (b'.build toWriterXml) := by
      rintro b' ⟨⟩
      exact ha
    obtain ⟨ht, hsegments⟩ := hinner (fun k hk => by cases hk) (fun he => by cases he) hb hst
    exact ⟨ht, Or.inl ⟨fun _ _ he => (by cases he), hsegments⟩⟩
  | accept | recv | takeSendSeq | getRecvSeq | headerDone =>
    obtain ⟨ht, hsegments⟩ := hinner (fun k hk => by cases hk) (fun he => by cases he)
      (fun b hb => by cases hb) hst
    exact ⟨ht, Or.inl ⟨fun _ _ he => (by cases he), hsegments⟩⟩
  | poll submit =>
    obtain ⟨ht, hsegments⟩ := h.poll hw hst
    exact ⟨ht, Or.inl ⟨fun _ _ he => (by cases he), hsegments⟩⟩
  | submitEnd flush zlp =>
    obtain ⟨rfl, rfl⟩ := ha
    obtain ⟨ht, hsegments⟩ := h.submitEnd hw hc hst
    exact ⟨ht, Or.inr ⟨⟨_, _, rfl⟩, hsegments⟩⟩
  | complete value =>
    -- there is no transfer in flight
    obtain ⟨out, hout, -⟩ := Option.map_eq_some_iff.mp hst
    rw [RusbAsyncWriter.complete, h.pending] at hout
    cases hout

theorem Carries.segments_ne_nil (h : s.Carries wire toWriterXml m c before) :
    ∀ x ∈ s.loop.segments, x ≠ [] := by
  intro x hx
  obtain ⟨p, -, rfl⟩ := List.mem_map.mp (h.sound.refines.segments.subset hx)
  exact UsbDevicePacket.encode_ne_nil wire p

/-- The device gets what the loop has written exactly if the first packet was ended. -/
theorem Carries.received_iff (h : s.Carries wire toWriterXml m c before) (hm : 0 < m)
    {msgs : List Bytes} (hmsgs : ShortPackets.received m before = (msgs, [])) :
    s.received = (msgs ++ s.loop.segments, []) ↔
      ∀ first ∈ s.loop.segments.head?, (m ∣ c+first.length ↔ m ∣ first.length) := by
  rw [← received_sentAfter_iff hm h.segments_ne_nil, WriterTransfers.received, h.size,
    h.transfers, received_append hmsgs, Prod.mk.injEq, List.append_cancel_left_eq,
    ← Prod.mk.injEq]

/-- The messages that the device gets are those of the transfers before the loop
and then the packets of the loop, exactly if the bytes counted before do not
change the end of the first packet. -/
theorem received_iff (hw : wire.Lawful) {out : RusbAsyncWriter} (hm : 0 < out.maxPacketSize)
    (hbuffer : out.buffer = []) (hpending : out.pending = none) {msgs : List Bytes}
    (hmsgs : ShortPackets.received out.maxPacketSize out.transfers = (msgs, []))
    (hc : out.currentTransferLen.toNat < 2^32) {as : List Action}
    (ha : StepSystem.EveryStep (step wire toWriterXml) (fun _ a => Answered toWriterXml a)
      (start out) as) :
    StepSystem.EveryState (step wire toWriterXml)
        (fun s => s.received = (msgs ++ s.loop.segments, [])) (start out) as ↔
      StepSystem.EveryStep (step wire toWriterXml)
        (FirstEnds out.maxPacketSize out.currentTransferLen.toNat) (start out) as := by
  let Inv (s : WriterTransfers) : Prop :=
    s.Carries wire toWriterXml out.maxPacketSize out.currentTransferLen.toNat out.transfers ∧
      s.received = (msgs ++ s.loop.segments, [])
  -- nothing is ended before the first packet
  have hstart : Inv (start out) := by
    have hcarries : (start out).Carries wire toWriterXml out.maxPacketSize
        out.currentTransferLen.toNat out.transfers := carries_start hbuffer hpending
    exact ⟨hcarries, (hcarries.received_iff hm hmsgs).mpr fun _ hf => by cases hf⟩
  refine StepSystem.everyState_iff_everyStep_of ?_ (fun s h => h.2) hstart ha
  rintro s action t ⟨hcarries, hreceived⟩ hanswered hst
  obtain ⟨ht, hsegments⟩ := hcarries.step hw hc hanswered hst
  have hfirst := (hcarries.received_iff hm hmsgs).mp hreceived
  have hiff := ht.received_iff hm hmsgs
  rcases hsegments with ⟨hother, hsame⟩ | ⟨⟨flush, zlp, rfl⟩, hnew⟩
  · -- nothing is ended
    rw [hsame] at hiff
    have hends : FirstEnds out.maxPacketSize out.currentTransferLen.toNat s action := by
      cases action with
      | submitEnd flush zlp => exact absurd rfl (hother flush zlp)
      | _ => trivial
    refine ⟨fun _ => ⟨ht, ?_⟩, fun _ => hends⟩
    rw [hsame]
    exact hiff.mpr hfirst
  · by_cases hnil : s.loop.segments = []
    · -- this is the first packet
      rw [hnew, hnil, List.nil_append] at hiff
      refine ⟨fun hends => ⟨ht, ?_⟩, fun hreceived _ => ?_⟩
      · rw [hnew, hnil, List.nil_append]
        apply hiff.mpr
        rintro first ⟨⟩
        exact hends hnil
      · rw [hnew, hnil, List.nil_append] at hreceived
        exact hiff.mp hreceived s.loop.written rfl
    · -- a later packet: the end of the first one is behind
      rw [hnew, List.head?_append_of_ne_nil _ hnil] at hiff
      refine ⟨fun _ => ⟨ht, ?_⟩, fun _ hc => absurd hc hnil⟩
      rw [hnew]
      exact hiff.mpr hfirst

/-- The device decodes every packet that goes out. -/
theorem Carries.fromSlice (hw : wire.Lawful) (h : s.Carries wire toWriterXml m c before) :
    ((s.loop.encoded wire).map fun b => UsbDevicePacket.fromSlice wire.toTcpCodec b) =
      (outgoing 1 s.loop.loaded).map fun p => (.ok p, []) := by
  rw [WriterLoop.encoded, List.map_map]
  apply List.map_congr_left
  intro q hq
  obtain ⟨p, hp, sendSeq, recvSeq, rfl⟩ := exists_of_mem_outgoing hq
  have hmem := List.mem_append_left s.loop.wTx (h.sound.refines.dequeued.subset hp)
  obtain ⟨b, rfl, hbelow⟩ := h.packets p hmem
  have hlt : (b.build toWriterXml).encodedLen < UInt32.size := Nat.lt_trans hbelow (by decide)
  have hwell := (UsbDevicePacketBuilder.build_wellFormed toWriterXml b hlt).patch sendSeq recvSeq
  have htakes := UsbDevicePacket.fromSlice_encode hw hwell []
  rwa [List.append_nil] at htakes

/-- What the device gets of the loop decodes, behind what decodes before it. -/
theorem Carries.delivers (hw : wire.Lawful) (h : s.Carries wire toWriterXml m c before)
    {first : List UsbDevicePacket}
    (hfirst : ∀ p ∈ first, ∃ protocol, p.WellFormed protocol)
    (hreceived : s.received = (first.map (UsbDevicePacket.encode wire) ++ s.loop.segments, [])) :
    s.Delivers wire first := by
  have hdecoded : s.decoded wire = (first.map fun p => (.ok p, [])) ++
      s.loop.segments.map fun b => UsbDevicePacket.fromSlice wire.toTcpCodec b := by
    rw [WriterTransfers.decoded, hreceived, List.map_append, List.map_map]
    congr 1
    apply List.map_congr_left
    intro p hp
    obtain ⟨protocol, hwell⟩ := hfirst p hp
    have htakes := UsbDevicePacket.fromSlice_encode hw hwell []
    rwa [List.append_nil] at htakes
  have hrefines := h.sound.refines
  refine ⟨by rw [hreceived], hrefines.dequeued, ?_, fun hp => ?_⟩
  · rw [hdecoded, List.map_append, ← h.fromSlice hw]
    exact (List.prefix_append_right_inj _).mpr (hrefines.segments.map _)
  · obtain ⟨hloaded, hsegments⟩ := hrefines.complete hp
    refine ⟨hloaded, ?_⟩
    rw [hdecoded, List.map_append, ← h.fromSlice hw, hsegments]
    rfl

/-- A writer that has counted nothing before ends every packet by its length. -/
theorem Carries.received_new (h : s.Carries wire toWriterXml m 0 []) (hm : 0 < m) :
    s.received = (s.loop.segments, []) := by
  apply (h.received_iff hm rfl).mpr
  intro first _
  rw [Nat.zero_add]

/-- In every run of the loop over a new writer, whatever the polls and the other
tasks do in between, the device decodes just the packets that came off the
channel, in their order and numbered without a gap, as long as they stay below
the writer's threshold and no transfer fails. -/
theorem device_decodes_packets (hw : wire.Lawful) {maxPacketSize : UInt16}
    (hm : 0 < maxPacketSize.toNat) {as : List Action}
    (ha : StepSystem.EveryStep (step wire toWriterXml) (fun _ a => Answered toWriterXml a)
      (start (.new maxPacketSize)) as) :
    StepSystem.EveryState (step wire toWriterXml) (Delivers wire [])
      (start (.new maxPacketSize)) as := by
  have hrun : StepSystem.EveryState (step wire toWriterXml)
      (Carries wire toWriterXml maxPacketSize.toNat 0 []) (start (.new maxPacketSize)) as :=
    StepSystem.everyState_of_everyStep
      (fun _ _ _ h ha hst => (h.step hw (Nat.two_pow_pos 32) ha hst).1) (carries_start rfl rfl) ha
  exact hrun.mono fun _ h => h.delivers hw (fun _ hp => by cases hp) (h.received_new hm)

/-- Two packets on a full-speed endpoint, the first of which fills its packet. -/
theorem device_decodes_packets_two : StepSystem.EveryState (step tcpWire writeXml)
    (Delivers tcpWire []) (start (.new 64))
      [.produce (.setup 0 0 (List.replicate 48 7)), .accept, .recv, .takeSendSeq, .getRecvSeq,
        .poll (.ok ()), .headerDone, .produce (.setup 0 0 [7]), .poll (.ok ()),
        .submitEnd (.ok ()) (.ok ()), .recv, .takeSendSeq, .getRecvSeq, .poll (.ok ()),
        .headerDone, .poll (.ok ()), .submitEnd (.ok ()) (.ok ())] :=
  device_decodes_packets tcpWire_lawful (by decide) (by decide)

end WriterTransfers

end Rusbmux
