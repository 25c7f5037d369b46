import Rusbmux.MuxRoundTrip
import Rusbmux.Relay
import Mathlib.Data.List.Infix

/-! The writer loop of src/device/usb.rs, with the producers on its channel and
the reader loop that counts the packets it accepts. -/
namespace Rusbmux

/-- `buf[start..stop].copy_from_slice(src)`, which panics unless the lengths agree. -/
def copyFromSlice (buf : Bytes) (start stop : ℕ) (src : Bytes) : Option Bytes :=
  if start ≤ stop ∧ stop ≤ buf.length ∧ src.length = stop-start then
    some (buf.take start ++ src ++ buf.drop stop)
  else none

/-- The packet with the values for its place holders. -/
def UsbDevicePacket.patch (p : UsbDevicePacket) (sendSeq recvSeq : UInt16) : UsbDevicePacket :=
  match p.header with
  | .v1 _ => p
  | .v2 h => { p with header := .v2 { h with sendSeq := sendSeq, recvSeq := recvSeq } }

namespace WriterLoop

inductive Phase where
  /-- In `rx.recv()`. -/
  | recv
  /-- A packet with a V2 header: `take_send_seq` is next. -/
  | dequeued (packet : UsbDevicePacket)
  /-- `get_recv_seq` is next. -/
  | numbered (packet : UsbDevicePacket) (sendSeq : UInt16)
  /-- In `write_all` of the headers, with the bytes not written yet. -/
  | header (remaining : Bytes) (packet : UsbDevicePacket)
  /-- In `write_all` of the payload. -/
  | payload (remaining : Bytes)
  | panicked

inductive Action where
  /-- A producer puts a packet on the channel. -/
  | produce (b : UsbDevicePacketBuilder)
  /-- The reader loop increments `recv_seq`. -/
  | accept
  | recv
  | takeSendSeq
  | getRecvSeq
  /-- `write_all` hands `k` bytes to the endpoint. -/
  | write (k : ℕ)
  | headerDone
  | submitEnd

end WriterLoop

/-- `accepted`, `dequeued` and `loaded` are no part of the program: the packets
that the reader loop accepted, those that came off the channel, and those whose
numbers are settled, with `accepted` at that moment. -/
structure WriterLoop where
  wTx : List UsbDevicePacket
  sendSeq : UInt16
  recvSeq : UInt16
  hbuf : Bytes
  /-- What is written since the last `submit_end`. -/
  written : Bytes
  /-- What was written between one `submit_end` and the next. -/
  segments : List Bytes
  phase : WriterLoop.Phase
  accepted : ℕ
  dequeued : List UsbDevicePacket
  loaded : List (UsbDevicePacket × ℕ)

namespace WriterLoop

variable (wire : TcpWire) (toWriterXml : PlistValue → Bytes)

/-- The bytes of the headers, and the header buffer that they leave. -/
def encodeHeaders (hbuf : Bytes) (packet : UsbDevicePacket) : Option (Bytes × Bytes) :=
  match packet.header with
  | .v1 h => some (h.encode, hbuf)
  | .v2 h => do
    let hbuf ← copyFromSlice hbuf 0 UsbDevicePacketHeaderV2.SIZE h.encode
    match packet.tcpHdr with
    | some tcpHdr => do
      let hbuf ← copyFromSlice hbuf UsbDevicePacketHeaderV2.SIZE hbuf.length
        (wire.toBytes tcpHdr)
      some (hbuf, hbuf)
    | none => some (hbuf.take UsbDevicePacketHeaderV2.SIZE, hbuf)

/-- The headers of a packet whose numbers are settled. -/
def writeHeaders (s : WriterLoop) (packet : UsbDevicePacket) : WriterLoop :=
  match encodeHeaders wire s.hbuf packet with
  | some (bytes, hbuf) => { s with hbuf := hbuf, phase := .header bytes packet }
  | none => { s with phase := .panicked }

def step (s : WriterLoop) : Action → Option WriterLoop
  | .produce b =>
    if s.wTx.length < QUEUE_SIZE then some { s with wTx := s.wTx ++ [b.build toWriterXml] }
    else none
  | .accept => some { s with recvSeq := s.recvSeq+1, accepted := s.accepted+1 }
  | .recv => match s.phase, s.wTx with
    | .recv, packet :: rest =>
      let s := { s with wTx := rest, dequeued := s.dequeued ++ [packet] }
      match packet.header with
      -- a V1 header has no numbers
      | .v1 _ => some (writeHeaders wire
          { s with loaded := s.loaded ++ [(packet, s.accepted)] } packet)
      | .v2 _ => some { s with phase := .dequeued packet }
    | _, _ => none
  | .takeSendSeq => match s.phase with
    | .dequeued packet =>
      some { s with sendSeq := s.sendSeq+1, phase := .numbered packet s.sendSeq }
    | _ => none
  | .getRecvSeq => match s.phase with
    | .numbered packet sendSeq => some (writeHeaders wire
        { s with loaded := s.loaded ++ [(packet, s.accepted)] } (packet.patch sendSeq s.recvSeq))
    | _ => none
  -- `write_all` goes on until nothing remains
  | .write k => match s.phase with
    | .header remaining packet =>
      if 0 < k ∧ k ≤ remaining.length then
        some { s with
          written := s.written ++ remaining.take k
          phase := .header (remaining.drop k) packet }
      else none
    | .payload remaining =>
      if 0 < k ∧ k ≤ remaining.length then
        some { s with
          written := s.written ++ remaining.take k
          phase := .payload (remaining.drop k) }
      else none
    | _ => none
  | .headerDone => match s.phase with
    | .header [] packet => some { s with phase := .payload packet.payload.encode }
    | _ => none
  | .submitEnd => match s.phase with
    | .payload [] =>
      some { s with segments := s.segments ++ [s.written], written := [], phase := .recv }
    | _ => none

/-- The loop of a new device. -/
def start : WriterLoop where
  wTx := []
  sendSeq := 1
  recvSeq := 0
  hbuf := List.replicate (UsbDevicePacketHeaderV2.SIZE+TcpHeader.MIN_LEN) 0
  written := []
  segments := []
  phase := .recv
  accepted := 0
  dequeued := []
  loaded := []

/-- The packets that are to go out: those with a V2 header are numbered from
`n` on, and acknowledge the packets accepted by then. -/
def outgoing : ℕ → List (UsbDevicePacket × ℕ) → List UsbDevicePacket
  | _, [] => []
  | n, (p, accepted) :: ps =>
    p.patch (UInt16.ofNat n) (UInt16.ofNat accepted) ::
      outgoing (if p.header.isV2 then n+1 else n) ps

/-- Between two calls of `submit_end` stand the bytes of one packet, encoded, of
those that came off the channel, in their order. -/
structure Refines (s : WriterLoop) : Prop where
  running : s.phase ≠ .panicked
  dequeued : s.loaded.map Prod.fst <+: s.dequeued
  segments : s.segments <+: (outgoing 1 s.loaded).map (UsbDevicePacket.encode wire)
  complete : s.phase = .recv → s.loaded.map Prod.fst = s.dequeued ∧
    s.segments = (outgoing 1 s.loaded).map (UsbDevicePacket.encode wire)

/-- The packets that the loop relies on: the header buffer has room for a TCP
header without options, behind a V2 header only. -/
structure Fits (p : UsbDevicePacket) : Prop where
  v1 : p.header.isV2 = false → p.tcpHdr = none
  options : ∀ h, p.tcpHdr = some h → h.options = []

theorem fits_build (b : UsbDevicePacketBuilder) : Fits (b.build toWriterXml) := by
  cases b with
  | version major minor => exact ⟨fun _ => rfl, (fun h hh => by cases hh)⟩
  | setup sendSeq recvSeq payload => exact ⟨fun _ => rfl, (fun h hh => by cases hh)⟩
  | tcp sendSeq recvSeq args | tcpBytes sendSeq recvSeq args _ | tcpPlist sendSeq recvSeq args _ =>
    refine ⟨(fun hv => by cases hv), fun h hh => ?_⟩
    cases hh
    rfl

/-- How many of the packets have a V2 header. -/
def countV2 (ps : List (UsbDevicePacket × ℕ)) : ℕ := ps.countP fun p => p.1.header.isV2

theorem outgoing_append_singleton (n : ℕ) (ps : List (UsbDevicePacket × ℕ)) (p : UsbDevicePacket)
    (accepted : ℕ) : outgoing n (ps ++ [(p, accepted)]) =
      outgoing n ps ++ [p.patch (UInt16.ofNat (n+countV2 ps)) (UInt16.ofNat accepted)] := by
  induction ps generalizing n with
  | nil => rfl
  | cons q ps ih =>
    have hcount : (if q.1.header.isV2 then n+1 else n)+countV2 ps = n+countV2 (q :: ps) := by
      rw [countV2, countV2, List.countP_cons]
      split_ifs <;> omega
    simp only [List.cons_append, outgoing, ih, hcount]

theorem copyFromSlice_prefix {buf src : Bytes} (h : src.length ≤ buf.length) :
    copyFromSlice buf 0 src.length src = some (src ++ buf.drop src.length) := by
  simp only [copyFromSlice, Nat.zero_le, h, Nat.sub_zero, and_self, if_true, List.take_zero,
    List.nil_append]

theorem copyFromSlice_suffix (front : Bytes) {old src : Bytes} (h : old.length = src.length) :
    copyFromSlice (front ++ old) front.length (front ++ old).length src = some (front ++ src) := by
  have hsub : src.length = (front ++ old).length-front.length := by
    rw [List.length_append]
    omega
  have hle : front.length ≤ (front ++ old).length := by
    rw [List.length_append]
    omega
  simp only [copyFromSlice, hle, Nat.le_refl, ← hsub, and_self, if_true, List.take_left,
    List.drop_length, List.append_nil]

/-- The headers come out as `encode` writes them, whatever was in the buffer. -/
theorem encodeHeaders_eq {wire : TcpWire} (hw : wire.Lawful) {hbuf : Bytes}
    {p : UsbDevicePacket} (hbuf_len : hbuf.length = UsbDevicePacket.HEADERS_LEN_V2)
    (hp : Fits p) : ∃ hbuf', hbuf'.length = UsbDevicePacket.HEADERS_LEN_V2 ∧
      encodeHeaders wire hbuf p = some (p.header.encode ++ p.tcpBytes wire, hbuf') := by
  cases hheader : p.header with
  | v1 h =>
    have htcp : p.tcpHdr = none := hp.v1 (by rw [hheader]; rfl)
    refine ⟨hbuf, hbuf_len, ?_⟩
    simp only [encodeHeaders, hheader, UsbDevicePacket.tcpBytes, htcp, Option.map_none,
      Option.getD_none, List.append_nil]
    rfl
  | v2 h =>
    have hsize : h.encode.length = UsbDevicePacketHeaderV2.SIZE := rfl
    have hfront : copyFromSlice hbuf 0 UsbDevicePacketHeaderV2.SIZE h.encode =
        some (h.encode ++ hbuf.drop UsbDevicePacketHeaderV2.SIZE) := by
      rw [← hsize]
      exact copyFromSlice_prefix (by rw [hbuf_len, hsize]; decide)
    have hold : (hbuf.drop UsbDevicePacketHeaderV2.SIZE).length = TcpHeader.MIN_LEN := by
      rw [List.length_drop, hbuf_len]
      rfl
    cases htcp : p.tcpHdr with
    | none =>
      refine ⟨h.encode ++ hbuf.drop UsbDevicePacketHeaderV2.SIZE, ?_, ?_⟩
      · rw [List.length_append, hsize, hold]
        rfl
      · simp only [encodeHeaders, hheader, hfront, htcp, UsbDevicePacket.tcpBytes,
          Option.map_none, Option.getD_none, List.append_nil, Option.bind_eq_bind,
          Option.bind_some, List.take_left' hsize]
        rfl
    | some tcpHdr =>
      have hlen : (wire.toBytes tcpHdr).length = TcpHeader.MIN_LEN := by
        rw [hw.length_toBytes, TcpHeader.headerLen, hp.options tcpHdr htcp]
        rfl
      have hback := copyFromSlice_suffix h.encode (hold.trans hlen.symm)
      rw [hsize] at hback
      refine ⟨h.encode ++ wire.toBytes tcpHdr, ?_, ?_⟩
      · rw [List.length_append, hsize, hlen]
        rfl
      · simp only [encodeHeaders, hheader, hfront, htcp, UsbDevicePacket.tcpBytes,
          Option.map_some, Option.getD_some, Option.bind_eq_bind, Option.bind_some, hback]
        rfl

variable {wire : TcpWire} {toWriterXml : PlistValue → Bytes} {s t : WriterLoop}

/-- What is to be written of the packets whose numbers are settled. -/
def encoded (wire : TcpWire) (s : WriterLoop) : List Bytes :=
  (outgoing 1 s.loaded).map (UsbDevicePacket.encode wire)

/-- The number of the next packet with a V2 header. -/
def nextSeq (s : WriterLoop) : UInt16 := UInt16.ofNat (1+countV2 s.loaded)

/-- All packets are written whose numbers are settled. -/
structure Settled (wire : TcpWire) (s : WriterLoop) : Prop where
  written : s.written = []
  segments : s.segments = s.encoded wire

/-- The last of the packets is being written, and `rest` is missing of it. -/
structure Writing (wire : TcpWire) (s : WriterLoop) (rest : Bytes) : Prop where
  dequeued : s.dequeued = s.loaded.map Prod.fst
  segments : s.segments ++ [s.written ++ rest] = s.encoded wire
  sendSeq : s.sendSeq = s.nextSeq

/-- What holds in a phase. -/
def InPhase (wire : TcpWire) (s : WriterLoop) : Phase → Prop
  | .recv => s.Settled wire ∧ s.dequeued = s.loaded.map Prod.fst ∧ s.sendSeq = s.nextSeq
  | .dequeued p => s.Settled wire ∧ s.dequeued = s.loaded.map Prod.fst ++ [p] ∧ Fits p ∧
    p.header.isV2 = true ∧ s.sendSeq = s.nextSeq
  | .numbered p sendSeq => s.Settled wire ∧ s.dequeued = s.loaded.map Prod.fst ++ [p] ∧ Fits p ∧
    p.header.isV2 = true ∧ sendSeq = s.nextSeq ∧ s.sendSeq = sendSeq+1
  | .header remaining p => s.Writing wire (remaining ++ p.payload.encode)
  | .payload remaining => s.Writing wire remaining
  | .panicked => False

/-- What holds in every phase. -/
structure Ready (s : WriterLoop) : Prop where
  hbuf : s.hbuf.length = UsbDevicePacket.HEADERS_LEN_V2
  wTx : ∀ p ∈ s.wTx, Fits p
  recvSeq : s.recvSeq = UInt16.ofNat s.accepted

structure Sound (wire : TcpWire) (s : WriterLoop) : Prop extends Ready s where
  phase : s.InPhase wire s.phase

theorem sound_start : start.Sound wire where
  hbuf := List.length_replicate
  wTx := fun _ hp => absurd hp List.not_mem_nil
  recvSeq := rfl
  phase := ⟨⟨rfl, rfl⟩, rfl, rfl⟩

theorem Sound.refines (h : s.Sound wire) : s.Refines wire := by
  obtain ⟨-, hphase⟩ := h
  cases hp : s.phase with
  | recv =>
    rw [hp] at hphase
    obtain ⟨hset, hdeq, -⟩ := hphase
    refine ⟨(fun hc => by rw [hp] at hc; cases hc), ?_, ?_, fun _ => ⟨hdeq.symm, hset.segments⟩⟩
    · rw [hdeq]
    · rw [hset.segments]
      exact List.prefix_rfl
  | dequeued p =>
    rw [hp] at hphase
    obtain ⟨hset, hdeq, -⟩ := hphase
    refine ⟨(fun hc => by rw [hp] at hc; cases hc), ⟨[p], hdeq.symm⟩, ?_,
      (fun hc => by rw [hp] at hc; cases hc)⟩
    rw [hset.segments]
    exact List.prefix_rfl
  | numbered p sendSeq =>
    rw [hp] at hphase
    obtain ⟨hset, hdeq, -⟩ := hphase
    refine ⟨(fun hc => by rw [hp] at hc; cases hc), ⟨[p], hdeq.symm⟩, ?_,
      (fun hc => by rw [hp] at hc; cases hc)⟩
    rw [hset.segments]
    exact List.prefix_rfl
  | header remaining p =>
    rw [hp] at hphase
    refine ⟨(fun hc => by rw [hp] at hc; cases hc), ?_, ⟨_, hphase.segments⟩,
      (fun hc => by rw [hp] at hc; cases hc)⟩
    rw [hphase.dequeued]
  | payload remaining =>
    rw [hp] at hphase
    refine ⟨(fun hc => by rw [hp] at hc; cases hc), ?_, ⟨_, hphase.segments⟩,
      (fun hc => by rw [hp] at hc; cases hc)⟩
    rw [hphase.dequeued]
  | panicked =>
    rw [hp] at hphase
    exact hphase.elim

/-- The packet that gets its numbers is the one that goes out. -/
theorem encoded_append (hs : s.Settled wire) (p : UsbDevicePacket) :
    ({ s with loaded := s.loaded ++ [(p, s.accepted)] } : WriterLoop).encoded wire =
      s.segments ++ [(p.patch s.nextSeq (UInt16.ofNat s.accepted)).encode wire] := by
  rw [hs.segments]
  simp only [encoded, outgoing_append_singleton, List.map_append, List.map_cons, List.map_nil,
    nextSeq]

theorem countV2_append (ps : List (UsbDevicePacket × ℕ)) (p : UsbDevicePacket) (accepted : ℕ) :
    countV2 (ps ++ [(p, accepted)]) = countV2 ps+(if p.header.isV2 then 1 else 0) := by
  rw [countV2, List.countP_append, List.countP_singleton]
  rfl

/-- The headers of the packet `q` that goes out for `p` are next. -/
theorem Ready.writeHeaders (hw : wire.Lawful) (h : s.Ready) {p q : UsbDevicePacket}
    (hset : s.Settled wire) (hdeq : s.dequeued = s.loaded.map Prod.fst ++ [p])
    (hq : q = p.patch s.nextSeq (UInt16.ofNat s.accepted)) (hfits : Fits q)
    (hseq : s.sendSeq = UInt16.ofNat (1+countV2 (s.loaded ++ [(p, s.accepted)]))) :
    (writeHeaders wire { s with loaded := s.loaded ++ [(p, s.accepted)] } q).Sound wire := by
  obtain ⟨hbuf', hlen, henc⟩ := encodeHeaders_eq hw h.hbuf hfits
  have hout : WriterLoop.writeHeaders wire { s with loaded := s.loaded ++ [(p, s.accepted)] } q =
      { s with
        loaded := s.loaded ++ [(p, s.accepted)]
        hbuf := hbuf'
        phase := .header (q.header.encode ++ q.tcpBytes wire) q } := by
    simp only [WriterLoop.writeHeaders, henc]
  rw [hout]
  refine ⟨⟨hlen, h.wTx, h.recvSeq⟩, ?_, ?_, hseq⟩
  · simp only [hdeq, List.map_append, List.map_cons, List.map_nil]
  · -- what is in the buffer and what the phase has still to write
    refine Eq.trans ?_ (encoded_append hset p).symm
    simp only [hset.written, List.nil_append, List.append_assoc, ← hq, UsbDevicePacket.encode_eq]

theorem Fits.patch {p : UsbDevicePacket} (h : Fits p) (sendSeq recvSeq : UInt16) :
    Fits (p.patch sendSeq recvSeq) := by
  cases hh : p.header with
  | v1 v =>
    rw [UsbDevicePacket.patch, hh]
    exact h
  | v2 v =>
    rw [UsbDevicePacket.patch, hh]
    exact ⟨(fun hv => by cases hv), h.options⟩

theorem patch_v1 {p : UsbDevicePacket} (h : p.header.isV2 = false) (sendSeq recvSeq : UInt16) :
    p.patch sendSeq recvSeq = p := by
  cases hh : p.header with
  | v1 v => rw [UsbDevicePacket.patch, hh]
  | v2 v =>
    rw [hh] at h
    cases h

theorem sound_recv (hw : wire.Lawful) (h : s.Sound wire)
    (hst : s.step wire toWriterXml .recv = some t) : t.Sound wire := by
  obtain ⟨⟨hbuf, hwTx, hrecv⟩, hphase⟩ := h
  simp only [step] at hst
  split at hst
  next packet rest hp hq =>
    rw [hp] at hphase
    rw [hq] at hwTx
    obtain ⟨hset, hdeq, hseq⟩ := hphase
    have hfits := hwTx packet List.mem_cons_self
    have hrest : ∀ p ∈ rest, Fits p := fun p hp => hwTx p (List.mem_cons_of_mem packet hp)
    have hdeq' : s.dequeued ++ [packet] = s.loaded.map Prod.fst ++ [packet] := by rw [hdeq]
    have hset' : Settled wire { s with wTx := rest, dequeued := s.dequeued ++ [packet] } :=
      ⟨hset.written, hset.segments⟩
    split at hst
    next v hv =>
      cases hst
      have hv2 : packet.header.isV2 = false := by rw [hv]; rfl
      refine Ready.writeHeaders (s := { s with wTx := rest, dequeued := s.dequeued ++ [packet] })
        hw ⟨hbuf, hrest, hrecv⟩ hset' hdeq' (patch_v1 hv2 _ _).symm hfits ?_
      rw [countV2_append, hv2]
      exact hseq
    next v hv =>
      cases hst
      have hv2 : packet.header.isV2 = true := by rw [hv]; rfl
      exact ⟨⟨hbuf, hrest, hrecv⟩, ⟨hset.written, hset.segments⟩, hdeq', hfits, hv2, hseq⟩
  next => cases hst

theorem sound_takeSendSeq (h : s.Sound wire)
    (hst : s.step wire toWriterXml .takeSendSeq = some t) : t.Sound wire := by
  obtain ⟨⟨hbuf, hwTx, hrecv⟩, hphase⟩ := h
  simp only [step] at hst
  split at hst
  next packet hp =>
    cases hst
    rw [hp] at hphase
    obtain ⟨hset, hdeq, hfits, hv2, hseq⟩ := hphase
    exact ⟨⟨hbuf, hwTx, hrecv⟩, ⟨hset.written, hset.segments⟩, hdeq, hfits, hv2, hseq, rfl⟩
  next => cases hst

theorem sound_getRecvSeq (hw : wire.Lawful) (h : s.Sound wire)
    (hst : s.step wire toWriterXml .getRecvSeq = some t) : t.Sound wire := by
  obtain ⟨hready, hphase⟩ := h
  simp only [step] at hst
  split at hst
  next packet sendSeq hp =>
    cases hst
    rw [hp] at hphase
    obtain ⟨hset, hdeq, hfits, hv2, rfl, hnext⟩ := hphase
    refine hready.writeHeaders hw hset hdeq (by rw [hready.recvSeq]) (hfits.patch _ _) ?_
    rw [hnext, nextSeq, countV2_append, hv2, if_pos rfl, ← Nat.add_assoc,
      UInt16.ofNat_add (1+countV2 s.loaded)]
    rfl
  next => cases hst

/-- The producers and the reader loop change nothing of what is written. -/
theorem InPhase.frame {phase : Phase} (h : s.InPhase wire phase) (wTx : List UsbDevicePacket)
    (recvSeq : UInt16) (accepted : ℕ) :
    ({ s with wTx := wTx, recvSeq := recvSeq, accepted := accepted } : WriterLoop).InPhase wire
      phase := by
  cases phase with
  | recv =>
    obtain ⟨⟨hwritten, hsegments⟩, hrest⟩ := h
    exact ⟨⟨hwritten, hsegments⟩, hrest⟩
  | dequeued packet =>
    obtain ⟨⟨hwritten, hsegments⟩, hrest⟩ := h
    exact ⟨⟨hwritten, hsegments⟩, hrest⟩
  | numbered packet sendSeq =>
    obtain ⟨⟨hwritten, hsegments⟩, hrest⟩ := h
    exact ⟨⟨hwritten, hsegments⟩, hrest⟩
  | header remaining packet => exact ⟨h.dequeued, h.segments, h.sendSeq⟩
  | payload remaining => exact ⟨h.dequeued, h.segments, h.sendSeq⟩
  | panicked => exact h

theorem sound_produce {b : UsbDevicePacketBuilder} (h : s.Sound wire)
    (hst : s.step wire toWriterXml (.produce b) = some t) : t.Sound wire := by
  obtain ⟨⟨hbuf, hwTx, hrecv⟩, hphase⟩ := h
  simp only [step, Option.ite_none_right_eq_some, Option.some.injEq] at hst
  obtain ⟨-, rfl⟩ := hst
  refine ⟨⟨hbuf, fun p hp => ?_, hrecv⟩, hphase.frame _ _ _⟩
  rcases List.mem_append.mp hp with hp | hp
  · exact hwTx p hp
  · rw [List.mem_singleton.mp hp]
    exact fits_build toWriterXml b

theorem sound_accept (h : s.Sound wire)
    (hst : s.step wire toWriterXml .accept = some t) : t.Sound wire := by
  obtain ⟨⟨hbuf, hwTx, hrecv⟩, hphase⟩ := h
  cases hst
  refine ⟨⟨hbuf, hwTx, ?_⟩, hphase.frame _ _ _⟩
  rw [hrecv, UInt16.ofNat_add s.accepted 1]
  rfl

/-- `k` of the missing bytes are written. -/
theorem Writing.take {rest more : Bytes} (h : s.Writing wire (rest ++ more)) (k : ℕ)
    (phase : Phase) : ({ s with written := s.written ++ rest.take k, phase := phase } :
      WriterLoop).Writing wire (rest.drop k ++ more) := by
  refine ⟨h.dequeued, ?_, h.sendSeq⟩
  refine Eq.trans ?_ h.segments
  simp only [List.append_assoc]
  rw [← List.append_assoc (rest.take k), List.take_append_drop]

theorem sound_write {k : ℕ} (h : s.Sound wire)
    (hst : s.step wire toWriterXml (.write k) = some t) : t.Sound wire := by
  obtain ⟨⟨hbuf, hwTx, hrecv⟩, hphase⟩ := h
  simp only [step] at hst
  split at hst
  next remaining packet hp =>
    rw [hp] at hphase
    split_ifs at hst
    cases hst
    exact ⟨⟨hbuf, hwTx, hrecv⟩, hphase.take k _⟩
  next remaining hp =>
    rw [hp] at hphase
    split_ifs at hst
    cases hst
    have hwriting : s.Writing wire (remaining ++ []) := by rwa [List.append_nil]
    have hwriting := hwriting.take k (.payload (remaining.drop k))
    rw [List.append_nil] at hwriting
    exact ⟨⟨hbuf, hwTx, hrecv⟩, hwriting⟩
  next => cases hst

theorem sound_headerDone (h : s.Sound wire)
    (hst : s.step wire toWriterXml .headerDone = some t) : t.Sound wire := by
  obtain ⟨⟨hbuf, hwTx, hrecv⟩, hphase⟩ := h
  simp only [step] at hst
  split at hst
  next packet hp =>
    cases hst
    rw [hp] at hphase
    exact ⟨⟨hbuf, hwTx, hrecv⟩, hphase.dequeued, hphase.segments, hphase.sendSeq⟩
  next => cases hst

theorem sound_submitEnd (h : s.Sound wire)
    (hst : s.step wire toWriterXml .submitEnd = some t) : t.Sound wire := by
  obtain ⟨⟨hbuf, hwTx, hrecv⟩, hphase⟩ := h
  simp only [step] at hst
  split at hst
  next hp =>
    cases hst
    rw [hp] at hphase
    have hsegments := hphase.segments
    rw [List.append_nil] at hsegments
    exact ⟨⟨hbuf, hwTx, hrecv⟩, ⟨rfl, hsegments⟩, hphase.dequeued, hphase.sendSeq⟩
  next => cases hst

theorem sound_step (hw : wire.Lawful) {action : Action} (h : s.Sound wire)
    (hst : s.step wire toWriterXml action = some t) : t.Sound wire := by
  cases action with
  | produce b => exact sound_produce h hst
  | accept => exact sound_accept h hst
  | recv => exact sound_recv hw h hst
  | takeSendSeq => exact sound_takeSendSeq h hst
  | getRecvSeq => exact sound_getRecvSeq hw h hst
  | write k => exact sound_write h hst
  | headerDone => exact sound_headerDone h hst
  | submitEnd => exact sound_submitEnd h hst

/-- In every run, the writer loop writes the packets of the builder as `encode`
does, numbered without a gap and with the packets accepted when it numbered them. -/
theorem refines_encode (hw : wire.Lawful) (toWriterXml : PlistValue → Bytes)
    (as : List Action) :
    StepSystem.EveryState (step wire toWriterXml) (Refines wire) start as := by
  have hrun : StepSystem.EveryState (step wire toWriterXml) (Sound wire) start as :=
    StepSystem.everyState_of_everyStep (fun _ _ _ h _ hst => sound_step hw h hst) sound_start
      (StepSystem.everyStep_true start as)
  exact hrun.mono fun _ h => h.refines

theorem refines_encode_setup : StepSystem.EveryState (step tcpWire writeXml)
    (Refines tcpWire) start [.produce (.setup 0 0 [7]), .accept, .recv, .takeSendSeq, .accept,
      .produce (.tcpPlist 0 0 ⟨1, 62078, 1, 1, .ACK⟩ (.string "QueryType")), .getRecvSeq,
      .write 16, .headerDone, .write 1, .submitEnd, .recv, .takeSendSeq, .getRecvSeq,
      .write 20, .write 16, .headerDone, .write 4, .write 200, .submitEnd] :=
  refines_encode tcpWire_lawful _ _

end WriterLoop

end Rusbmux
