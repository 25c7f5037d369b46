import Rusbmux.RelayLoss
import Rusbmux.MuxRoundTrip
import Mathlib.Data.List.Infix

/-! What a relay enqueues of the client's bytes, over a whole run. -/
namespace Rusbmux

/-- A relay with what the client wrote since its start and the data packets that
the relay enqueued. Neither is a part of the program. -/
structure Upload where
  relay : Relay
  written : Bytes
  sent : List UsbDevicePacket
  deriving DecidableEq

namespace Upload

/-- The bytes that an action adds to the client's stream. -/
def writes : Relay.Action → Bytes
  | .clientWrites b => b
  | _ => []

/-- The data packet that an action puts on the writer channel. -/
def enqueues (s : Relay) : Relay.Action → List UsbDevicePacket
  | .sendDone => match s.phase with
    | .sendBytes packet => [packet]
    | _ => []
  | _ => []

def step (s : Upload) (action : Relay.Action) : Option Upload :=
  (s.relay.step action).map fun relay =>
    ⟨relay, s.written ++ writes action, s.sent ++ enqueues s.relay action⟩

def start (conn : UsbDeviceConn) (rx : List Arrival) (wTx : List UsbDevicePacket)
    (sentTotal ackedTotal : ℕ) : Upload :=
  ⟨.start conn rx wTx sentTotal ackedTotal, [], []⟩

/-- A data packet that may follow others, on a connection whose first byte has
the number `seq`. -/
structure Follows (seq : UInt32) (earlier : List UsbDevicePacket) (p : UsbDevicePacket) :
    Prop where
  pos : 0 < p.payload.encode.length
  le : p.payload.encode.length ≤ MAX_PACKET_PAYLOAD_SIZE
  sequenceNumber : p.tcpHdr.map TcpHeader.sequenceNumber =
    some (seq+UInt32.ofNat (Relay.payloads earlier).length)

/-- The data packets carry the client's bytes, in their order and without a gap,
and all of them once the relay has found the client gone, which it has only at
the end of the client's bytes. `dropped` is set by no other exit. -/
structure Conserves (seq : UInt32) (s : Upload) : Prop where
  payloads : Relay.payloads s.sent <+: s.written
  packets : ∀ earlier p later, s.sent = earlier ++ p :: later → Follows seq earlier p
  closing : s.relay.phase = .closing → s.relay.conn.dropped = true
  eof : s.relay.conn.dropped = true →
    s.relay.clientEof = true ∧ Relay.payloads s.sent = s.written

/-- The bytes of the client that are in a packet and not enqueued. -/
def pending : Relay.Phase → Bytes
  | .sendBytes packet => packet.payload.encode
  | _ => []

/-- What holds in a phase. -/
def InPhase (s : Upload) (seq : UInt32) : Relay.Phase → Prop
  | .select sendable _ => sendable ≤ MAX_PACKET_PAYLOAD_SIZE
  | .sendBytes packet => Follows seq s.sent packet
  | .closing => s.relay.conn.dropped = true
  | .clientSend _ | .ended => True

structure Sound (seq : UInt32) (s : Upload) : Prop where
  prefixed : Relay.payloads s.sent <+: s.written
  total : s.relay.phase ≠ .ended → Relay.payloads s.sent ++
    (pending s.relay.phase ++ (s.relay.readBuf ++ s.relay.clientIn)) = s.written
  packets : ∀ earlier p later, s.sent = earlier ++ p :: later → Follows seq earlier p
  sentBytes : s.relay.conn.sentBytes = seq+UInt32.ofNat (Relay.payloads s.sent).length
  sendable : s.relay.conn.sendableBytes ≤ MAX_PACKET_PAYLOAD_SIZE
  phase : s.InPhase seq s.relay.phase
  eof : s.relay.conn.dropped = true →
    s.relay.clientEof = true ∧ Relay.payloads s.sent = s.written

variable {seq : UInt32} {s t : Upload}

theorem Sound.conserves (h : s.Sound seq) : s.Conserves seq where
  payloads := h.prefixed
  packets := h.packets
  closing := by
    intro hp
    have hphase := h.phase
    rwa [hp] at hphase
  eof := h.eof

theorem calcSendableBytes_le (sentBytes : UInt32) (window : UInt16) (received : UInt32) :
    UsbDeviceConn.calcSendableBytes sentBytes window received ≤ MAX_PACKET_PAYLOAD_SIZE := by
  dsimp only [UsbDeviceConn.calcSendableBytes]
  split_ifs
  · exact Nat.min_le_right _ _
  · exact Nat.zero_le _

theorem sound_start (destinationPort sourcePort : UInt16) (seq received : UInt32)
    (window : UInt16) (acked : UInt32) (rx : List Arrival) (wTx : List UsbDevicePacket)
    (sentTotal ackedTotal : ℕ) :
    (start (.newFrom destinationPort sourcePort seq received window acked) rx wTx sentTotal
      ackedTotal).Sound seq where
  prefixed := List.prefix_rfl
  total := fun _ => rfl
  packets := fun earlier p later hp => absurd hp.symm (by simp [start])
  sentBytes := (UInt32.add_zero seq).symm
  sendable := calcSendableBytes_le seq window acked
  phase := calcSendableBytes_le seq window acked
  eof := (fun hd => by cases hd)

/-- A step that leaves the client's bytes where they are. -/
structure Frame (s t : Relay) : Prop where
  readBuf : t.readBuf = s.readBuf
  clientIn : t.clientIn = s.clientIn
  clientEof : s.clientEof = true → t.clientEof = true
  sentBytes : t.conn.sentBytes = s.conn.sentBytes
  dropped : t.conn.dropped = s.conn.dropped
  sendable : s.conn.sendableBytes ≤ MAX_PACKET_PAYLOAD_SIZE →
    t.conn.sendableBytes ≤ MAX_PACKET_PAYLOAD_SIZE

theorem Sound.frame {t : Relay} (h : s.Sound seq) (f : Frame s.relay t)
    (hpending : t.phase ≠ .ended →
      s.relay.phase ≠ .ended ∧ pending t.phase = pending s.relay.phase)
    (hphase : ({ s with relay := t } : Upload).InPhase seq t.phase) :
    ({ s with relay := t } : Upload).Sound seq where
  prefixed := h.prefixed
  total := by
    intro ht
    obtain ⟨hs, hp⟩ := hpending ht
    rw [hp, f.readBuf, f.clientIn]
    exact h.total hs
  packets := h.packets
  sentBytes := f.sentBytes.trans h.sentBytes
  sendable := f.sendable h.sendable
  phase := hphase
  eof := by
    intro hd
    obtain ⟨heof, hall⟩ := h.eof (f.dropped.symm.trans hd)
    exact ⟨f.clientEof heof, hall⟩

/-- The relay stays in its phase. -/
theorem Sound.stays {t : Relay} (h : s.Sound seq) (f : Frame s.relay t)
    (hp : t.phase = s.relay.phase) : ({ s with relay := t } : Upload).Sound seq := by
  apply h.frame f
  · intro ht
    rw [hp] at ht ⊢
    exact ⟨ht, rfl⟩
  · have hphase := h.phase
    rw [hp]
    cases hs : s.relay.phase with
    | select sendable held =>
      rw [hs] at hphase
      exact hphase
    | clientSend remaining => trivial
    | sendBytes packet =>
      rw [hs] at hphase
      exact hphase
    | closing =>
      rw [hs] at hphase
      exact f.dropped.trans hphase
    | ended => trivial

theorem Sound.ended {t : Relay} (h : s.Sound seq) (f : Frame s.relay t)
    (hp : t.phase = .ended) : ({ s with relay := t } : Upload).Sound seq := by
  apply h.frame f
  · exact fun ht => absurd hp ht
  · rw [hp]
    trivial

/-- The relay goes on without a data packet in its hands. -/
theorem Sound.idle {t : Relay} (h : s.Sound seq) (f : Frame s.relay t)
    (hs : s.relay.phase ≠ .ended) (hpending : pending s.relay.phase = [])
    (hp : (∃ remaining, t.phase = .clientSend remaining) ∨
      ∃ sendable held, t.phase = .select sendable held ∧ sendable ≤ MAX_PACKET_PAYLOAD_SIZE) :
    ({ s with relay := t } : Upload).Sound seq := by
  obtain ⟨remaining, hp⟩ | ⟨sendable, held, hp, hle⟩ := hp
  · apply h.frame f
    · intro _
      rw [hp, hpending]
      exact ⟨hs, rfl⟩
    · rw [hp]
      trivial
  · apply h.frame f
    · intro _
      rw [hp, hpending]
      exact ⟨hs, rfl⟩
    · rw [hp]
      exact hle

theorem recvTake_sentBytes (conn : UsbDeviceConn) (p : UsbDevicePacket) :
    (conn.recvTake p).sentBytes = conn.sentBytes ∧ (conn.recvTake p).dropped = conn.dropped ∧
      (conn.recvTake p).sendableBytes = conn.sendableBytes := by
  unfold UsbDeviceConn.recvTake
  cases p.tcpHdr with
  | none => exact ⟨rfl, rfl, rfl⟩
  | some h => exact ⟨rfl, rfl, rfl⟩

theorem frame_takePacket (r : Relay) (a : Arrival) (rest : List Arrival) :
    Frame r (r.takePacket a rest) := by
  obtain ⟨hsent, hdropped, hsendable⟩ := recvTake_sentBytes r.conn a.packet
  exact ⟨rfl, rfl, id, hsent, hdropped, fun hle => hsendable.trans_le hle⟩

theorem frame_ackSent (r : Relay) (a : Arrival) : Frame r (r.ackSent a) := by
  unfold Relay.ackSent UsbDeviceConn.updateSendableBytes
  exact ⟨rfl, rfl, id, rfl, rfl, fun _ => calcSendableBytes_le _ _ _⟩

theorem Frame.trans {r u t : Relay} (h : Frame r u) (k : Frame u t) : Frame r t where
  readBuf := k.readBuf.trans h.readBuf
  clientIn := k.clientIn.trans h.clientIn
  clientEof := fun he => k.clientEof (h.clientEof he)
  sentBytes := k.sentBytes.trans h.sentBytes
  dropped := k.dropped.trans h.dropped
  sendable := fun hle => k.sendable (h.sendable hle)

/-- What `client_read` returns is the front of the bytes not in a packet, and
they are at their end when it returns none. -/
structure TakesFront (r : Relay) (packet : Bytes) (u : Relay) : Prop where
  bytes : packet ++ (u.readBuf ++ u.clientIn) = r.readBuf ++ r.clientIn
  eof : packet = [] → r.clientEof = true ∧ r.readBuf ++ r.clientIn = []
  clientEof : u.clientEof = r.clientEof

theorem clientRead_takesFront {r u : Relay} {sendable k : ℕ} {packet : Bytes}
    (hs : 0 < sendable) (h : r.clientRead sendable k = some (packet, u)) :
    TakesFront r packet u := by
  have hnil := (Relay.clientRead_reads hs h).eq_nil_iff
  unfold Relay.clientRead at h
  split_ifs at h with hbuf hin heof hk
  · cases h
    refine ⟨?_, fun hp => absurd (hnil.mp hp).1 hbuf, rfl⟩
    rw [← List.append_assoc, List.take_append_drop]
  · cases h
    exact ⟨rfl, fun _ => ⟨heof, by rw [not_not.mp hbuf, hin]; rfl⟩, rfl⟩
  · cases h
    refine ⟨?_, fun hp => absurd (hnil.mp hp).2 hin, rfl⟩
    change (r.clientIn.take k).take sendable ++
      ((r.clientIn.take k).drop sendable ++ r.clientIn.drop k) = _
    rw [← List.append_assoc, List.take_append_drop, List.take_append_drop, not_not.mp hbuf]
    rfl

theorem sound_pollClient {k sendable : ℕ} {held : Option Arrival} {packet : Bytes} {u : Relay}
    (h : s.Sound seq) (hp : s.relay.phase = .select sendable held) (hpos : 0 < sendable)
    (hu : s.relay.clientRead sendable k = some (packet, u)) :
    ({ s with relay := u.clientPacket packet } : Upload).Sound seq := by
  have hr := Relay.clientRead_reads hpos hu
  have hf := clientRead_takesFront hpos hu
  have htotal := h.total (by rw [hp]; exact fun hc => by cases hc)
  have hphase := h.phase
  rw [hp] at htotal hphase
  simp only [pending, List.nil_append, ← hf.bytes] at htotal
  unfold Relay.clientPacket
  split_ifs with hnil
  · -- nothing was read: all bytes of the client are enqueued
    obtain ⟨heof, hend⟩ := hf.eof hnil
    rw [hf.bytes, hend, List.append_nil] at htotal
    refine ⟨h.prefixed, fun _ => ?_, h.packets, ?_, ?_, rfl, fun _ => ⟨?_, htotal⟩⟩
    · have hleft : u.readBuf ++ u.clientIn = [] := by
        have hbytes := hf.bytes
        rw [hend, hnil] at hbytes
        exact hbytes
      simp only [pending, hleft, List.append_nil, htotal]
    · simp only [hr.conn, h.sentBytes]
    · simp only [hr.conn, h.sendable]
    · exact hf.clientEof.trans heof
  · refine ⟨h.prefixed, fun _ => htotal, h.packets, ?_, ?_, ?_, ?_⟩
    · simp only [hr.conn, h.sentBytes]
    · simp only [hr.conn, h.sendable]
    · refine ⟨List.length_pos_of_ne_nil hnil, hr.length_le.trans hphase, ?_⟩
      change some u.conn.sentBytes = _
      rw [hr.conn, h.sentBytes]
    · intro hd
      obtain ⟨heof, hall⟩ := h.eof (by simpa only [hr.conn] using hd)
      exact ⟨hf.clientEof.trans heof, hall⟩

theorem sound_sendDone {t : Upload} (h : s.Sound seq)
    (hst : s.step .sendDone = some t) : t.Sound seq := by
  simp only [step, Option.map_eq_some_iff, Relay.step] at hst
  obtain ⟨r, hr, rfl⟩ := hst
  split at hr
  next packet hp =>
    rw [Option.ite_none_right_eq_some] at hr
    obtain ⟨-, hr⟩ := hr
    cases hr
    have hphase := h.phase
    have htotal := h.total (by rw [hp]; exact fun hc => by cases hc)
    rw [hp] at hphase htotal
    have hsent : s.sent ++ enqueues s.relay .sendDone = s.sent ++ [packet] := by
      simp only [enqueues, hp]
    have hpayloads : Relay.payloads (s.sent ++ [packet]) =
        Relay.payloads s.sent ++ packet.payload.encode :=
      Relay.payloads_append_singleton s.sent packet
    have hrest : Relay.payloads (s.sent ++ [packet]) ++ (s.relay.readBuf ++ s.relay.clientIn) =
        s.written := by
      rw [hpayloads, List.append_assoc]
      exact htotal
    rw [hsent]
    simp only [writes, List.append_nil]
    refine ⟨⟨_, hrest⟩, fun _ => hrest, ?_, ?_, ?_, ?_, ?_⟩
    · intro earlier p later hsplit
      rcases List.eq_nil_or_concat later with rfl | ⟨later, q, rfl⟩
      · -- the packet enqueued just now
        obtain ⟨rfl, hpq⟩ := List.append_inj' hsplit rfl
        cases hpq
        exact hphase
      · rw [List.concat_eq_append, ← List.cons_append, ← List.append_assoc] at hsplit
        obtain ⟨hinit, -⟩ := List.append_inj' hsplit rfl
        exact h.packets earlier p later hinit
    · change s.relay.conn.sentBytes+UInt32.ofNat packet.payload.len = _
      rw [h.sentBytes, hpayloads, List.length_append, UInt32.ofNat_add,
        UsbDevicePacketPayload.length_encode, UInt32.add_assoc]
    · exact calcSendableBytes_le _ _ _
    · exact calcSendableBytes_le _ _ _
    · intro hd
      -- the relay sends no more once it has found the client gone
      have hall := (h.eof hd).2
      rw [← hall] at htotal
      have hlen := congrArg List.length htotal
      have hpos := hphase.pos
      simp only [pending, List.length_append] at hlen
      omega
  next => cases hr

theorem sound_clientWrites {b : Bytes} {t : Upload} (h : s.Sound seq)
    (hst : s.step (.clientWrites b) = some t) : t.Sound seq := by
  simp only [step, Option.map_eq_some_iff, Relay.step, Option.ite_none_left_eq_some] at hst
  obtain ⟨r, ⟨heof, hr⟩, rfl⟩ := hst
  cases hr
  simp only [writes, enqueues, List.append_nil]
  refine ⟨h.prefixed.trans (List.prefix_append _ _), fun hne => ?_, h.packets, h.sentBytes,
    h.sendable, ?_, fun hd => absurd (h.eof hd).1 heof⟩
  · rw [← h.total hne]
    simp only [List.append_assoc]
  · have hphase := h.phase
    cases hs : s.relay.phase <;> rw [hs] at hphase <;> exact hphase

/-- A step of the relay, or of its environment, that neither writes to it nor
enqueues a data packet. -/
theorem sound_relay {action : Relay.Action} {t : Relay} (h : s.Sound seq)
    (hst : s.relay.step action = some t) (hsend : action ≠ .sendDone)
    (hwrite : ∀ b, action ≠ .clientWrites b) : ({ s with relay := t } : Upload).Sound seq := by
  have hleaves {phase : Relay.Phase} (hp : s.relay.phase = phase) (hne : phase ≠ .ended)
      (hnil : pending phase = []) : s.relay.phase ≠ .ended ∧ pending s.relay.phase = [] := by
    rw [hp]
    exact ⟨hne, hnil⟩
  cases Relay.move_of_step hst with
  | deviceData | writerTakes | otherSends | cancel =>
    exact h.stays ⟨rfl, rfl, id, rfl, rfl, id⟩ rfl
  | clientWrites b => exact absurd rfl (hwrite b)
  | clientCloses => exact h.stays ⟨rfl, rfl, fun _ => rfl, rfl, rfl, id⟩ rfl
  | acked sendable a rest hp hrx =>
    obtain ⟨hne, hpending⟩ := hleaves hp (fun hc => by cases hc) rfl
    exact h.idle ((frame_takePacket s.relay a rest).trans (frame_ackSent _ a)) hne hpending
      (.inl ⟨_, rfl⟩)
  | held sendable a rest hp hrx =>
    obtain ⟨hne, hpending⟩ := hleaves hp (fun hc => by cases hc) rfl
    have hphase := h.phase
    rw [hp] at hphase
    exact h.idle ((frame_takePacket s.relay a rest).trans ⟨rfl, rfl, id, rfl, rfl, id⟩) hne
      hpending (.inr ⟨sendable, some a, rfl, hphase⟩)
  | pollAck sendable a hp =>
    obtain ⟨hne, hpending⟩ := hleaves hp (fun hc => by cases hc) rfl
    exact h.idle (frame_ackSent _ a) hne hpending (.inl ⟨_, rfl⟩)
  | recvFails | clientReadFails | pollShutdown | clientSendFails | sendFails | closeDone =>
    exact h.ended ⟨rfl, rfl, id, rfl, rfl, id⟩ rfl
  | pollClient k sendable held packet u hp hpos hu => exact sound_pollClient h hp hpos hu
  | clientTakes k remaining hp =>
    obtain ⟨hne, hpending⟩ := hleaves hp (fun hc => by cases hc) rfl
    exact h.idle ⟨rfl, rfl, id, rfl, rfl, id⟩ hne hpending (.inl ⟨_, rfl⟩)
  | clientSendDone hp =>
    obtain ⟨hne, hpending⟩ := hleaves hp (fun hc => by cases hc) rfl
    exact h.idle ⟨rfl, rfl, id, rfl, rfl, id⟩ hne hpending (.inr ⟨_, none, rfl, h.sendable⟩)
  | sendDone => exact absurd rfl hsend

theorem sound_step {action : Relay.Action} {t : Upload} (h : s.Sound seq)
    (hst : s.step action = some t) : t.Sound seq := by
  by_cases hsend : action = .sendDone
  · subst hsend
    exact sound_sendDone h hst
  by_cases hwrite : ∃ b, action = .clientWrites b
  · obtain ⟨b, rfl⟩ := hwrite
    exact sound_clientWrites h hst
  · simp only [step, Option.map_eq_some_iff] at hst
    obtain ⟨r, hr, rfl⟩ := hst
    have hsound := sound_relay h hr hsend fun b hb => hwrite ⟨b, hb⟩
    have hw : writes action = [] := by
      cases action <;> first | rfl | exact absurd ⟨_, rfl⟩ hwrite
    have he : enqueues s.relay action = [] := by
      cases action <;> first | rfl | exact absurd rfl hsend
    rwa [hw, he, List.append_nil, List.append_nil]

/-- Over every run of the relay on a connection after its handshake, the data
packets carry the client's bytes, numbered from the number agreed on. -/
theorem upload_conserves {sourcePort destinationPort : UInt16}
    {tcpSynAck tcpAck : UsbDevicePacket} {tcpSynAckTcpHdr : TcpHeader} {conn : UsbDeviceConn}
    (hhdr : tcpSynAck.tcpHdr = some tcpSynAckTcpHdr)
    (hnew : UsbDeviceConn.new sourcePort destinationPort tcpSynAck = .ok (tcpAck, conn))
    (rx : List Arrival) (wTx : List UsbDevicePacket) (sentTotal ackedTotal : ℕ)
    (as : List Relay.Action) :
    StepSystem.EveryState step (Conserves tcpSynAckTcpHdr.acknowledgmentNumber)
      (start conn rx wTx sentTotal ackedTotal) as := by
  simp only [UsbDeviceConn.new, hhdr, Except.ok.injEq, Prod.mk.injEq] at hnew
  obtain ⟨-, rfl⟩ := hnew
  have hstart := sound_start destinationPort sourcePort tcpSynAckTcpHdr.acknowledgmentNumber
    tcpSynAckTcpHdr.sequenceNumber tcpSynAckTcpHdr.windowSize
    tcpSynAckTcpHdr.acknowledgmentNumber rx wTx sentTotal ackedTotal
  have hrun : StepSystem.EveryState step (Sound tcpSynAckTcpHdr.acknowledgmentNumber) _ as :=
    StepSystem.everyState_of_everyStep (fun _ _ _ h _ hst => sound_step h hst) hstart
      (StepSystem.everyStep_true _ as)
  exact hrun.mono fun _ h => h.conserves

/-- A device that answers the SYN of port 1, and a client that writes five bytes
and closes. -/
theorem upload_conserves_hello : StepSystem.EveryState step (Conserves 1)
    (start (.newFrom 62078 1 1 9 512 1) [] [] 0 0) [.clientWrites [104, 101, 108, 108, 111],
      .pollClient 3, .sendDone, .pollClient 2, .sendDone, .clientCloses, .pollClient 0,
      .closeDone] :=
  @upload_conserves 1 62078 (buildTcp 0 0 (tcpHeader 62078 1 9 1 ⟨3⟩)) _ _ _ rfl rfl [] [] 0 0 _

end Upload

end Rusbmux
