import Rusbmux.DeviceOpen

/-! `UsbDevice::new` comes to its end: the packets of a device before its version
and after it, when no transfer of the handshake fails. -/
namespace Rusbmux

namespace DeviceOpen

/-- No transfer fails: it is submitted, and its status is 0. -/
def Answered : Action → Prop
  | .poll submit early => submit = .ok () ∧ ∀ value, early = some value → value = some ⟨0⟩
  | .read => True
  | .complete value => value = some ⟨0⟩

instance : DecidablePred Answered
  | .poll submit none => decidable_of_iff (submit = .ok ()) (by simp [Answered])
  | .poll submit (some value) =>
    decidable_of_iff (submit = .ok () ∧ value = some ⟨0⟩) (by simp [Answered])
  | .read => .isTrue trivial
  | .complete value => inferInstanceAs (Decidable (value = some ⟨0⟩))

/-- The transfer in flight has not failed. -/
def Good (w : RusbAsyncWriter) : Prop :=
  ∀ rx, w.pending = some rx → rx = .waiting ∨ rx = .completed (some ⟨0⟩)

/-- What holds while no transfer fails. -/
structure Going (wire : TcpWire) (maxPacketSize : UInt16) (stream : Bytes) (s : DeviceOpen) :
    Prop where
  sound : s.Sound wire maxPacketSize stream
  good : Good s.out
  failed : ∀ e, s.phase ≠ .failed e
  panicked : s.phase ≠ .panicked

variable {wire : TcpWire} {maxPacketSize : UInt16} {stream rest : Bytes} {s t : DeviceOpen}
  {v : UsbDevicePacketVersion}

theorem good_of_none {w : RusbAsyncWriter} (h : w.pending = none) : Good w := by
  intro rx hrx
  rw [h] at hrx
  cases hrx

theorem going_start : Going wire maxPacketSize stream (start wire maxPacketSize stream) where
  sound := sound_start
  good := good_of_none rfl
  failed e hp := by cases hp
  panicked hp := by cases hp

/-- Packets without a version are dropped until one has it. -/
theorem awaitVersion_encode (hw : wire.Lawful) {ps : List UsbDevicePacket}
    (hps : ∀ p ∈ ps, (∃ protocol, p.WellFormed protocol) ∧ ∀ v, p.payload ≠ .version v)
    {p : UsbDevicePacket} (hp : p.WellFormed .version) {v : UsbDevicePacketVersion}
    (hv : p.payload = .version v) (rest : Bytes) :
    awaitVersion wire (ps.flatMap (UsbDevicePacket.encode wire) ++ (p.encode wire ++ rest)) =
      (.ok v, rest) := by
  induction ps with
  | nil =>
    have hread := UsbDevicePacket.fromReader_encode hw hp rest
    rw [List.flatMap_nil, List.nil_append, awaitVersion_ok hread, hv]
  | cons q ps ih =>
    obtain ⟨⟨protocol, hwell⟩, hother⟩ := hps q List.mem_cons_self
    have hread := UsbDevicePacket.fromReader_encode hw hwell
      (ps.flatMap (UsbDevicePacket.encode wire) ++ (p.encode wire ++ rest))
    rw [List.flatMap_cons, List.append_assoc, awaitVersion_ok hread]
    split
    next w hq => exact absurd hq (hother w)
    next => exact ih fun q' hq => hps q' (List.mem_cons_of_mem q hq)

/-- The loop for the version meets no error before it. -/
theorem fromReader_of_awaitVersion (h : awaitVersion wire stream = (.ok v, rest)) :
    ∃ packet rest', UsbDevicePacket.fromReader wire.toTcpCodec stream = (.ok packet, rest') := by
  rw [awaitVersion] at h
  split at h
  next packet rest' hread => exact ⟨packet, rest', hread⟩
  next e rest' hread => cases h
  next rest' hread => cases h

/-- A poll of a transfer that does not fail waits for it or ends it. -/
theorem drive_good {w : RusbAsyncWriter} {rx : OneshotReceiver BulkResult}
    (h : rx = .waiting ∨ rx = .completed (some ⟨0⟩)) :
    w.drive rx = some (.pending, { w with pending := some .waiting }) ∨
      w.drive rx = some (.ready (.ok ()), { w with pending := none }) := by
  rcases h with rfl | rfl
  · exact .inl rfl
  · exact .inr rfl

theorem pollFlush_good {w : RusbAsyncWriter} {submit : Except String Unit}
    {early : Option (Option BulkResult)} (hgood : Good w)
    (ha : Answered (.poll submit early)) :
    ∃ r out, w.pollFlush submit early = some (r, out) ∧ Good out ∧
      (r = .pending ∨ r = .ready (.ok ())) := by
  have hdrive (u : RusbAsyncWriter) (rx : OneshotReceiver BulkResult)
      (hrx : rx = .waiting ∨ rx = .completed (some ⟨0⟩)) :
      ∃ r out, u.drive rx = some (r, out) ∧ Good out ∧ (r = .pending ∨ r = .ready (.ok ())) := by
    rcases drive_good (w := u) hrx with h | h
    · refine ⟨_, _, h, ?_, .inl rfl⟩
      rintro _ ⟨⟩
      exact .inl rfl
    · exact ⟨_, _, h, good_of_none rfl, .inr rfl⟩
  obtain ⟨rfl, hearly⟩ := ha
  unfold RusbAsyncWriter.pollFlush
  cases hpending : w.pending with
  | some rx => exact hdrive w rx (hgood rx hpending)
  | none =>
    by_cases hbuffer : w.buffer = []
    · simp only [hbuffer, if_true]
      exact ⟨_, _, rfl, hgood, .inr rfl⟩
    · simp only [hbuffer, if_false]
      cases early with
      | none => exact hdrive _ _ (.inl rfl)
      | some value => exact hdrive _ _ (.inr (by rw [hearly value rfl]; rfl))

theorem received_ne (wire : TcpWire) (packet : UsbDevicePacket) :
    (∀ e, received wire packet ≠ .failed e) ∧ received wire packet ≠ .panicked := by
  unfold received
  cases packet.payload with
  | version v => exact ⟨fun e he => (by cases he), fun he => (by cases he)⟩
  | _ => exact ⟨fun e he => (by cases he), fun he => (by cases he)⟩

/-- No step fails when no transfer does, and the version is among the packets. -/
theorem Going.step {action : Action} (hawait : awaitVersion wire stream = (.ok v, rest))
    (h : s.Going wire maxPacketSize stream) (ha : Answered action)
    (hst : s.step wire action = some t) : t.Going wire maxPacketSize stream := by
  have hsound := sound_step h.sound hst
  have hphase := h.sound.phase
  cases action with
  | poll submit early =>
    cases hp : s.phase with
    | writing handshake remaining =>
      rw [hp] at hphase
      -- the packet goes into the buffer whole
      cases (step_writing h.sound hp).symm.trans hst
      refine ⟨hsound, good_of_none hphase.2.1, ?_, ?_⟩
      · intro e he
        cases he
      · intro he
        cases he
    | flushing handshake =>
      obtain ⟨r, out, hpoll, hgood, hr⟩ := pollFlush_good h.good ha
      simp only [DeviceOpen.step, hp, hpoll] at hst
      rcases hr with rfl | rfl
      · cases hst
        exact ⟨hsound, hgood, hp ▸ h.failed, hp ▸ h.panicked⟩
      · cases hst
        refine ⟨hsound, hgood, ?_, ?_⟩
        · intro e he
          cases handshake <;> cases he
        · intro he
          cases handshake <;> cases he
    | _ =>
      simp only [DeviceOpen.step, hp] at hst
      cases hst
  | read =>
    cases hp : s.phase with
    | waiting =>
      rw [hp] at hphase
      obtain ⟨hpending, -, -, hheard⟩ := hphase
      -- the version is still in the stream, so that there is a packet to read
      obtain ⟨packet, rest', hread⟩ := fromReader_of_awaitVersion (hheard.trans hawait)
      simp only [DeviceOpen.step, hp, hread] at hst
      cases hst
      refine ⟨hsound, h.good, ?_, ?_⟩
      · intro e he
        exact (received_ne wire packet).1 e he
      · intro he
        exact (received_ne wire packet).2 he
    | _ =>
      simp only [DeviceOpen.step, hp] at hst
      cases hst
  | complete value =>
    obtain ⟨out, hout, rfl⟩ := Option.map_eq_some_iff.mp hst
    refine ⟨hsound, ?_, h.failed, h.panicked⟩
    unfold RusbAsyncWriter.complete at hout
    split at hout
    next =>
      cases hout
      have hvalue : value = some ⟨0⟩ := ha
      rintro _ ⟨⟩
      exact .inr (by rw [hvalue])
    next => cases hout

/-- A packet that is in `flush` goes out. -/
theorem Going.canReach_flushed {handshake : Handshake}
    (hawait : awaitVersion wire stream = (.ok v, rest)) (h : s.Going wire maxPacketSize stream)
    (hp : s.phase = .flushing handshake) : StepSystem.CanReach (DeviceOpen.step wire)
      (fun t => t.Going wire maxPacketSize stream ∧ t.phase = handshake.flushed ∧
        t.stream = s.stream) s := by
  -- the poll that finds the result, after the packet is submitted if it was not
  have hready (u : DeviceOpen) (hu : u.Going wire maxPacketSize stream)
      (hphase : u.phase = .flushing handshake) (hstream : u.stream = s.stream)
      (hpending : u.out.pending ≠ some .waiting) : StepSystem.CanReach (DeviceOpen.step wire)
        (fun t => t.Going wire maxPacketSize stream ∧ t.phase = handshake.flushed ∧
          t.stream = s.stream) u := by
    have hpoll : ∃ out, u.out.pollFlush (.ok ()) (some (some ⟨0⟩)) =
        some (.ready (.ok ()), out) := by
      unfold RusbAsyncWriter.pollFlush
      cases hrx : u.out.pending with
      | none =>
        dsimp only
        split_ifs
        · exact ⟨_, rfl⟩
        · exact ⟨_, rfl⟩
      | some rx =>
        rcases hu.good rx hrx with rfl | rfl
        · exact absurd hrx hpending
        · exact ⟨_, rfl⟩
    obtain ⟨out, hpoll⟩ := hpoll
    have hstep : u.step wire (.poll (.ok ()) (some (some ⟨0⟩))) =
        some { u with out := out, phase := handshake.flushed } := by
      simp only [DeviceOpen.step, hphase, hpoll]
    have hanswered : Answered (.poll (.ok ()) (some (some ⟨0⟩))) := by decide
    have hgoing := hu.step hawait hanswered hstep
    exact StepSystem.CanReach.of_step hstep (StepSystem.CanReach.now ⟨hgoing, rfl, hstream⟩)
  by_cases hpending : s.out.pending = some .waiting
  · have hstep : s.step wire (.complete (some ⟨0⟩)) =
        some { s with out := { s.out with pending := some (.completed (some ⟨0⟩)) } } := by
      simp only [DeviceOpen.step, RusbAsyncWriter.complete, hpending, Option.map_some]
    have hanswered : Answered (.complete (some ⟨0⟩)) := rfl
    have hgoing := h.step hawait hanswered hstep
    exact StepSystem.CanReach.of_step hstep (hready _ hgoing hp rfl fun he => (by cases he))
  · exact hready s h hp rfl hpending

/-- A packet that is being written goes out. -/
theorem Going.canReach_sent {handshake : Handshake} {remaining : Bytes}
    (hawait : awaitVersion wire stream = (.ok v, rest)) (h : s.Going wire maxPacketSize stream)
    (hp : s.phase = .writing handshake remaining) : StepSystem.CanReach (DeviceOpen.step wire)
      (fun t => t.Going wire maxPacketSize stream ∧ t.phase = handshake.flushed ∧
        t.stream = s.stream) s := by
  have hstep : s.step wire (.poll (.ok ()) none) = some _ := step_writing h.sound hp
  have hanswered : Answered (.poll (.ok ()) none) := by decide
  have hgoing := h.step hawait hanswered hstep
  exact StepSystem.CanReach.of_step hstep (hgoing.canReach_flushed hawait rfl)

/-- The version that the device has sent is the one that `new` ends with. -/
theorem Going.version_eq {w : UsbDevicePacketVersion}
    (hawait : awaitVersion wire stream = (.ok v, rest)) (h : s.Heard wire stream (.setup w)) :
    w = v ∧ s.stream = rest := by
  obtain ⟨hv, hstream⟩ := Prod.mk.inj (h.symm.trans hawait)
  cases hv
  exact ⟨rfl, hstream⟩

/-- By the packets not read yet: each is dropped, or it has the version. -/
theorem Going.canReach_opened_of_waiting (hawait : awaitVersion wire stream = (.ok v, rest))
    (h : s.Going wire maxPacketSize stream) (hp : s.phase = .waiting) :
    StepSystem.CanReach (DeviceOpen.step wire) (fun t => t.phase = .opened v) s := by
  induction hn : s.stream.length using Nat.strongRecOn generalizing s with
  | ind n ih =>
    have hphase := h.sound.phase
    rw [hp] at hphase
    obtain ⟨-, -, -, hheard⟩ := hphase
    obtain ⟨packet, rest', hread⟩ := fromReader_of_awaitVersion (hheard.trans hawait)
    have hstep : s.step wire .read =
        some { s with stream := rest', phase := received wire packet } := by
      simp only [DeviceOpen.step, hp, hread]
    have hanswered : Answered .read := trivial
    have hgoing := h.step hawait hanswered hstep
    refine StepSystem.CanReach.of_step hstep ?_
    cases hreceived : received wire packet with
    | writing handshake remaining =>
      rw [hreceived] at hgoing
      have hhandshake : handshake = .setup v := by
        unfold received at hreceived
        split at hreceived
        next w hpayload =>
          cases hreceived
          rw [(Going.version_eq hawait hgoing.sound.phase.2.2.2.2).1]
        next => cases hreceived
      refine (hgoing.canReach_sent hawait rfl).mono fun t ht => ?_
      rw [ht.2.1, hhandshake]
      rfl
    | waiting =>
      rw [hreceived] at hgoing
      have hlt : rest'.length < n :=
        hn ▸ UsbDevicePacket.length_lt_of_fromReader wire.toTcpCodec hread (by simp)
      exact ih rest'.length hlt hgoing rfl rfl
    | _ =>
      unfold received at hreceived
      split at hreceived <;> cases hreceived

theorem Going.canReach_opened (hawait : awaitVersion wire stream = (.ok v, rest))
    (h : s.Going wire maxPacketSize stream) :
    StepSystem.CanReach (DeviceOpen.step wire) (fun t => t.phase = .opened v) s := by
  -- behind the flush of a packet
  have hflushed (t : DeviceOpen) (handshake : Handshake) (ht : t.Going wire maxPacketSize stream)
      (hp : t.phase = handshake.flushed) :
      StepSystem.CanReach (DeviceOpen.step wire) (fun t => t.phase = .opened v) t := by
    cases handshake with
    | version => exact ht.canReach_opened_of_waiting hawait hp
    | setup w =>
      have hphase := ht.sound.phase
      rw [hp] at hphase
      have hopened : t.phase = .opened w := hp
      rw [(Going.version_eq hawait hphase.2.2.2).1] at hopened
      exact StepSystem.CanReach.now hopened
  cases hp : s.phase with
  | writing handshake remaining =>
    exact (h.canReach_sent hawait hp).bind fun t ht => hflushed t handshake ht.1 ht.2.1
  | flushing handshake =>
    exact (h.canReach_flushed hawait hp).bind fun t ht => hflushed t handshake ht.1 ht.2.1
  | waiting => exact h.canReach_opened_of_waiting hawait hp
  | opened w => exact hflushed s (.setup w) h hp
  | failed e => exact absurd hp (h.failed e)
  | panicked => exact absurd hp h.panicked

/-- `new` has not failed and can go on to its end with the version; at its end the
reader loop gets all later packets and no other. -/
structure Routes (wire : TcpWire) (version : UsbDevicePacketVersion)
    (later : List UsbDevicePacket) (s : DeviceOpen) : Prop where
  failed : ∀ e, s.phase ≠ .failed e
  panicked : s.phase ≠ .panicked
  ends : StepSystem.CanReach (DeviceOpen.step wire) (fun t => t.phase = .opened version) s
  opened : ∀ v, s.phase = .opened v → v = version ∧
    ReaderLoop.start.startReaderLoop wire.toTcpCodec s.stream =
      { recvSeq := UInt16.ofNat later.length
        routed := later.filter fun p => !p.isRst
        notified := true }

end DeviceOpen

end Rusbmux
