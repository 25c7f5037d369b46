import Rusbmux.UsbMuxRoundTrip

/-! The loop of `handle_client` on a stream that ends with an error of any kind,
which every later read gets again. -/
namespace Rusbmux

open Framing (ReadProgram)

/-- What a read gets behind the last byte of a client. -/
inductive StreamEnd where
  | eof
  | error (kind : IoErrorKind)
  deriving DecidableEq

/-- The kind of the error that `read_exact` makes of it. -/
def StreamEnd.kind : StreamEnd → IoErrorKind
  | eof => .unexpectedEof
  | error kind => kind

/-- The kinds that `handle_client` takes for a client that closed its connection. -/
def closesClient : IoErrorKind → Bool
  | .unexpectedEof | .connectionReset | .brokenPipe => true
  | _ => false

namespace UsbMuxPacket

variable (xml : PlistXml)

/-- `from_reader` on a stream with that end. -/
def fromReaderTo (e : StreamEnd) : Parse UsbMuxPacket :=
  ReadProgram.run (.err (.io e.kind)) (streamRead xml)

/-- The stream ends inside the packet at its front. -/
def cutOff (b : Bytes) : Bool :=
  let raw := RawUsbMuxHeader.ofBytes (b.take UsbMuxHeader.SIZE)
  decide (b.length < UsbMuxHeader.SIZE) ||
    ((UsbMuxVersion.ofU32 raw.version).isSome && (UsbMuxMsgType.ofU32 raw.msgType).isSome &&
      decide (b.length < raw.len.toNat))

theorem fromReaderTo_eof : fromReaderTo xml .eof = fromReader xml := run_streamRead xml

/-- What `from_reader` makes of the header, once it has its bytes. -/
def headerRead (raw : RawUsbMuxHeader) : StreamRead UsbMuxHeader := do
  let version ← StreamRead.lift (UsbMuxVersion.tryFrom raw.version)
  let msgType ← StreamRead.lift (UsbMuxMsgType.tryFrom raw.msgType)
  pure ⟨raw.len, version, msgType, raw.tag⟩

/-- The read behind the header. -/
def payloadRead (header : UsbMuxHeader) : StreamRead UsbMuxPacket :=
  if header.len.toNat < UsbMuxHeader.SIZE then
    StreamRead.lift (Parse.throw (UsbMuxHeader.shortError header.len))
  else do
    let payload ← StreamRead.readExact (header.len.toNat-UsbMuxHeader.SIZE)
    let payload ← StreamRead.lift (UsbMuxPayload.decode xml header.version payload)
    pure ⟨header, payload⟩

/-- The reads of a packet behind the bytes of its header. -/
def packetRead (raw : RawUsbMuxHeader) : StreamRead UsbMuxPacket :=
  headerRead raw >>= payloadRead xml

variable {xml} {b : Bytes}

theorem run_streamRead_of_lt (eof : Outcome UsbMuxPacket) (h : b.length < UsbMuxHeader.SIZE) :
    ReadProgram.run eof (streamRead xml) b = (eof, []) :=
  if_neg (Nat.not_le.mpr h)

theorem run_streamRead_of_le (eof : Outcome UsbMuxPacket) (h : UsbMuxHeader.SIZE ≤ b.length) :
    ReadProgram.run eof (streamRead xml) b = ReadProgram.run eof
      (packetRead xml (.ofBytes (b.take UsbMuxHeader.SIZE))) (b.drop UsbMuxHeader.SIZE) :=
  if_pos h

/-- A header that names no version or no message type needs no payload. -/
theorem headerRead_unknown {raw : RawUsbMuxHeader}
    (h : ((UsbMuxVersion.ofU32 raw.version).isSome &&
      (UsbMuxMsgType.ofU32 raw.msgType).isSome) = false) :
    ∃ e, headerRead raw = ReadProgram.done (.err (.invalidData e)) := by
  cases hv : UsbMuxVersion.ofU32 raw.version with
  | none =>
    obtain ⟨e, he⟩ := UsbMuxVersion.tryFrom_of_none hv
    refine ⟨e, ?_⟩
    rw [headerRead, StreamRead.lift, he]
    rfl
  | some v =>
    have hm : UsbMuxMsgType.ofU32 raw.msgType = none := by
      simpa [hv] using h
    obtain ⟨e, he⟩ := UsbMuxMsgType.tryFrom_of_none hm
    refine ⟨e, ?_⟩
    rw [headerRead, StreamRead.lift, UsbMuxVersion.tryFrom_of_some hv, StreamRead.lift, he]
    rfl

theorem headerRead_known {raw : RawUsbMuxHeader}
    (h : ((UsbMuxVersion.ofU32 raw.version).isSome &&
      (UsbMuxMsgType.ofU32 raw.msgType).isSome) = true) :
    ∃ header, header.len = raw.len ∧ headerRead raw = ReadProgram.done (.ok header) := by
  simp only [Bool.and_eq_true, Option.isSome_iff_exists] at h
  obtain ⟨⟨v, hv⟩, m, hm⟩ := h
  refine ⟨⟨raw.len, v, m, raw.tag⟩, rfl, ?_⟩
  rw [headerRead, StreamRead.lift, UsbMuxVersion.tryFrom_of_some hv, StreamRead.lift,
    UsbMuxMsgType.tryFrom_of_some hm]
  rfl

/-- A packet that is cut off shows how its stream ends. -/
theorem run_streamRead_of_cutOff (eof : Outcome UsbMuxPacket) (h : cutOff b = true) :
    ReadProgram.run eof (streamRead xml) b = (eof, []) := by
  by_cases h16 : b.length < UsbMuxHeader.SIZE
  · exact run_streamRead_of_lt eof h16
  · simp only [cutOff, h16, decide_false, Bool.false_or, Bool.and_eq_true,
      decide_eq_true_eq] at h
    obtain ⟨header, hlen, hheader⟩ := headerRead_known (Bool.and_eq_true_iff.mpr h.1)
    have hlt : ¬header.len.toNat < UsbMuxHeader.SIZE := by
      rw [hlen]
      omega
    -- the payload is what is missing
    have hshort : ¬header.len.toNat-UsbMuxHeader.SIZE ≤ (b.drop UsbMuxHeader.SIZE).length := by
      rw [hlen, List.length_drop]
      omega
    rw [run_streamRead_of_le eof (Nat.not_lt.mp h16), packetRead, hheader]
    change ReadProgram.run eof (payloadRead xml header) _ = _
    rw [payloadRead, if_neg hlt]
    exact if_neg hshort

/-- What a payload is read as, with its stream's end unseen. -/
theorem exists_decodeRead (xml : PlistXml) (header : UsbMuxHeader) (payload : Bytes) :
    ∃ o, (∀ kind, o ≠ .err (.io kind)) ∧
      (StreamRead.lift (UsbMuxPayload.decode xml header.version payload) >>= fun payload =>
        (pure ⟨header, payload⟩ : StreamRead UsbMuxPacket)) = ReadProgram.done o := by
  cases header.version with
  | binary => exact ⟨.ok ⟨header, .raw payload⟩, by simp, rfl⟩
  | plist =>
    cases hx : xml.fromBytes payload with
    | ok value =>
      refine ⟨.ok ⟨header, .plist value⟩, by simp, ?_⟩
      simp only [UsbMuxPayload.decode, hx]
      rfl
    | error e =>
      refine ⟨.err (.plist e), by simp, ?_⟩
      simp only [UsbMuxPayload.decode, hx]
      rfl

theorem run_payloadRead {header : UsbMuxHeader} {s : Bytes}
    (h : header.len.toNat-UsbMuxHeader.SIZE ≤ s.length) :
    ∃ o rest, (∀ kind, o ≠ .err (.io kind)) ∧
      ∀ eof, ReadProgram.run eof (payloadRead xml header) s = (o, rest) := by
  by_cases hlt : header.len.toNat < UsbMuxHeader.SIZE
  · rw [payloadRead, if_pos hlt]
    refine ⟨.err (UsbMuxHeader.shortError header.len), s, ?_, fun eof => rfl⟩
    intro kind hkind
    cases hkind
  · obtain ⟨o, ho, hdone⟩ := exists_decodeRead xml header
      (s.take (header.len.toNat-UsbMuxHeader.SIZE))
    refine ⟨o, s.drop (header.len.toNat-UsbMuxHeader.SIZE), ho, fun eof => ?_⟩
    rw [payloadRead, if_neg hlt]
    refine Eq.trans (if_pos h) ?_
    exact congrArg (fun p => ReadProgram.run eof p _) hdone

/-- Any other packet is read, or refused, without its stream's end. -/
theorem run_streamRead_of_whole (xml : PlistXml) (h : cutOff b = false) :
    ∃ o rest, (∀ kind, o ≠ .err (.io kind)) ∧
      ∀ eof, ReadProgram.run eof (streamRead xml) b = (o, rest) := by
  simp only [cutOff, Bool.or_eq_false_iff, decide_eq_false_iff_not, Nat.not_lt] at h
  obtain ⟨h16, hwhole⟩ := h
  simp only [run_streamRead_of_le _ h16, packetRead]
  cases hknown : (UsbMuxVersion.ofU32 (RawUsbMuxHeader.ofBytes
      (b.take UsbMuxHeader.SIZE)).version).isSome && (UsbMuxMsgType.ofU32
        (RawUsbMuxHeader.ofBytes (b.take UsbMuxHeader.SIZE)).msgType).isSome with
  | false =>
    obtain ⟨e, he⟩ := headerRead_unknown hknown
    rw [he]
    exact ⟨.err (.invalidData e), b.drop UsbMuxHeader.SIZE, by simp, fun eof => rfl⟩
  | true =>
    obtain ⟨header, hlen, hheader⟩ := headerRead_known hknown
    rw [hknown, Bool.true_and, decide_eq_false_iff_not, ← hlen, Nat.not_lt] at hwhole
    have hle : header.len.toNat-UsbMuxHeader.SIZE ≤ (b.drop UsbMuxHeader.SIZE).length := by
      rw [List.length_drop]
      omega
    rw [hheader]
    exact run_payloadRead hle

theorem fromReaderTo_of_cutOff (e : StreamEnd) (h : cutOff b = true) :
    fromReaderTo xml e b = (.err (.io e.kind), []) :=
  run_streamRead_of_cutOff _ h

theorem fromReaderTo_of_whole (xml : PlistXml) (e : StreamEnd) (h : cutOff b = false) :
    fromReaderTo xml e b = fromReader xml b ∧
      ∀ kind, (fromReader xml b).1 ≠ .err (.io kind) := by
  obtain ⟨o, rest, ho, hrun⟩ := run_streamRead_of_whole xml h
  have hread : fromReader xml b = (o, rest) := by
    rw [← fromReaderTo_eof]
    exact hrun _
  rw [hread]
  exact ⟨hrun _, ho⟩

theorem size_le_of_whole (h : cutOff b = false) : UsbMuxHeader.SIZE ≤ b.length := by
  simp only [cutOff, Bool.or_eq_false_iff, decide_eq_false_iff_not, Nat.not_lt] at h
  exact h.1

theorem cutOff_nil : cutOff [] = true := rfl

end UsbMuxPacket

section

variable (host : HandlerHost) (e : StreamEnd)

/-- A turn of `handle_client` on a stream with that end. -/
def clientTurnTo (outcomes : Outcomes) (s : RecordState) (stream : Bytes) :
    RecordState × Option Bytes :=
  match UsbMuxPacket.fromReaderTo host.xml e stream with
  | (.ok packet, rest) =>
    let (handled, s) := handleMessage host outcomes packet s
    (s, if goesOn handled then some rest else none)
  | (.err (.io kind), rest) => (s, if closesClient kind then none else some rest)
  | (.err _, rest) => (s, some rest)
  | (.fault, _) => (s, none)

/-- The state and the bytes of a client at the start of a turn. -/
structure ClientLoop where
  state : RecordState
  stream : Bytes

/-- The next turn of the loop, if it is not left. -/
def ClientLoop.next (outcomes : Outcomes) (c : ClientLoop) : Option ClientLoop :=
  let (s, rest) := clientTurnTo host e outcomes c.state c.stream
  rest.map (ClientLoop.mk s)

/-- The start of the `n`th turn, if there is one. -/
def turnStart (outcomes : ℕ → Outcomes) (c : ClientLoop) : ℕ → Option ClientLoop
  | 0 => some c
  | n+1 => (turnStart outcomes c n).bind (ClientLoop.next host e (outcomes n))

/-- Every turn takes bytes off the stream or leaves the loop, which is left in
the end; and it is left at every error that counts as a disconnect. -/
structure MakesProgress (outcomes : ℕ → Outcomes) (c : ClientLoop) : Prop where
  consumes : ∀ n t u, turnStart host e outcomes c n = some t →
    t.next host e (outcomes n) = some u → u.stream.length < t.stream.length
  bounded : turnStart host e outcomes c (c.stream.length+1) = none
  disconnects : ∀ n t kind, turnStart host e outcomes c n = some t →
    (UsbMuxPacket.fromReaderTo host.xml e t.stream).1 = .err (.io kind) →
    isDisconnectIo kind = true → t.next host e (outcomes n) = none

end

section

variable {host : HandlerHost} {e : StreamEnd} {outcomes : ℕ → Outcomes} {o : Outcomes}
  {c t u : ClientLoop} {n : ℕ}

/-- For a client that closes its connection the turns are those of `clientTurn`. -/
theorem clientTurnTo_eof (s : RecordState) (b : Bytes) :
    clientTurnTo host .eof o s b = clientTurn host o s b := by
  rw [clientTurnTo, clientTurn, UsbMuxPacket.fromReaderTo_eof]
  rcases UsbMuxPacket.fromReader host.xml b with ⟨packet | err | _, rest⟩
  · rfl
  · cases err with
    | io kind => cases kind <;> rfl
    | _ => rfl
  · rfl

theorem next_of_cutOff (h : UsbMuxPacket.cutOff c.stream = true) :
    c.next host e o = if closesClient e.kind then none else some ⟨c.state, []⟩ := by
  simp only [ClientLoop.next, clientTurnTo, UsbMuxPacket.fromReaderTo_of_cutOff e h]
  cases closesClient e.kind <;> rfl

/-- A turn that has a whole packet takes it off the stream. -/
theorem length_lt_of_whole (h : UsbMuxPacket.cutOff c.stream = false)
    (hnext : c.next host e o = some u) : u.stream.length < c.stream.length := by
  have hlt := UsbMuxPacket.fromReader_length_lt host.xml (UsbMuxPacket.size_le_of_whole h)
  obtain ⟨hread, hio⟩ := UsbMuxPacket.fromReaderTo_of_whole host.xml e h
  simp only [ClientLoop.next, clientTurnTo, hread] at hnext
  rcases hpacket : UsbMuxPacket.fromReader host.xml c.stream with ⟨packet | err | _, rest⟩
  · rw [hpacket] at hlt hnext
    by_cases hgo : goesOn (handleMessage host o packet c.state).1 = true
    · simp only [hgo, if_true, Option.map_some, Option.some.injEq] at hnext
      rw [← hnext]
      exact hlt
    · simp only [hgo] at hnext
      cases hnext
  · rw [hpacket] at hlt hnext hio
    cases err with
    | io kind => exact absurd rfl (hio kind)
    -- a packet that is refused is taken off all the same
    | plist _ | tcpHeaderSlice _ | invalidData _ =>
      cases hnext
      exact hlt
  · rw [hpacket] at hnext
    cases hnext

/-- `n` turns that went on have taken `n` bytes. -/
theorem length_turnStart (hconsumes : ∀ n t u, turnStart host e outcomes c n = some t →
      t.next host e (outcomes n) = some u → u.stream.length < t.stream.length)
    (h : turnStart host e outcomes c n = some t) :
    t.stream.length+n ≤ c.stream.length := by
  induction n generalizing t with
  | zero =>
    cases h
    exact Nat.le_refl _
  | succ n ih =>
    obtain ⟨u, hu, hnext⟩ := Option.bind_eq_some_iff.mp h
    have hlt := hconsumes n u t hu hnext
    have hle := ih hu
    omega

/-- A loop that does not take its client for gone at the end of the stream is
not left there. -/
theorem not_makesProgress (hclose : closesClient e.kind = false)
    (h : turnStart host e outcomes c n = some t) (hcut : UsbMuxPacket.cutOff t.stream = true) :
    ¬ MakesProgress host e outcomes c := by
  intro hp
  have hnext (u : ClientLoop) (k : ℕ) (hu : UsbMuxPacket.cutOff u.stream = true) :
      u.next host e (outcomes k) = some ⟨u.state, []⟩ := by
    rw [next_of_cutOff hu, hclose]
    rfl
  -- from here each turn starts and ends with no bytes at all
  have hstart : turnStart host e outcomes c (n+1) = some ⟨t.state, []⟩ := by
    rw [turnStart, h]
    exact hnext t n hcut
  have hlt := hp.consumes (n+1) _ _ hstart (hnext _ (n+1) UsbMuxPacket.cutOff_nil)
  exact Nat.lt_irrefl _ hlt

theorem next_eq_none_of_cutOff (hclose : closesClient e.kind = true)
    (hcut : UsbMuxPacket.cutOff t.stream = true) : t.next host e o = none := by
  rw [next_of_cutOff hcut, hclose]
  rfl

/-- The loop makes progress exactly when its client's end is one that it takes
for the end of the connection, or a handler leaves it while there are packets. -/
theorem makesProgress_iff (host : HandlerHost) (e : StreamEnd) (outcomes : ℕ → Outcomes)
    (c : ClientLoop) : MakesProgress host e outcomes c ↔
      closesClient e.kind = true ∨
        ∀ n t, turnStart host e outcomes c n = some t → UsbMuxPacket.cutOff t.stream = false := by
  constructor
  · intro hp
    by_contra hno
    push Not at hno
    obtain ⟨hclose, n, t, ht, hcut⟩ := hno
    exact not_makesProgress (Bool.not_eq_true _ ▸ hclose) ht (Bool.not_eq_false _ ▸ hcut) hp
  · intro h
    have hend (n : ℕ) (t : ClientLoop) (ht : turnStart host e outcomes c n = some t)
        (hcut : UsbMuxPacket.cutOff t.stream = true) : t.next host e (outcomes n) = none := by
      rcases h with hclose | hwhole
      · exact next_eq_none_of_cutOff hclose hcut
      · rw [hwhole n t ht] at hcut
        cases hcut
    have hconsumes (n : ℕ) (t u : ClientLoop) (ht : turnStart host e outcomes c n = some t)
        (hu : t.next host e (outcomes n) = some u) : u.stream.length < t.stream.length := by
      cases hcut : UsbMuxPacket.cutOff t.stream with
      | false => exact length_lt_of_whole hcut hu
      | true =>
        rw [hend n t ht hcut] at hu
        cases hu
    refine ⟨hconsumes, ?_, fun n t kind ht hread _ => ?_⟩
    · apply Option.eq_none_iff_forall_not_mem.mpr
      intro t ht
      have hle := length_turnStart hconsumes ht
      omega
    · cases hcut : UsbMuxPacket.cutOff t.stream with
      | false =>
        obtain ⟨heq, hio⟩ := UsbMuxPacket.fromReaderTo_of_whole host.xml e hcut
        rw [heq] at hread
        exact absurd hread (hio kind)
      | true => exact hend n t ht hcut

/-- A connection that was aborted leaves the loop to turn for ever. -/
theorem aborted_makesNoProgress : ¬ ∀ (host : HandlerHost) (e : StreamEnd)
    (outcomes : ℕ → Outcomes) (c : ClientLoop), MakesProgress host e outcomes c := by
  intro h
  have hp := h refusingHost (.error .connectionAborted) (fun _ => quietOutcomes) ⟨⟨.empty, []⟩, []⟩
  exact not_makesProgress (n := 0) rfl rfl UsbMuxPacket.cutOff_nil hp

end

end Rusbmux
