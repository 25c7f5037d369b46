import Rusbmux.ClientHandler
import Rusbmux.ParseStream

/-! The loop of `handle_client`, on a stream of frames that may be refused one
by one. -/
namespace Rusbmux

open Parse

section

variable (host : HandlerHost)

/-- One turn of `handle_client`: the state it leaves, and the rest of the stream
if there is another turn. -/
def clientTurn (outcomes : Outcomes) (s : RecordState) (stream : Bytes) :
    RecordState × Option Bytes :=
  match UsbMuxPacket.fromReader host.xml stream with
  | (.ok packet, rest) =>
    let (handled, s) := handleMessage host outcomes packet s
    (s, if goesOn handled then some rest else none)
  -- the client closed its connection
  | (.err (.io .unexpectedEof), _) | (.err (.io .connectionReset), _)
  | (.err (.io .brokenPipe), _) => (s, none)
  | (.err _, rest) => (s, some rest)
  | (.fault, _) => (s, none)

end

theorem UsbMuxHeader.fromReader_of_le {b : Bytes} (h : SIZE ≤ b.length) : fromReader b =
    (UsbMuxVersion.tryFrom (RawUsbMuxHeader.ofBytes (b.take SIZE)).version >>= fun version =>
      UsbMuxMsgType.tryFrom (RawUsbMuxHeader.ofBytes (b.take SIZE)).msgType >>= fun msgType =>
        (pure ⟨(RawUsbMuxHeader.ofBytes (b.take SIZE)).len, version, msgType,
          (RawUsbMuxHeader.ofBytes (b.take SIZE)).tag⟩ : Parse UsbMuxHeader)) (b.drop SIZE) := by
  unfold fromReader
  rw [bind_of_ok (readExact_of_le h)]

theorem UsbMuxVersion.tryFrom_of_some {w : UInt32} {v : UsbMuxVersion} (h : ofU32 w = some v)
    (s : Bytes) : tryFrom w s = (.ok v, s) := by
  simp only [tryFrom, h]
  rfl

theorem UsbMuxVersion.tryFrom_of_none {w : UInt32} (h : ofU32 w = none) :
    ∃ e, ∀ s, tryFrom w s = (.err (.invalidData e), s) := by
  simp only [tryFrom, h]
  exact ⟨_, fun s => rfl⟩

theorem UsbMuxMsgType.tryFrom_of_some {w : UInt32} {m : UsbMuxMsgType} (h : ofU32 w = some m)
    (s : Bytes) : tryFrom w s = (.ok m, s) := by
  simp only [tryFrom, h]
  rfl

theorem UsbMuxMsgType.tryFrom_of_none {w : UInt32} (h : ofU32 w = none) :
    ∃ e, ∀ s, tryFrom w s = (.err (.invalidData e), s) := by
  simp only [tryFrom, h]
  exact ⟨_, fun s => rfl⟩

theorem UsbMuxVersion.shrinks_tryFrom (w : UInt32) : Shrinks (tryFrom w) := by
  unfold tryFrom
  cases ofU32 w with
  | some v => exact shrinks_pure v
  | none => exact shrinks_throw _

theorem UsbMuxMsgType.shrinks_tryFrom (w : UInt32) : Shrinks (tryFrom w) := by
  unfold tryFrom
  cases ofU32 w with
  | some m => exact shrinks_pure m
  | none => exact shrinks_throw _

theorem UsbMuxPayload.shrinks_decode (xml : PlistXml) (version : UsbMuxVersion)
    (payload : Bytes) : Shrinks (decode xml version payload) := by
  unfold decode
  cases version with
  | binary => exact shrinks_pure _
  | plist =>
    cases xml.fromBytes payload with
    | ok value => exact shrinks_pure _
    | error e => exact shrinks_throw _

theorem UsbMuxPacket.fromReader_length_lt (xml : PlistXml) {b : Bytes}
    (h : UsbMuxHeader.SIZE ≤ b.length) : (fromReader xml b).2.length < b.length := by
  have hheader : (UsbMuxHeader.fromReader b).2.length < b.length := by
    rw [UsbMuxHeader.fromReader_of_le h]
    refine Nat.lt_of_le_of_lt (shrinks_bind (UsbMuxVersion.shrinks_tryFrom _) (fun version =>
      shrinks_bind (UsbMuxMsgType.shrinks_tryFrom _) fun msgType => shrinks_pure _) _) ?_
    rw [List.length_drop]
    unfold UsbMuxHeader.SIZE at h ⊢
    omega
  refine Nat.lt_of_le_of_lt (length_bind_le (fun header => ?_) b) hheader
  split_ifs
  · exact shrinks_throw _
  · exact shrinks_bind (shrinks_readExact _) fun payload =>
      shrinks_bind (UsbMuxPayload.shrinks_decode xml _ payload) fun _ => shrinks_pure _

theorem UsbMuxPacket.fromReader_of_short (xml : PlistXml) {b : Bytes}
    (h : b.length < UsbMuxHeader.SIZE) : fromReader xml b = (.err (.io .unexpectedEof), []) := by
  have hheader : UsbMuxHeader.fromReader b = (.err (.io .unexpectedEof), []) :=
    bind_of_err (readExact_of_lt h) _
  exact bind_of_err hheader _

/-- Every turn that does not end the loop takes bytes off the stream. -/
theorem length_lt_of_clientTurn {host : HandlerHost} {outcomes : Outcomes}
    {s t : RecordState} {b rest : Bytes} (h : clientTurn host outcomes s b = (t, some rest)) :
    rest.length < b.length := by
  by_cases h16 : UsbMuxHeader.SIZE ≤ b.length
  · have hlt := UsbMuxPacket.fromReader_length_lt host.xml h16
    unfold clientTurn at h
    split at h
    next packet after hread =>
      rw [hread] at hlt
      simp only [Prod.mk.injEq, Option.ite_none_right_eq_some, Option.some.injEq] at h
      rw [← h.2.2]
      exact hlt
    next => cases h
    next => cases h
    next => cases h
    next e after _ _ _ hread =>
      rw [hread] at hlt
      cases h
      exact hlt
    next => cases h
  · rw [clientTurn, UsbMuxPacket.fromReader_of_short host.xml (Nat.not_le.mp h16)] at h
    cases h

/-- A call of `from_reader`: what is left of the stream, what it makes of it,
and the state at the end of its turn. -/
structure ClientCall where
  start : Bytes
  outcome : Outcome UsbMuxPacket
  state : RecordState

/-- `handle_client` with the bytes of its client, who closes behind them. The
`n`th turn meets the `n`th outcomes. -/
def handleClient (host : HandlerHost) (outcomes : ℕ → Outcomes) (n : ℕ) (s : RecordState)
    (stream : Bytes) : List ClientCall :=
  match _h : clientTurn host (outcomes n) s stream with
  | (t, none) => [⟨stream, (UsbMuxPacket.fromReader host.xml stream).1, t⟩]
  | (t, some rest) => ⟨stream, (UsbMuxPacket.fromReader host.xml stream).1, t⟩ ::
      handleClient host outcomes (n+1) t rest
termination_by stream.length
decreasing_by exact length_lt_of_clientTurn _h

/-- A frame of a client: its length field is true. -/
structure ClientFrame where
  bytes : Bytes
  size_le : UsbMuxHeader.SIZE ≤ bytes.length
  len_eq : (RawUsbMuxHeader.ofBytes (bytes.take UsbMuxHeader.SIZE)).len.toNat = bytes.length

def clientStream (fs : List ClientFrame) : Bytes := fs.flatMap ClientFrame.bytes

theorem clientStream_cons (f : ClientFrame) (fs : List ClientFrame) :
    clientStream (f :: fs) = f.bytes ++ clientStream fs := rfl

namespace ClientFrame

variable (f : ClientFrame)

def length : ℕ := f.bytes.length

def raw : RawUsbMuxHeader := .ofBytes (f.bytes.take UsbMuxHeader.SIZE)

def payload : Bytes := f.bytes.drop UsbMuxHeader.SIZE

def tag : UInt32 := f.raw.tag

def version : Option UsbMuxVersion := UsbMuxVersion.ofU32 f.raw.version

def msgType : Option UsbMuxMsgType := UsbMuxMsgType.ofU32 f.raw.msgType

/-- The header names a version and a message type. -/
def known : Bool := f.version.isSome && f.msgType.isSome

theorem take_append (rest : Bytes) :
    (f.bytes ++ rest).take UsbMuxHeader.SIZE = f.bytes.take UsbMuxHeader.SIZE :=
  List.take_append_of_le_length f.size_le

theorem drop_append (rest : Bytes) :
    (f.bytes ++ rest).drop UsbMuxHeader.SIZE = f.payload ++ rest :=
  List.drop_append_of_le_length f.size_le

theorem size_le_append (rest : Bytes) : UsbMuxHeader.SIZE ≤ (f.bytes ++ rest).length := by
  rw [List.length_append]
  exact Nat.le_trans f.size_le (Nat.le_add_right _ _)

theorem header_fromReader (rest : Bytes) : UsbMuxHeader.fromReader (f.bytes ++ rest) =
    (UsbMuxVersion.tryFrom f.raw.version >>= fun version =>
      UsbMuxMsgType.tryFrom f.raw.msgType >>= fun msgType =>
        (pure ⟨f.raw.len, version, msgType, f.tag⟩ : Parse UsbMuxHeader)) (f.payload ++ rest) := by
  rw [UsbMuxHeader.fromReader_of_le (f.size_le_append rest), f.take_append, f.drop_append]
  rfl

/-- A header that names an unknown version or message type is refused before its
payload is read. -/
theorem fromReader_unknown (xml : PlistXml) (h : f.known = false) :
    ∃ e, ∀ rest, UsbMuxPacket.fromReader xml (f.bytes ++ rest) =
      (.err (.invalidData e), f.payload ++ rest) := by
  have hheader : ∃ e, ∀ rest, UsbMuxHeader.fromReader (f.bytes ++ rest) =
      (.err (.invalidData e), f.payload ++ rest) := by
    cases hv : f.version with
    | none =>
      obtain ⟨e, he⟩ := UsbMuxVersion.tryFrom_of_none hv
      exact ⟨e, fun rest => (f.header_fromReader rest).trans (bind_of_err (he _) _)⟩
    | some v =>
      have hm : f.msgType = none := by
        simpa [known, hv] using h
      obtain ⟨e, he⟩ := UsbMuxMsgType.tryFrom_of_none hm
      refine ⟨e, fun rest => ?_⟩
      rw [f.header_fromReader rest, bind_of_ok (UsbMuxVersion.tryFrom_of_some hv _)]
      exact bind_of_err (he _) _
  obtain ⟨e, he⟩ := hheader
  exact ⟨e, fun rest => bind_of_err (he rest) _⟩

/-- A frame whose header is known is read to its end. -/
theorem fromReader_known (xml : PlistXml) {v : UsbMuxVersion} {m : UsbMuxMsgType}
    (hv : f.version = some v) (hm : f.msgType = some m) (rest : Bytes) :
    UsbMuxPacket.fromReader xml (f.bytes ++ rest) =
      (UsbMuxPayload.decode xml v f.payload >>= fun payload =>
        pure ⟨⟨f.raw.len, v, m, f.tag⟩, payload⟩) rest := by
  have hheader : UsbMuxHeader.fromReader (f.bytes ++ rest) =
      (.ok ⟨f.raw.len, v, m, f.tag⟩, f.payload ++ rest) := by
    rw [f.header_fromReader, bind_of_ok (UsbMuxVersion.tryFrom_of_some hv _),
      bind_of_ok (UsbMuxMsgType.tryFrom_of_some hm _)]
    rfl
  have hlen : f.raw.len.toNat-UsbMuxHeader.SIZE = f.payload.length := by
    rw [payload, List.length_drop, ← f.len_eq]
    rfl
  have hle : ¬f.raw.len.toNat < UsbMuxHeader.SIZE := by
    have heq : f.raw.len.toNat = f.bytes.length := f.len_eq
    rw [heq]
    exact Nat.not_lt.mpr f.size_le
  unfold UsbMuxPacket.fromReader
  rw [bind_of_ok hheader, if_neg hle, hlen, bind_of_ok (takes_readExact f.payload rest)]

/-- What a frame with a known header is read as does not depend on what follows. -/
theorem exists_read (xml : PlistXml) (h : f.known = true) :
    ∃ o, (∀ rest, UsbMuxPacket.fromReader xml (f.bytes ++ rest) = (o, rest)) ∧
      ((∃ packet, o = .ok packet) ∨ ∃ e, o = .err (.plist e)) := by
  simp only [known, Bool.and_eq_true, Option.isSome_iff_exists] at h
  obtain ⟨⟨v, hv⟩, m, hm⟩ := h
  have hread := f.fromReader_known xml hv hm
  cases v with
  | binary => exact ⟨_, hread, .inl ⟨_, rfl⟩⟩
  | plist =>
    cases hx : xml.fromBytes f.payload with
    | ok value =>
      have hdecode (s : Bytes) : UsbMuxPayload.decode xml .plist f.payload s =
          (.ok (.plist value), s) := by
        simp only [UsbMuxPayload.decode, hx]
        rfl
      refine ⟨.ok ⟨⟨f.raw.len, .plist, m, f.tag⟩, .plist value⟩, fun rest => ?_, .inl ⟨_, rfl⟩⟩
      rw [hread rest, bind_of_ok (hdecode rest)]
      rfl
    | error e =>
      have hdecode (s : Bytes) : UsbMuxPayload.decode xml .plist f.payload s =
          (.err (.plist e), s) := by
        simp only [UsbMuxPayload.decode, hx]
        rfl
      refine ⟨.err (.plist e), fun rest => ?_, .inr ⟨e, rfl⟩⟩
      rw [hread rest, bind_of_err (hdecode rest)]

end ClientFrame

section

variable (host : HandlerHost) (outcomes : ℕ → Outcomes)

/-- The calls when each frame is read from its own first byte and handled as it
would be alone; the last one may find the stream at its end. -/
def frameCalls : ℕ → RecordState → List ClientFrame → List ClientCall
  | _, s, [] => [⟨[], .err (.io .unexpectedEof), s⟩]
  | n, s, f :: fs =>
    let outcome := (UsbMuxPacket.fromReader host.xml f.bytes).1
    match clientTurn host (outcomes n) s f.bytes with
    | (t, none) => [⟨clientStream (f :: fs), outcome, t⟩]
    | (t, some _) => ⟨clientStream (f :: fs), outcome, t⟩ :: frameCalls (n+1) t fs

/-- The frames up to the one whose message ends the loop. -/
def reached : ℕ → RecordState → List ClientFrame → List ClientFrame
  | _, _, [] => []
  | n, s, f :: fs => f :: match clientTurn host (outcomes n) s f.bytes with
    | (_, none) => []
    | (t, some _) => reached (n+1) t fs

end

section

variable {host : HandlerHost} {outcomes : ℕ → Outcomes} {n : ℕ} {s t : RecordState}
  {b rest : Bytes} {f : ClientFrame} {fs : List ClientFrame}

theorem handleClient_ends (h : clientTurn host (outcomes n) s b = (t, none)) :
    handleClient host outcomes n s b = [⟨b, (UsbMuxPacket.fromReader host.xml b).1, t⟩] := by
  rw [handleClient]
  split <;> simp_all

theorem handleClient_next (h : clientTurn host (outcomes n) s b = (t, some rest)) :
    handleClient host outcomes n s b = ⟨b, (UsbMuxPacket.fromReader host.xml b).1, t⟩ ::
      handleClient host outcomes (n+1) t rest := by
  rw [handleClient]
  split <;> simp_all

theorem handleClient_head (host : HandlerHost) (outcomes : ℕ → Outcomes) (n : ℕ)
    (s : RecordState) (b : Bytes) :
    (handleClient host outcomes n s b).head?.map ClientCall.start = some b := by
  rcases h : clientTurn host (outcomes n) s b with ⟨t, _ | rest⟩
  · rw [handleClient_ends h]
    rfl
  · rw [handleClient_next h]
    rfl

theorem frameCalls_head (host : HandlerHost) (outcomes : ℕ → Outcomes) (n : ℕ)
    (s : RecordState) (fs : List ClientFrame) :
    (frameCalls host outcomes n s fs).head?.map ClientCall.start = some (clientStream fs) := by
  cases fs with
  | nil => rfl
  | cons f fs =>
    rcases h : clientTurn host (outcomes n) s f.bytes with ⟨t, _ | rest⟩ <;>
      simp only [frameCalls, h, List.head?_cons, Option.map_some]

/-- The turn of a frame with an unknown header leaves its payload on the stream. -/
theorem clientTurn_unknown (host : HandlerHost) (h : f.known = false) (o : Outcomes)
    (s : RecordState) (rest : Bytes) :
    clientTurn host o s (f.bytes ++ rest) = (s, some (f.payload ++ rest)) := by
  obtain ⟨e, he⟩ := f.fromReader_unknown host.xml h
  rw [clientTurn, he]

/-- The turn of a frame with a known header is its turn when it is alone. -/
theorem clientTurn_known (host : HandlerHost) (h : f.known = true) (o : Outcomes)
    (s : RecordState) (rest : Bytes) :
    clientTurn host o s (f.bytes ++ rest) = ((clientTurn host o s f.bytes).1,
      (clientTurn host o s f.bytes).2.map fun _ => rest) := by
  obtain ⟨outcome, hread, hkind⟩ := f.exists_read host.xml h
  have halone := hread []
  rw [List.append_nil] at halone
  rcases hkind with ⟨packet, rfl⟩ | ⟨e, rfl⟩
  · simp only [clientTurn, hread, halone]
    split_ifs <;> rfl
  · simp only [clientTurn, hread, halone, Option.map_some]

theorem read_append (h : f.known = true) (rest : Bytes) :
    (UsbMuxPacket.fromReader host.xml (f.bytes ++ rest)).1 =
      (UsbMuxPacket.fromReader host.xml f.bytes).1 := by
  obtain ⟨outcome, hread, -⟩ := f.exists_read host.xml h
  have halone := hread []
  rw [List.append_nil] at halone
  rw [hread, halone]

theorem read_append_unknown (h : f.known = false) (rest : Bytes) :
    (UsbMuxPacket.fromReader host.xml (f.bytes ++ rest)).1 =
      (UsbMuxPacket.fromReader host.xml f.bytes).1 := by
  obtain ⟨e, he⟩ := f.fromReader_unknown host.xml h
  have halone := he []
  rw [List.append_nil] at halone
  rw [he, halone]

theorem clientTurn_unknown_alone (host : HandlerHost) (h : f.known = false) (o : Outcomes)
    (s : RecordState) :
    clientTurn host o s f.bytes = (s, some f.payload) := by
  have halone := clientTurn_unknown host h o s []
  rwa [List.append_nil, List.append_nil] at halone

theorem payload_eq_nil_iff : f.payload = [] ↔ f.length = UsbMuxHeader.SIZE := by
  have hle : UsbMuxHeader.SIZE ≤ f.length := f.size_le
  rw [ClientFrame.payload, List.drop_eq_nil_iff]
  exact ⟨fun h => Nat.le_antisymm h hle, fun h => Nat.le_of_eq h⟩

/-- A frame that is refused with its payload unread moves the next call into it. -/
theorem handleClient_ne_of_unknown (h : f.known = false) (hlen : f.length ≠ UsbMuxHeader.SIZE) :
    handleClient host outcomes n s (clientStream (f :: fs)) ≠
      frameCalls host outcomes n s (f :: fs) := by
  intro heq
  have halone := clientTurn_unknown_alone host h (outcomes n) s
  rw [clientStream_cons, handleClient_next (clientTurn_unknown host h _ s _)] at heq
  simp only [frameCalls, halone, List.cons.injEq] at heq
  have hstart := handleClient_head host outcomes (n+1) s (f.payload ++ clientStream fs)
  rw [heq.2, frameCalls_head, Option.some.injEq] at hstart
  exact hlen (payload_eq_nil_iff.mp (List.self_eq_append_left.mp hstart))

theorem clientTurn_append (host : HandlerHost)
    (h : f.known = true ∨ f.length = UsbMuxHeader.SIZE) (o : Outcomes) (s : RecordState)
    (rest : Bytes) :
    clientTurn host o s (f.bytes ++ rest) = ((clientTurn host o s f.bytes).1,
      (clientTurn host o s f.bytes).2.map fun _ => rest) := by
  cases hk : f.known with
  | true => exact clientTurn_known host hk o s rest
  | false =>
    have hnil : f.payload = [] := by
      rw [hk] at h
      exact payload_eq_nil_iff.mpr (h.resolve_left Bool.false_ne_true)
    rw [clientTurn_unknown host hk, clientTurn_unknown_alone host hk, hnil]
    rfl

/-- `handle_client` reads each frame from its first byte exactly when no frame
that it comes to has an unknown version or message type and a payload. -/
theorem handleClient_eq_frameCalls_iff (host : HandlerHost) (outcomes : ℕ → Outcomes) (n : ℕ)
    (s : RecordState) (fs : List ClientFrame) :
    handleClient host outcomes n s (clientStream fs) = frameCalls host outcomes n s fs ↔
      ∀ f ∈ reached host outcomes n s fs, f.known = true ∨ f.length = UsbMuxHeader.SIZE := by
  induction fs generalizing n s with
  | nil =>
    have hend : clientTurn host (outcomes n) s (clientStream []) = (s, none) := by
      rw [clientTurn, UsbMuxPacket.fromReader_of_short host.xml (by decide)]
    rw [handleClient_ends hend]
    exact ⟨fun _ f hf => absurd hf List.not_mem_nil, fun _ => rfl⟩
  | cons f fs ih =>
    have hmem : f ∈ reached host outcomes n s (f :: fs) := List.mem_cons_self
    by_cases hf : f.known = true ∨ f.length = UsbMuxHeader.SIZE
    · -- the frame is read to its end, and the calls behind it are those of the rest
      have hturn := clientTurn_append host hf (outcomes n) s (clientStream fs)
      have hread : (UsbMuxPacket.fromReader host.xml (f.bytes ++ clientStream fs)).1 =
          (UsbMuxPacket.fromReader host.xml f.bytes).1 := by
        cases hk : f.known with
        | true => exact read_append hk _
        | false => exact read_append_unknown hk _
      rcases halone : clientTurn host (outcomes n) s f.bytes with ⟨t, _ | rest⟩
      · rw [halone] at hturn
        have hend := handleClient_ends hturn
        rw [clientStream_cons, hend, hread]
        simp only [frameCalls, reached, halone, clientStream_cons, List.mem_singleton,
          forall_eq, hf]
      · rw [halone] at hturn
        have hnext := handleClient_next hturn
        rw [clientStream_cons, hnext, hread]
        simp only [frameCalls, reached, halone, clientStream_cons, List.cons.injEq, true_and,
          List.mem_cons, forall_eq_or_imp, hf, ih]
    · have hunknown := not_or.mp hf
      have hne : handleClient host outcomes n s (clientStream (f :: fs)) ≠
          frameCalls host outcomes n s (f :: fs) :=
        handleClient_ne_of_unknown ((Bool.not_eq_true _).mp hunknown.1) hunknown.2
      exact ⟨fun h => absurd h hne, fun h => absurd (h f hmem) hf⟩

end

/-- A host that reads back a refusal. -/
def refusingHost : HandlerHost where
  xml := plistCodec (resultValue .badCommand)
  lockdownPath := "/var/lib/lockdown"
  fromValue := fun _ => .error "missing field MessageType"

/-- Nothing goes wrong, and no device is connected. -/
def quietOutcomes : Outcomes where
  faults := ⟨none, none, none⟩
  existsFails := false
  writeConfig := none
  readConfig := none
  uuid := "8B5C0B7E"
  hotplugTx := some 0
  devices := []
  events := []
  connect := .error .ranOutofSourcePort
  relay := .ok ()

/-- A message of the unknown type 7, whose payload is the header of a packet. -/
def unknownMessage : ClientFrame where
  bytes := u32le 32 ++ u32le 0 ++ u32le 7 ++ u32le 1 ++
    (u32le 16 ++ u32le 0 ++ u32le 8 ++ u32le 2)
  size_le := by decide
  len_eq := by decide

/-- The payload of the refused message is handled as a packet. -/
theorem handleClient_reads_payload :
    ¬ ∀ (host : HandlerHost) (outcomes : ℕ → Outcomes) (n : ℕ) (s : RecordState)
      (fs : List ClientFrame),
      handleClient host outcomes n s (clientStream fs) = frameCalls host outcomes n s fs := by
  intro h
  have heq := h refusingHost (fun _ => quietOutcomes) 0 ⟨.empty, []⟩ [unknownMessage]
  exact handleClient_ne_of_unknown (by decide) (by decide) heq

end Rusbmux
