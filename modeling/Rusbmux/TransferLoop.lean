import Rusbmux.ReaderPolls
import Rusbmux.ReaderLoop
import Rusbmux.TcpWire

/-! The reader loop of src/device/usb.rs over the bulk reader, one `poll_read`
after the other. -/
namespace Rusbmux

open Framing (ReadProgram)

/-- Where the task of the loop stands. -/
inductive LoopTask where
  /-- In a `read_exact` of `n` bytes, of which it has got some. -/
  | reading (n : ℕ) (got : Bytes) (next : Bytes → ReadProgram UInt8 (Outcome UsbDevicePacket))
  /-- Behind a call of `from_reader`. -/
  | returned (o : Outcome UsbDevicePacket)
  | ended

namespace LoopTask

def of : ReadProgram UInt8 (Outcome UsbDevicePacket) → LoopTask
  | .readExact n next => reading n [] next
  | .done o => returned o

def got : LoopTask → Bytes
  | reading _ got _ => got
  | _ => []

end LoopTask

/-- `exacts` has what each `read_exact` has returned. -/
structure TransferLoop where
  polls : ReaderPolls
  loop : ReaderLoop
  task : LoopTask
  exacts : List Bytes

namespace TransferLoop

variable (codec : TcpCodec)

inductive Action where
  /-- `read_exact` polls the reader; `early` says that a transfer which this
  poll submits has ended by the poll of its receiver. -/
  | poll (early : Bool)
  /-- The task goes on where it need not wait for bytes. -/
  | advance
  | complete

def start (results : List BulkRead) : TransferLoop :=
  ⟨.start results, .start, .of (UsbDevicePacket.streamRead codec), []⟩

/-- The branch of the loop for an IO error. -/
def ioError (s : TransferLoop) : TransferLoop :=
  { s with loop := { s.loop with notified := true }, task := .ended }

/-- What `read_exact` makes of a poll. A read that adds no bytes is the end of
the stream to it. -/
def gets (s : TransferLoop) (n : ℕ) (got : Bytes)
    (next : Bytes → ReadProgram UInt8 (Outcome UsbDevicePacket)) :
    Poll (Except String Bytes) → TransferLoop
  | .pending => s
  | .ready (.error _) => s.ioError
  | .ready (.ok data) =>
    -- `UnexpectedEof`, also when bytes of the field have come before
    if data = [] then s.ioError else { s with task := .reading n (got ++ data) next }

/-- The loop behind a call of `from_reader`. -/
def handle (s : TransferLoop) : Outcome UsbDevicePacket → TransferLoop
  | .ok packet => { s with
      loop := s.loop.handle packet
      task := .of (UsbDevicePacket.streamRead codec) }
  | .err (.io _) => s.ioError
  -- logged, and the loop reads on
  | .err (.plist _) | .err (.tcpHeaderSlice _) | .err (.invalidData _) =>
    { s with task := .of (UsbDevicePacket.streamRead codec) }
  | .fault => { s with task := .ended }

def step (s : TransferLoop) : Action → Option TransferLoop
  | .poll early => match s.task with
    | .reading n got next =>
      if got.length < n then (s.polls.poll (.ok ()) (n-got.length) early).map fun p =>
        gets { s with polls := p.2 } n got next p.1
      else none
    | _ => none
  | .advance => match s.task with
    | .reading n got next =>
      if got.length < n then none
      else some { s with task := .of (next got), exacts := s.exacts ++ [got] }
    | .returned o => some (s.handle codec o)
    | .ended => none
  | .complete => (s.polls.step .complete).map fun polls => { s with polls := polls }

/-- The device does not count as disconnected, and what `read_exact` has got
continues with what no call has got yet of the transfers. -/
structure Undisturbed (results : List BulkRead) (s : TransferLoop) : Prop where
  connected : s.loop.notified = false
  data : s.exacts.flatten ++ (s.task.got ++
    (s.polls.reader.left ++ ReaderPolls.transferData s.polls.waiting)) =
    ReaderPolls.transferData results

/-- No poll picks up a transfer without data. -/
def NoneEmpty (s : TransferLoop) : Action → Prop
  | .poll early => ∀ n result, s.polls.picksUp (.poll (.ok ()) n early) = some result →
    result.data ≠ []
  | _ => True

end TransferLoop

/-- An outcome of `from_reader` that does not end the loop as an IO error. -/
def Outcome.NotIo {α : Type} (o : Outcome α) : Prop := ∀ kind, o ≠ .err (.io kind)

namespace StreamRead

variable {α β : Type}

/-- A decoder that itself makes no IO error. -/
def NoIo (m : StreamRead α) : Prop := ReadProgram.Leaves Outcome.NotIo m

theorem noIo_bind {m : StreamRead α} {f : α → StreamRead β} (hm : NoIo m)
    (hf : ∀ a, NoIo (f a)) : NoIo (m >>= f) := by
  apply ReadProgram.Leaves.andThen hm
  intro o ho
  cases o with
  | ok a => exact hf a
  | err e =>
    intro kind he
    cases he
    exact ho kind rfl
  | fault =>
    intro kind he
    cases he

theorem noIo_pure (a : α) : NoIo (pure a : StreamRead α) := by
  intro kind he
  cases he

theorem noIo_readExact (n : ℕ) : NoIo (readExact n) := fun _ => noIo_pure _

end StreamRead

namespace UsbDevicePacket

open StreamRead

theorem noIo_headerStreamRead : NoIo UsbDevicePacketHeader.streamRead := by
  unfold UsbDevicePacketHeader.streamRead
  refine noIo_bind (noIo_readExact _) fun headerBuff => noIo_bind ?_ fun protocol => ?_
  · unfold UsbDevicePacketProtocol.new
    cases UsbDevicePacketProtocol.tryFrom (u32be (headerBuff.take 4)) <;>
      exact fun kind he => by cases he
  · cases protocol with
    | version => exact noIo_pure _
    | tcp | setup | control => exact noIo_bind (noIo_readExact _) fun _ => noIo_pure _

/-- `from_reader` itself returns no IO error: those come from the reads. -/
theorem noIo_streamRead (codec : TcpCodec) : NoIo (streamRead codec) := by
  unfold streamRead
  -- one field after the other: the header, the protocol, the TCP header, the payload
  refine noIo_bind noIo_headerStreamRead fun header => noIo_bind ?_ fun protocol =>
    noIo_bind ?_ fun tcpHdr => ?_
  · unfold UsbDevicePacketHeader.getProtocol
    dsimp only
    generalize UsbDevicePacketProtocol.tryFrom _ = protocol
    cases protocol <;> exact fun kind he => by cases he
  · unfold tcpStreamRead
    split_ifs
    · refine noIo_bind (noIo_readExact _) fun tcpHdrBuff => ?_
      cases codec.fromSlice tcpHdrBuff with
      | ok r => exact noIo_pure _
      | error e =>
        intro kind he
        cases he
    · exact noIo_pure _
  · dsimp only
    split_ifs
    · intro kind he
      cases he
    · refine noIo_bind (noIo_readExact _) fun payload => noIo_bind ?_ fun _ => noIo_pure _
      intro kind he
      cases protocol with
      | version =>
        unfold UsbDevicePacketPayload.decode UsbDevicePacketVersion.decode at he
        simp only at he
        split_ifs at he
        cases he
      | control => rcases payload with _ | ⟨e, _ | ⟨m, ms⟩⟩ <;> cases he
      | setup | tcp => cases he

end UsbDevicePacket

/-- What the task does next makes no IO error. -/
def LoopTask.NoIo : LoopTask → Prop
  | reading _ _ next => ∀ xs, StreamRead.NoIo (next xs)
  | returned o => o.NotIo
  | ended => True

theorem LoopTask.noIo_of {p : StreamRead UsbDevicePacket} (h : p.NoIo) : (LoopTask.of p).NoIo := by
  cases p with
  | done o => exact h
  | readExact n next => exact h

theorem LoopTask.got_of (p : StreamRead UsbDevicePacket) : (LoopTask.of p).got = [] := by
  cases p <;> rfl

namespace ReaderPolls

variable {results : List BulkRead} {s t : ReaderPolls} {n : ℕ} {early : Bool}

theorem outcomes_of_poll {p : Poll (Except String Bytes)}
    (ht : s.poll (.ok ()) n early = some (p, t)) : t.outcomes = s.record n p := by
  obtain ⟨q, -, hq⟩ := Option.map_eq_some_iff.mp ht
  cases hq
  rfl

/-- A poll that returns what it records. -/
theorem eq_ready_of_outcomes {p : Poll (Except String Bytes)} {m : ℕ} {data : Bytes}
    (hp : t.outcomes = s.record n p) (ho : t.outcomes = s.outcomes ++ [(m, .ok data)]) :
    m = n ∧ p = .ready (.ok data) := by
  rw [ho] at hp
  cases p with
  | pending =>
    have hlen := congrArg List.length hp
    simp only [record, List.length_append, List.length_singleton] at hlen
    omega
  | ready o =>
    have hlast := List.append_cancel_left hp
    cases hlast
    exact ⟨rfl, rfl⟩

theorem eq_pending_of_outcomes {p : Poll (Except String Bytes)}
    (hp : t.outcomes = s.record n p) (ho : t.outcomes = s.outcomes) : p = .pending := by
  cases p with
  | pending => rfl
  | ready o =>
    have hlen := congrArg List.length (ho.symm.trans hp)
    simp only [record, List.length_append, List.length_singleton] at hlen
    omega

/-- With room in its buffer, a poll returns no bytes exactly if it picks up a
transfer without data. -/
theorem ConservesInv.poll (h : ConservesInv results s) (hn : 0 < n)
    {p : Poll (Except String Bytes)} (ht : s.poll (.ok ()) n early = some (p, t)) :
    ConservesInv results t ∧
      (p = .pending ∧ t.delivered = s.delivered ∧
          s.picksUp (.poll (.ok ()) n early) = none ∨
        ∃ data, p = .ready (.ok data) ∧ t.delivered = s.delivered ++ data ∧
          (data = [] ↔ ∃ result, s.picksUp (.poll (.ok ()) n early) = some result ∧
            result.data = [])) := by
  have hstep : s.step (.poll (.ok ()) n early) = some t := by
    simp only [ReaderPolls.step, ht, Option.map_some]
  refine ⟨h.step hstep, ?_⟩
  obtain ⟨hm, -⟩ := move_of_poll h.sound ht
  have hp := outcomes_of_poll ht
  have hsucceed := h.succeed
  have htake (data : Bytes) : data.take n = [] ↔ data = [] := by
    rw [List.take_eq_nil_iff, or_iff_right (Nat.ne_of_gt hn)]
  cases hm with
  | leftover m hs hl hw ho hpicks hf =>
    obtain ⟨rfl, rfl⟩ := eq_ready_of_outcomes hp ho
    refine Or.inr ⟨_, rfl, delivered_append ho, ?_⟩
    rw [htake, hpicks]
    exact iff_of_false hs fun ⟨_, hnone, _⟩ => by cases hnone
  | takes m result hs hl hw ho hpicks hf =>
    obtain ⟨rfl, rfl⟩ := eq_ready_of_outcomes hp ho
    refine Or.inr ⟨_, rfl, delivered_append ho, ?_⟩
    rw [htake, hpicks]
    constructor
    · intro hdata
      exact ⟨result, rfl, hdata⟩
    · rintro ⟨_, ⟨⟩, hdata⟩
      exact hdata
  | fails m result hs hl hw he ho hpicks hf =>
    -- no transfer fails
    exact absurd (hsucceed result (hw ▸ List.mem_cons_self)) he
  | quiet hl hw ho hpicks hf =>
    exact Or.inl ⟨eq_pending_of_outcomes hp ho, by rw [delivered, ho, delivered], hpicks⟩

end ReaderPolls

namespace TransferLoop

/-- No IO error has come up, and none will but from a read. -/
structure UndisturbedInv (results : List BulkRead) (s : TransferLoop) : Prop where
  polls : ReaderPolls.ConservesInv results s.polls
  task : s.task.NoIo
  connected : s.loop.notified = false
  got : s.exacts.flatten ++ s.task.got = s.polls.delivered

variable {codec : TcpCodec} {results : List BulkRead} {s t : TransferLoop} {a : Action}

theorem undisturbedInv_start (h : ∀ result ∈ results, result.status = 0) :
    UndisturbedInv results (start codec results) where
  polls := ⟨ReaderPolls.sound_start results, h, rfl⟩
  task := LoopTask.noIo_of (UsbDevicePacket.noIo_streamRead codec)
  connected := rfl
  got := LoopTask.got_of (UsbDevicePacket.streamRead codec)

theorem UndisturbedInv.undisturbed (h : UndisturbedInv results s) : Undisturbed results s := by
  refine ⟨h.connected, ?_⟩
  rw [← List.append_assoc, h.got]
  exact h.polls.data

theorem UndisturbedInv.poll (h : UndisturbedInv results s) {early : Bool}
    (ht : s.step codec (.poll early) = some t) :
    (s.NoneEmpty (.poll early) → UndisturbedInv results t) ∧
      (Undisturbed results t → s.NoneEmpty (.poll early)) := by
  simp only [step] at ht
  split at ht
  case h_2 => cases ht
  case h_1 n got next htask =>
    split_ifs at ht with hlt
    obtain ⟨⟨p, polls⟩, hpoll, rfl⟩ := Option.map_eq_some_iff.mp ht
    have hgot : s.exacts.flatten ++ got = s.polls.delivered := by
      simpa only [htask, LoopTask.got] using h.got
    have hnext : ∀ xs, StreamRead.NoIo (next xs) := by
      simpa only [htask, LoopTask.NoIo] using h.task
    obtain ⟨hpolls, ⟨rfl, hsame, hpicks⟩ | ⟨data, rfl, hdata, hempty⟩⟩ :=
      h.polls.poll (Nat.sub_pos_of_lt hlt) hpoll
    · -- nothing has come yet
      refine ⟨fun _ => ⟨hpolls, h.task, h.connected, ?_⟩, fun _ m result hr => ?_⟩
      · exact h.got.trans hsame.symm
      · cases hpicks.symm.trans hr
    · by_cases hnil : data = []
      · -- the call of `read_exact` fails
        simp only [gets, if_pos hnil]
        obtain ⟨result, hr, hdata⟩ := hempty.mp hnil
        constructor
        · intro hnone
          exact absurd hdata (hnone _ result hr)
        · intro hu
          cases hu.connected
      · -- the bytes go to what the call has got
        simp only [gets, if_neg hnil]
        refine ⟨fun _ => ⟨hpolls, hnext, h.connected, ?_⟩, fun _ m result hr hd => ?_⟩
        · rw [hdata, ← hgot, LoopTask.got, List.append_assoc]
        · exact hnil (hempty.mpr ⟨result, hr, hd⟩)

theorem UndisturbedInv.advance (h : UndisturbedInv results s)
    (ht : s.step codec .advance = some t) : UndisturbedInv results t := by
  have hread := LoopTask.noIo_of (UsbDevicePacket.noIo_streamRead codec)
  simp only [step] at ht
  split at ht
  -- a `read_exact` that has all its bytes returns them
  case h_1 n got next htask =>
    split_ifs at ht with hlt
    cases ht
    have hgot : s.exacts.flatten ++ got = s.polls.delivered := by
      simpa only [htask, LoopTask.got] using h.got
    have hnext : ∀ xs, StreamRead.NoIo (next xs) := by
      simpa only [htask, LoopTask.NoIo] using h.task
    refine ⟨h.polls, LoopTask.noIo_of (hnext got), h.connected, ?_⟩
    have hnil : (LoopTask.of (next got)).got = [] := LoopTask.got_of _
    rw [hnil, List.append_nil, List.flatten_append, List.flatten_singleton]
    exact hgot
  -- the loop goes by the outcome of `from_reader`
  case h_2 o htask =>
    cases ht
    have hgot : s.exacts.flatten ++ [] = s.polls.delivered := by
      simpa only [htask, LoopTask.got] using h.got
    have hagain : s.exacts.flatten ++ (LoopTask.of (UsbDevicePacket.streamRead codec)).got =
        s.polls.delivered := by
      rw [LoopTask.got_of]
      exact hgot
    have ho : o.NotIo := by
      simpa only [htask, LoopTask.NoIo] using h.task
    cases o with
    | ok packet =>
      refine ⟨h.polls, hread, ?_, hagain⟩
      have hkeep : (s.loop.handle packet).notified = s.loop.notified := by
        unfold ReaderLoop.handle
        simp only
        split_ifs <;> rfl
      exact hkeep.trans h.connected
    | err e =>
      cases e with
      | io kind => exact absurd rfl (ho kind)
      | plist _ | tcpHeaderSlice _ | invalidData _ => exact ⟨h.polls, hread, h.connected, hagain⟩
    | fault => exact ⟨h.polls, trivial, h.connected, hgot⟩
  case h_3 => cases ht

theorem UndisturbedInv.step (h : UndisturbedInv results s) (ht : s.step codec a = some t) :
    (s.NoneEmpty a → UndisturbedInv results t) ∧ (Undisturbed results t → s.NoneEmpty a) := by
  cases a with
  | poll early => exact h.poll ht
  | advance => exact ⟨fun _ => h.advance ht, fun _ => trivial⟩
  | complete =>
    obtain ⟨polls, hpolls, rfl⟩ := Option.map_eq_some_iff.mp ht
    refine ⟨fun _ => ⟨h.polls.step hpolls, h.task, h.connected, ?_⟩, fun _ => trivial⟩
    have hsame : polls.outcomes = s.polls.outcomes := by
      unfold ReaderPolls.step at hpolls
      cases hres : s.polls.results with
      | nil =>
        rw [hres] at hpolls
        cases hpolls
      | cons result rest =>
        rw [hres] at hpolls
        obtain ⟨reader, -, rfl⟩ := Option.map_eq_some_iff.mp hpolls
        rfl
    have hdelivered : polls.delivered = s.polls.delivered := by
      rw [ReaderPolls.delivered, hsame, ReaderPolls.delivered]
    exact h.got.trans hdelivered.symm

/-- For any transfers that succeed, ending at any time: the loop takes the
device for connected, and reads the transfers as one stream, exactly as long as
no poll picks up a transfer without data. -/
theorem undisturbed_iff (codec : TcpCodec) {results : List BulkRead}
    (h : ∀ result ∈ results, result.status = 0) (as : List Action) :
    StepSystem.EveryState (step codec) (Undisturbed results) (start codec results) as ↔
      StepSystem.EveryStep (step codec) NoneEmpty (start codec results) as :=
  StepSystem.everyState_iff_everyStep (fun _ _ _ hi ht => hi.step ht)
    (fun _ hi => hi.undisturbed) (undisturbedInv_start h) as

/-- The header of a packet in two transfers, the first within `read_exact`'s
first field. -/
theorem undisturbed_iff_split :
    StepSystem.EveryState (step tcpWire.toTcpCodec)
        (Undisturbed [⟨⟨0⟩, [0, 0, 0]⟩, ⟨⟨0⟩, [0, 0]⟩])
        (start tcpWire.toTcpCodec [⟨⟨0⟩, [0, 0, 0]⟩, ⟨⟨0⟩, [0, 0]⟩])
        [.poll true, .poll false, .complete, .poll false] ↔
      StepSystem.EveryStep (step tcpWire.toTcpCodec) NoneEmpty
        (start tcpWire.toTcpCodec [⟨⟨0⟩, [0, 0, 0]⟩, ⟨⟨0⟩, [0, 0]⟩])
        [.poll true, .poll false, .complete, .poll false] :=
  undisturbed_iff tcpWire.toTcpCodec (by decide) _

/-- A transfer without data, which the device may send to end a packet, reads as
the end of the stream. -/
theorem emptyTransfer_disconnects : ¬ ∀ (codec : TcpCodec) (results : List BulkRead),
    (∀ result ∈ results, result.status = 0) → ∀ as,
      StepSystem.EveryState (step codec) (Undisturbed results) (start codec results) as := by
  intro h
  have hrun := h tcpWire.toTcpCodec [⟨⟨0⟩, []⟩] (by decide) [.poll true]
  have hlast := hrun.last rfl
  exact Bool.noConfusion hlast.connected

end TransferLoop

end Rusbmux
