import Rusbmux.TransferLoop

/-! The reader loop over the bulk reader does what it does on the device's bytes
in one stream. -/
namespace Rusbmux

open Framing (ReadProgram)

namespace ReaderLoop

variable {codec : TcpCodec}

theorem routed_handle (s : ReaderLoop) (packet : UsbDevicePacket) :
    s.routed <+: (s.handle packet).routed := by
  rw [handle_routed]
  exact List.prefix_append _ _

/-- The loop behind a call of `from_reader`, with the bytes that are left. -/
def conclude (codec : TcpCodec) (s : ReaderLoop) : Outcome UsbDevicePacket × Bytes → ReaderLoop
  | (.ok packet, rest) => (s.handle packet).startReaderLoop codec rest
  | (.err (.io _), _) => { s with notified := true }
  | (.err (.plist _), rest) | (.err (.tcpHeaderSlice _), rest) | (.err (.invalidData _), rest) =>
    s.startReaderLoop codec rest
  | (.fault, _) => s

theorem startReaderLoop_eq (s : ReaderLoop) (stream : Bytes) :
    s.startReaderLoop codec stream =
      conclude codec s (UsbDevicePacket.fromReader codec stream) := by
  rw [startReaderLoop]
  split <;> rename_i h <;> rw [h] <;> rfl

/-- What is given to the router is not taken back. -/
theorem routed_startReaderLoop (s : ReaderLoop) (stream : Bytes) :
    s.routed <+: (s.startReaderLoop codec stream).routed := by
  induction h : stream.length using Nat.strongRecOn generalizing s stream with
  | ind n ih =>
  rw [startReaderLoop_eq]
  have hlt {o : Outcome UsbDevicePacket} {rest : Bytes}
      (hread : UsbDevicePacket.fromReader codec stream = (o, rest))
      (ho : ∀ kind, o ≠ .err (.io kind)) : rest.length < n := by
    rw [← h]
    exact UsbDevicePacket.length_lt_of_fromReader codec hread ho
  rcases hread : UsbDevicePacket.fromReader codec stream with ⟨packet | e | _, rest⟩
  · exact (s.routed_handle packet).trans (ih _ (hlt hread fun _ hc => by cases hc) _ rest rfl)
  · cases e with
    | io kind => exact List.prefix_rfl
    | plist text | tcpHeaderSlice text | invalidData text =>
      exact ih _ (hlt hread fun _ hc => by cases hc) s rest rfl
  · exact List.prefix_rfl

end ReaderLoop

namespace LoopTask

/-- What is left of the task's call of `from_reader`. -/
def program : LoopTask → Option (ReadProgram UInt8 (Outcome UsbDevicePacket))
  | reading n _ next => some (.readExact n next)
  | returned o => some (.done o)
  | ended => none

end LoopTask

namespace TransferLoop

/-- The loop from where its task stands, on the bytes that are to come. -/
def resume (codec : TcpCodec) (loop : ReaderLoop) (task : LoopTask) (stream : Bytes) :
    ReaderLoop :=
  match task.program with
  | some program => loop.conclude codec (program.run StreamRead.eof (task.got ++ stream))
  | none => loop

/-- The bytes that the loop has still to get. -/
def coming (s : TransferLoop) : Bytes :=
  s.polls.reader.left ++ ReaderPolls.transferData s.polls.waiting

/-- The loop goes on to what it comes to on one stream: the same packets for the
router, the same count and the same end. The router has got the front of these
packets, and all of them when the loop waits for bytes behind the last transfer. -/
structure Refines (codec : TcpCodec) (results : List BulkRead) (s : TransferLoop) : Prop where
  connected : s.loop.notified = false
  same : resume codec s.loop s.task s.coming =
    ReaderLoop.start.startReaderLoop codec (ReaderPolls.transferData results)
  routed : s.loop.routed <+:
    (ReaderLoop.start.startReaderLoop codec (ReaderPolls.transferData results)).routed
  complete : ∀ n got next, s.task = .reading n got next → got.length < n →
    s.polls.reader.left = [] → s.polls.waiting = [] →
      ReaderLoop.start.startReaderLoop codec (ReaderPolls.transferData results) =
        { s.loop with notified := true }

variable {codec : TcpCodec} {results : List BulkRead} {s t : TransferLoop} {a : Action}

theorem resume_of (loop : ReaderLoop) (program : ReadProgram UInt8 (Outcome UsbDevicePacket))
    (stream : Bytes) : resume codec loop (.of program) stream =
      loop.conclude codec (program.run StreamRead.eof stream) := by
  cases program <;> rfl

/-- At the start of a call the task is the loop on the rest of the stream. -/
theorem resume_streamRead (loop : ReaderLoop) (stream : Bytes) :
    resume codec loop (.of (UsbDevicePacket.streamRead codec)) stream =
      loop.startReaderLoop codec stream := by
  have hrun : ReadProgram.run StreamRead.eof (UsbDevicePacket.streamRead codec) stream =
      UsbDevicePacket.fromReader codec stream :=
    congrFun (UsbDevicePacket.run_streamRead codec) stream
  rw [ReaderLoop.startReaderLoop_eq]
  exact (resume_of loop _ stream).trans (congrArg _ hrun)

/-- What is done and what is to come make up the loop on one stream. -/
structure Simulates (codec : TcpCodec) (results : List BulkRead) (s : TransferLoop) : Prop where
  undisturbed : UndisturbedInv results s
  nonempty : ∀ result ∈ s.polls.waiting, result.data ≠ []
  room : ∀ n got next, s.task = .reading n got next → got.length ≤ n
  same : resume codec s.loop s.task s.coming =
    ReaderLoop.start.startReaderLoop codec (ReaderPolls.transferData results)

theorem room_of (program : ReadProgram UInt8 (Outcome UsbDevicePacket)) {n : ℕ} {got : Bytes}
    {next : Bytes → ReadProgram UInt8 (Outcome UsbDevicePacket)}
    (h : LoopTask.of program = .reading n got next) : got.length ≤ n := by
  cases program with
  | done o => cases h
  | readExact n next =>
    cases h
    exact Nat.zero_le n

theorem simulates_start (h : ∀ result ∈ results, result.status = 0 ∧ result.data ≠ []) :
    Simulates codec results (start codec results) where
  undisturbed := undisturbedInv_start fun result hr => (h result hr).1
  nonempty := fun result hr => (h result hr).2
  room := fun _ _ _ hp => room_of (UsbDevicePacket.streamRead codec) hp
  same := resume_streamRead ReaderLoop.start (ReaderPolls.transferData results)

/-- The bytes of the stream that are not in what `read_exact` has returned. -/
theorem got_append_coming (h : UndisturbedInv results s) :
    s.exacts.flatten ++ (s.task.got ++ s.coming) = ReaderPolls.transferData results :=
  h.undisturbed.data

/-- A transfer is picked up off the front of those that wait. -/
theorem nonempty_step {s t : ReaderPolls} {a : ReaderPolls.Action}
    (h : ∀ result ∈ s.waiting, result.data ≠ []) (hm : ReaderPolls.Move s a t) :
    (∀ result, s.picksUp a = some result → result.data ≠ []) ∧
      ∀ result ∈ t.waiting, result.data ≠ [] := by
  cases hm with
  | leftover n hs hl hw ho hp hf =>
    rw [hp, hw]
    exact ⟨fun _ hc => (by cases hc), h⟩
  | takes n result hs hl hw ho hp hf | fails n result hs hl hw he ho hp hf =>
    rw [hw] at h
    refine ⟨fun r hr => ?_, fun r hr => h r (List.mem_cons_of_mem _ hr)⟩
    cases hp.symm.trans hr
    exact h result List.mem_cons_self
  | quiet hl hw ho hp hf =>
    rw [hp, hw]
    exact ⟨fun _ hc => (by cases hc), h⟩

/-- No poll returns more bytes than there is room for. -/
theorem length_le_of_poll {s t : ReaderPolls} (h : s.reader.Sound) {n : ℕ} {early : Bool}
    {data : Bytes} (ht : s.poll (.ok ()) n early = some (.ready (.ok data), t)) :
    data.length ≤ n := by
  obtain ⟨hm, -⟩ := ReaderPolls.move_of_poll h ht
  have hp := ReaderPolls.outcomes_of_poll ht
  cases hm with
  | leftover m hs hl hw ho | takes m result hs hl hw ho =>
    obtain ⟨rfl, hdata⟩ := ReaderPolls.eq_ready_of_outcomes hp ho
    cases hdata
    exact List.length_take_le _ _
  | fails m result hs hl hw he ho =>
    rw [ho] at hp
    cases List.append_cancel_left hp
  | quiet hl hw ho => cases ReaderPolls.eq_pending_of_outcomes hp ho

/-- A step that leaves the loop, what the calls have returned and the rest of the
task's call alone. -/
theorem Simulates.stays (h : Simulates codec results s) (ht : UndisturbedInv results t)
    (hnonempty : ∀ result ∈ t.polls.waiting, result.data ≠ [])
    (hroom : ∀ n got next, t.task = .reading n got next → got.length ≤ n)
    (hloop : t.loop = s.loop) (hexacts : t.exacts = s.exacts)
    (hprogram : t.task.program = s.task.program) : Simulates codec results t := by
  refine ⟨ht, hnonempty, hroom, ?_⟩
  have hcoming : t.task.got ++ t.coming = s.task.got ++ s.coming := by
    have hboth := (got_append_coming ht).trans (got_append_coming h.undisturbed).symm
    rw [hexacts] at hboth
    exact List.append_cancel_left hboth
  rw [← h.same, resume, resume, hprogram, hcoming, hloop]

theorem Simulates.poll (h : Simulates codec results s) {early : Bool}
    (ht : s.step codec (.poll early) = some t) : Simulates codec results t := by
  have hstep := ht
  simp only [step] at ht
  split at ht
  case h_2 => cases ht
  case h_1 n got next htask =>
    split_ifs at ht with hlt
    obtain ⟨⟨p, polls⟩, hpoll, rfl⟩ := Option.map_eq_some_iff.mp ht
    obtain ⟨hm, -⟩ := ReaderPolls.move_of_poll h.undisturbed.polls.sound hpoll
    obtain ⟨hpicks, hnonempty⟩ := nonempty_step h.nonempty hm
    -- the transfer that is picked up does not depend on the room
    have hinv := (h.undisturbed.poll hstep).1 fun m result hr => hpicks result hr
    cases p with
    | pending => exact h.stays hinv hnonempty h.room rfl rfl rfl
    | ready o =>
      cases o with
      | error e =>
        have hconnected := hinv.connected
        cases hconnected
      | ok data =>
        by_cases hnil : data = []
        · have hconnected := hinv.connected
          simp only [gets, if_pos hnil] at hconnected
          cases hconnected
        · simp only [gets, if_neg hnil] at hinv ⊢
          refine h.stays hinv hnonempty (fun n' got' next' hp => ?_) rfl rfl ?_
          · cases hp
            have hle := length_le_of_poll h.undisturbed.polls.sound hpoll
            rw [List.length_append]
            omega
          · rw [htask]
            rfl

theorem Simulates.advance (h : Simulates codec results s)
    (ht : s.step codec .advance = some t) : Simulates codec results t := by
  have hinv := h.undisturbed.advance ht
  have hsame := h.same
  simp only [step] at ht
  split at ht
  -- a `read_exact` that has all its bytes goes on with the program
  case h_1 n got next htask =>
    split_ifs at ht with hlt
    cases ht
    have hlen : got.length = n := Nat.le_antisymm (h.room n got next htask) (Nat.not_lt.mp hlt)
    refine ⟨hinv, h.nonempty, fun _ _ _ hp => room_of _ hp, ?_⟩
    have hrun : ReadProgram.run StreamRead.eof (.readExact n next) (got ++ s.coming) =
        ReadProgram.run StreamRead.eof (next got) s.coming := by
      have hle : n ≤ (got ++ s.coming).length := by
        rw [List.length_append]
        omega
      rw [ReadProgram.run, if_pos hle, List.take_left' hlen, List.drop_left' hlen]
    rw [← hsame, htask]
    refine (resume_of s.loop (next got) s.coming).trans ?_
    rw [← hrun]
    rfl
  case h_2 o htask =>
    cases ht
    rw [htask] at hsame
    have hread (loop : ReaderLoop) (hloop : loop.startReaderLoop codec s.coming =
        ReaderLoop.start.startReaderLoop codec (ReaderPolls.transferData results)) :
        resume codec loop (.of (UsbDevicePacket.streamRead codec)) s.coming =
          ReaderLoop.start.startReaderLoop codec (ReaderPolls.transferData results) :=
      (resume_streamRead loop s.coming).trans hloop
    cases o with
    | ok packet =>
      exact ⟨hinv, h.nonempty, fun _ _ _ hp => room_of (UsbDevicePacket.streamRead codec) hp,
        hread _ hsame⟩
    | err e =>
      cases e with
      | io kind => exact ⟨hinv, h.nonempty, fun _ _ _ hp => (by cases hp), hsame⟩
      | plist text | tcpHeaderSlice text | invalidData text =>
        exact ⟨hinv, h.nonempty, fun _ _ _ hp => room_of (UsbDevicePacket.streamRead codec) hp,
          hread _ hsame⟩
    | fault => exact ⟨hinv, h.nonempty, fun _ _ _ hp => (by cases hp), hsame⟩
  case h_3 => cases ht

theorem Simulates.step (h : Simulates codec results s) (ht : s.step codec a = some t) :
    Simulates codec results t := by
  cases a with
  | poll early => exact h.poll ht
  | advance => exact h.advance ht
  | complete =>
    have hinv := (h.undisturbed.step ht).1 trivial
    obtain ⟨polls, hpolls, rfl⟩ := Option.map_eq_some_iff.mp ht
    obtain ⟨hm, -⟩ := ReaderPolls.move_of_step h.undisturbed.polls.sound hpolls
    exact h.stays hinv (nonempty_step h.nonempty hm).2 h.room rfl rfl rfl

theorem routed_resume (loop : ReaderLoop) (task : LoopTask) (stream : Bytes) :
    loop.routed <+: (resume codec loop task stream).routed := by
  unfold resume
  cases task.program with
  | none => exact List.prefix_rfl
  | some program =>
    dsimp only
    rcases program.run StreamRead.eof (task.got ++ stream) with ⟨packet | e | _, rest⟩
    · exact (loop.routed_handle packet).trans (ReaderLoop.routed_startReaderLoop _ rest)
    · cases e with
      | io kind => exact List.prefix_rfl
      | plist text | tcpHeaderSlice text | invalidData text =>
        exact ReaderLoop.routed_startReaderLoop loop rest
    · exact List.prefix_rfl

theorem Simulates.refines (h : Simulates codec results s) : Refines codec results s := by
  have hsame := h.same
  refine ⟨h.undisturbed.connected, hsame, ?_, fun n got next htask hlt hleft hwaiting => ?_⟩
  · rw [← hsame]
    exact routed_resume s.loop s.task s.coming
  · have hnone : s.coming = [] := by
      rw [coming, hleft, hwaiting]
      rfl
    -- one stream ends where the loop waits
    have heof : ReadProgram.run StreamRead.eof (.readExact n next) (got ++ []) =
        (StreamRead.eof, []) := by
      rw [List.append_nil, ReadProgram.run, if_neg (Nat.not_le.mpr hlt)]
    rw [← hsame, hnone, htask]
    exact congrArg (s.loop.conclude codec) heof

/-- For any transfers with data, ending at any time and cut in any place, the loop
goes on in every state to what it comes to on the same bytes in one stream. -/
theorem refines_startReaderLoop (codec : TcpCodec)
    (h : ∀ result ∈ results, result.status = 0 ∧ result.data ≠ []) (as : List Action) :
    StepSystem.EveryState (step codec) (Refines codec results) (start codec results) as := by
  have hrun : StepSystem.EveryState (step codec) (Simulates codec results)
      (start codec results) as :=
    StepSystem.everyState_of_everyStep (fun _ _ _ h _ hst => h.step hst) (simulates_start h)
      (StepSystem.everyStep_true _ as)
  exact hrun.mono fun _ h => h.refines

/-- A version packet in two transfers, the first of which ends within its header. -/
theorem refines_startReaderLoop_split : StepSystem.EveryState (step tcpWire.toTcpCodec)
    (Refines tcpWire.toTcpCodec [⟨⟨0⟩, [0, 0, 0]⟩,
      ⟨⟨0⟩, [0, 0, 0, 0, 20, 0, 0, 0, 2, 0, 0, 0, 0, 0, 0, 0, 0]⟩])
    (start tcpWire.toTcpCodec [⟨⟨0⟩, [0, 0, 0]⟩,
      ⟨⟨0⟩, [0, 0, 0, 0, 20, 0, 0, 0, 2, 0, 0, 0, 0, 0, 0, 0, 0]⟩])
    [.poll true, .poll false, .complete, .poll false, .advance, .poll false, .advance, .advance,
      .poll false] :=
  refines_startReaderLoop tcpWire.toTcpCodec (by decide) _

end TransferLoop

end Rusbmux
