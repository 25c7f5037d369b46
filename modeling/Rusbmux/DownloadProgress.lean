import Rusbmux.DownloadWire

/-! What both ends of a connection's queue can always do: the relay takes what waits
there, and the reader loop reads on. -/
namespace Rusbmux

open Framing (ReadProgram)

namespace Relay

/-- What the relay does with what has come from the device, as far as nothing
fails, and what the writer loop does for it. -/
def Action.forwards : Action → Bool
  | .pollRecv | .pollAck | .clientTakes _ | .clientSendDone | .sendDone | .writerTakes => true
  | _ => false

def forward (s : Relay) (action : Action) : Option Relay :=
  if action.forwards then s.step action else none

/-- It has not found its client gone, and nothing has failed. -/
def Running (s : Relay) : Prop := s.phase ≠ .closing ∧ s.phase ≠ .ended

/-- In `select!`, with no packet in `conn.recv()`. -/
def Selecting (s : Relay) : Prop := ∃ sendable, s.phase = .select sendable none

variable {s : Relay}

theorem Selecting.running (h : s.Selecting) : s.Running := by
  obtain ⟨sendable, hp⟩ := h
  rw [Running, hp]
  exact ⟨fun hc => (by cases hc), fun hc => (by cases hc)⟩

theorem forward_of_step {t : Relay} {action : Action} (ha : action.forwards = true)
    (h : s.step action = some t) : s.forward action = some t := by
  rw [forward, if_pos ha]
  exact h

theorem hasRoom_of_drained (h : s.wTx = []) : s.hasRoom = true := by
  rw [hasRoom, h]
  rfl

/-- The writer loop can take all that is on the channel. -/
theorem canReach_drained (s : Relay) :
    StepSystem.CanReach forward
      (fun t => t.wTx = [] ∧ t.phase = s.phase ∧ t.rx = s.rx) s := by
  induction h : s.wTx generalizing s with
  | nil => exact StepSystem.CanReach.now ⟨h, rfl, rfl⟩
  | cons packet rest ih =>
    have htakes : s.step .writerTakes = some { s with wTx := rest } := by
      simp only [step, h, reduceCtorEq, if_false, List.tail_cons]
    exact StepSystem.CanReach.of_step (forward_of_step rfl htakes) (ih { s with wTx := rest } rfl)

theorem canReach_sent {remaining : Bytes} (hp : s.phase = .clientSend remaining) :
    StepSystem.CanReach forward (fun t => t.Selecting ∧ t.rx = s.rx) s := by
  -- the client takes all at once
  have hdone (t : Relay) (ht : t.phase = .clientSend []) :
      StepSystem.CanReach forward (fun u => u.Selecting ∧ u.rx = t.rx) t := by
    have hstep : t.step .clientSendDone = some t.loop := by simp only [step, ht]
    exact StepSystem.CanReach.of_step (forward_of_step rfl hstep)
      (StepSystem.CanReach.now ⟨⟨_, rfl⟩, rfl⟩)
  by_cases hnil : remaining = []
  · exact hdone s (hnil ▸ hp)
  · have hpos : 0 < remaining.length := List.length_pos_iff.mpr hnil
    have hstep : s.step (.clientTakes remaining.length) = some { s with
        clientOut := s.clientOut ++ remaining.take remaining.length
        phase := .clientSend (remaining.drop remaining.length) } := by
      simp only [step, hp, hpos, Nat.le_refl, and_self, if_true]
    refine StepSystem.CanReach.of_step (forward_of_step rfl hstep) ?_
    refine hdone _ ?_
    simp only [List.drop_length]

/-- A running relay comes back to its `select!`. -/
theorem canReach_selecting (h : s.Running) :
    StepSystem.CanReach forward (fun t => t.Selecting ∧ t.rx = s.rx) s := by
  cases hp : s.phase with
  | select sendable held =>
    cases held with
    | none => exact StepSystem.CanReach.now ⟨⟨sendable, hp⟩, rfl⟩
    | some a =>
      -- the ACK has a place once the channel is empty
      refine (canReach_drained s).bind fun t ⟨hwTx, hphase, hrx⟩ => ?_
      have hroom := hasRoom_of_drained hwTx
      have hstep : t.step .pollAck = some (t.ackSent a) := by
        simp only [step, hphase, hp, hroom, if_true]
      have hsent := canReach_sent (s := t.ackSent a) rfl
      rw [← hrx]
      exact StepSystem.CanReach.of_step (forward_of_step rfl hstep) hsent
  | clientSend remaining => exact canReach_sent hp
  | sendBytes packet =>
    refine (canReach_drained s).bind fun t ⟨hwTx, hphase, hrx⟩ => ?_
    have hroom := hasRoom_of_drained hwTx
    obtain ⟨u, hstep, hselecting, hurx⟩ :
        ∃ u, t.step .sendDone = some u ∧ u.Selecting ∧ u.rx = t.rx := by
      simp only [step, hphase, hp, hroom, if_true]
      exact ⟨_, rfl, ⟨_, rfl⟩, rfl⟩
    exact StepSystem.CanReach.of_step (forward_of_step rfl hstep)
      (StepSystem.CanReach.now ⟨hselecting, hurx.trans hrx⟩)
  | closing => exact absurd hp h.1
  | ended => exact absurd hp h.2

/-- A running relay can bring its client all that waits on its queue. -/
theorem canReach_idle (h : s.Running) :
    StepSystem.CanReach forward (fun t => t.Selecting ∧ t.rx = []) s := by
  have hnearer (s : Relay) (h : s.Running) : StepSystem.CanReach forward
      (fun t => (t.Selecting ∧ t.rx = []) ∨ t.Running ∧ t.rx.length < s.rx.length) s := by
    refine (canReach_selecting h).bind fun t ⟨hselecting, hrx⟩ => ?_
    cases htrx : t.rx with
    | nil => exact StepSystem.CanReach.now (Or.inl ⟨hselecting, htrx⟩)
    | cons a rest =>
      obtain ⟨sendable, hp⟩ := hselecting
      obtain ⟨u, hstep, hrunning, hurx⟩ :
          ∃ u, t.step .pollRecv = some u ∧ u.Running ∧ u.rx = rest := by
        simp only [step, hp, htrx]
        split_ifs
        · exact ⟨_, rfl, ⟨fun hc => (by cases hc), fun hc => (by cases hc)⟩, rfl⟩
        · exact ⟨_, rfl, ⟨fun hc => (by cases hc), fun hc => (by cases hc)⟩, rfl⟩
      refine StepSystem.CanReach.of_step (forward_of_step rfl hstep)
        (StepSystem.CanReach.now (Or.inr ⟨hrunning, ?_⟩))
      rw [hurx, ← hrx, htrx]
      exact Nat.lt_succ_self _
  exact StepSystem.canReach_of_variant (fun t => t.rx.length) hnearer h

/-- Forwarding neither ends a relay nor closes it. -/
theorem phase_of_forward {t : Relay} {action : Action} (h : s.forward action = some t) :
    t.Running ∨ t.phase = s.phase := by
  unfold forward at h
  split_ifs at h with ha
  cases move_of_step h with
  | writerTakes => exact Or.inr rfl
  | acked | held | pollAck | clientTakes | clientSendDone | sendDone =>
    exact Or.inl ⟨(fun hc => by cases hc), (fun hc => by cases hc)⟩
  | _ => cases ha

end Relay

namespace ReaderPolls

open RusbAsyncReader

variable {s : ReaderPolls}

/-- A poll gets bytes, if a transfer that it submits has ended at once. -/
def Returns (s : ReaderPolls) (n : ℕ) : Prop :=
  ∃ data t, s.poll (.ok ()) n true = some (.ready (.ok data), t)

theorem returns_of_left (hl : s.reader.left ≠ []) (n : ℕ) : s.Returns n := by
  have hs : ¬ s.reader.Submits := fun hs => Nat.not_lt.mpr hs.1 (left_ne_nil_iff.mp hl)
  obtain ⟨e, he⟩ := poll_of_not_submits hs (.ok ()) n true
  obtain ⟨r', hr, -⟩ := s.reader.pollRead_of_left hl n
  rw [Returns, he, hr]
  exact ⟨_, _, rfl⟩

theorem returns_of_arrived (hl : s.reader.left = []) {result : BulkRead}
    (hp : s.reader.pending = some (.completed (some result))) (hstatus : result.status = 0)
    (n : ℕ) : s.Returns n := by
  have hs : ¬ s.reader.Submits := by
    rintro ⟨-, hnone⟩
    rw [hnone] at hp
    cases hp
  obtain ⟨e, he⟩ := poll_of_not_submits hs (.ok ()) n true
  obtain ⟨r', hr, -⟩ := s.reader.pollRead_of_arrived hl hp n
  rw [if_neg (not_not.mpr hstatus)] at hr
  rw [Returns, he, hr]
  exact ⟨_, _, rfl⟩

theorem returns_of_submits (hs : s.reader.Submits) {result : BulkRead} {rest : List BulkRead}
    (hres : s.results = result :: rest) (n : ℕ) : s.Returns n := by
  obtain ⟨r', hr, -⟩ := s.reader.pollRead_of_early hs result n
  simp only [Returns, poll, hres, if_true, List.head?_cons, Option.map_some, hr]
  exact ⟨_, _, rfl⟩

/-- Bytes that are to come are got by a poll, at the latest once the transfer in
flight has ended. -/
theorem returns_or_completes (h : s.reader.Sound) (hok : ∀ result ∈ s.waiting, result.status = 0)
    (hne : s.reader.left ≠ [] ∨ s.waiting ≠ []) (n : ℕ) :
    s.Returns n ∨ ∃ t, s.step .complete = some t ∧ t.Returns n := by
  by_cases hl : s.reader.left = []
  · have hwaiting : s.waiting ≠ [] := hne.resolve_left (not_not.mpr hl)
    obtain hp | hp | ⟨result, hp⟩ := h.pending
    · have hs : s.reader.Submits := ⟨Nat.not_lt.mp (mt left_ne_nil_iff.mpr (not_not.mpr hl)), hp⟩
      rw [waiting_of_submits hs] at hwaiting
      obtain ⟨result, rest, hres⟩ := List.exists_cons_of_ne_nil hwaiting
      exact Or.inl (returns_of_submits hs hres n)
    · have hresults : s.waiting = s.results := by
        simp only [waiting, arrived, hp, List.nil_append]
      rw [hresults] at hwaiting hok
      obtain ⟨result, rest, hres⟩ := List.exists_cons_of_ne_nil hwaiting
      have hstatus : result.status = 0 := hok result (hres ▸ List.mem_cons_self)
      obtain ⟨reader, hcomplete, hleft, hpending⟩ : ∃ reader,
          s.reader.complete (some result) = some reader ∧ reader.left = [] ∧
            reader.pending = some (.completed (some result)) := by
        simp only [complete, hp]
        exact ⟨_, rfl, hl, rfl⟩
      have hreturns := returns_of_arrived (s := ⟨reader, rest, s.outcomes⟩) hleft hpending hstatus n
      refine Or.inr ⟨_, ?_, hreturns⟩
      simp only [step, hres, hcomplete, Option.map_some]
    · refine Or.inl (returns_of_arrived hl hp (hok result ?_) n)
      simp only [waiting, arrived, hp, List.cons_append, List.mem_cons, true_or]
  · exact Or.inl (returns_of_left hl n)

end ReaderPolls

namespace TransferLoop

variable {codec : TcpCodec} {results : List BulkRead} {s : TransferLoop} {n : ℕ} {got : Bytes}
  {next : Bytes → ReadProgram UInt8 (Outcome UsbDevicePacket)}

/-- A poll of `read_exact` that gets bytes brings the end of the stream nearer. -/
theorem exists_poll (h : s.Simulates codec results) (htask : s.task = .reading n got next)
    (hlt : got.length < n) (hreturns : s.polls.Returns (n-got.length)) :
    ∃ t, s.step codec (.poll true) = some t ∧ t.routes = none ∧
      t.coming.length < s.coming.length := by
  obtain ⟨data, polls, hpoll⟩ := hreturns
  have hstep : s.step codec (.poll true) =
      some (gets { s with polls := polls } n got next (.ready (.ok data))) := by
    simp only [step, htask, if_pos hlt, hpoll, Option.map_some]
  have hafter := h.poll hstep
  refine ⟨_, hstep, ?_⟩
  by_cases hnil : data = []
  · have hconnected := hafter.undisturbed.connected
    simp only [gets, if_pos hnil] at hconnected
    cases hconnected
  · simp only [gets, if_neg hnil] at hafter ⊢
    refine ⟨rfl, ?_⟩
    have hboth :=
      (got_append_coming h.undisturbed).trans (got_append_coming hafter.undisturbed).symm
    have hsame := List.append_cancel_left hboth
    rw [htask, LoopTask.got, LoopTask.got, List.append_assoc] at hsame
    have hlen := congrArg List.length (List.append_cancel_left hsame)
    have hpos : 0 < data.length := List.length_pos_iff.mpr hnil
    rw [List.length_append] at hlen
    omega

/-- The end of a transfer changes nothing of what is to come. -/
theorem complete_step (h : s.Simulates codec results) {polls : ReaderPolls}
    (hpolls : s.polls.step .complete = some polls) :
    s.step codec .complete = some { s with polls := polls } ∧
      coming { s with polls := polls } = s.coming := by
  have hstep : s.step codec .complete = some { s with polls := polls } := by
    simp only [step, hpolls, Option.map_some]
  have hafter := h.step hstep
  have hboth := (got_append_coming hafter.undisturbed).trans (got_append_coming h.undisturbed).symm
  exact ⟨hstep, List.append_cancel_left (List.append_cancel_left hboth)⟩

/-- The loop has read all, or a packet has ended it. -/
def AtEnd (s : TransferLoop) : Prop :=
  s.task = .ended ∨
    ∃ n got next, s.task = .reading n got next ∧ got.length < n ∧ s.coming = []

theorem Simulates.routed_of_atEnd (h : s.Simulates codec results) (hend : s.AtEnd) :
    (ReaderLoop.start.startReaderLoop codec (ReaderPolls.transferData results)).routed =
      s.loop.routed := by
  rcases hend with htask | ⟨n, got, next, htask, hlt, hcoming⟩
  · rw [← h.same, htask]
    rfl
  · obtain ⟨hleft, hdata⟩ := List.append_eq_nil_iff.mp hcoming
    have hwaiting : s.polls.waiting = [] := by
      apply List.eq_nil_iff_forall_not_mem.mpr
      intro result hr
      exact h.nonempty result hr (List.flatMap_eq_nil_iff.mp hdata result hr)
    rw [h.refines.complete n got next htask hlt hleft hwaiting]

/-- The task goes on, and what is to come stays. -/
theorem advance_reading (htask : s.task = .reading n got next) (hge : n ≤ got.length) :
    ∃ t, s.step codec .advance = some t ∧ t.task = .of (next got) ∧ t.coming = s.coming := by
  refine ⟨{ s with task := .of (next got), exacts := s.exacts ++ [got] }, ?_, rfl, rfl⟩
  simp only [step, htask, if_neg (Nat.not_lt.mpr hge)]

theorem advance_returned {o : Outcome UsbDevicePacket} (htask : s.task = .returned o) :
    ∃ t, s.step codec .advance = some t ∧
      (t.task = .ended ∨ t.task = .of (UsbDevicePacket.streamRead codec)) ∧
        t.coming = s.coming := by
  refine ⟨s.handle codec o, ?_, ?_⟩
  · simp only [step, htask]
  · cases o with
    | ok packet => exact ⟨Or.inr rfl, rfl⟩
    | err e => cases e <;> first | exact ⟨Or.inl rfl, rfl⟩ | exact ⟨Or.inr rfl, rfl⟩
    | fault => exact ⟨Or.inl rfl, rfl⟩

end TransferLoop

end Rusbmux
