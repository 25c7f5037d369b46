import Rusbmux.WriterTransfers

/-! The writer loop comes to rest by itself, with all that was put on its channel
decoded by the device. -/
namespace Rusbmux

namespace WriterLoop

/-- The steps of the loop up to its next `rx.recv()`. -/
def Phase.rank : Phase → ℕ
  | .recv | .panicked => 0
  | .payload [] => 1
  | .payload (_ :: _) => 2
  | .header [] _ => 3
  | .header (_ :: _) _ => 4
  | .numbered _ _ => 5
  | .dequeued _ => 6

/-- A bound on the steps of the loop until it has nothing to do. -/
def work (s : WriterLoop) : ℕ := s.wTx.length*7+s.phase.rank

theorem Phase.rank_le (p : Phase) : p.rank ≤ 6 := by
  unfold rank
  split <;> omega

theorem rank_header (remaining : Bytes) (p : UsbDevicePacket) :
    (Phase.header remaining p).rank ≤ 4 := by
  cases remaining <;> exact Nat.le_of_ble_eq_true rfl

theorem rank_payload (remaining : Bytes) : (Phase.payload remaining).rank ≤ 2 := by
  cases remaining <;> exact Nat.le_of_ble_eq_true rfl

variable {wire : TcpWire} {toWriterXml : PlistValue → Bytes} {s t : WriterLoop}

theorem work_writeHeaders (wire : TcpWire) (s : WriterLoop) (p : UsbDevicePacket) :
    (writeHeaders wire s p).work ≤ s.wTx.length*7+4 := by
  unfold writeHeaders
  split
  · exact Nat.add_le_add_left (rank_header _ _) _
  · exact Nat.add_le_add_left (Nat.zero_le 4) _

theorem work_recv (h : s.step wire toWriterXml .recv = some t) : t.work < s.work := by
  simp only [step] at h
  split at h
  next packet rest hp hq =>
    have hwork : s.work = (rest.length+1)*7 := by
      rw [work, hq, hp]
      rfl
    split at h
    next =>
      cases h
      have hle := work_writeHeaders wire { s with
        wTx := rest
        dequeued := s.dequeued ++ [packet]
        loaded := s.loaded ++ [(packet, s.accepted)] } packet
      dsimp only at hle
      omega
    next =>
      cases h
      rw [hwork]
      change rest.length*7+6 < (rest.length+1)*7
      omega
  next => cases h

theorem work_takeSendSeq (h : s.step wire toWriterXml .takeSendSeq = some t) :
    t.work < s.work := by
  simp only [step] at h
  split at h
  next packet hp =>
    cases h
    rw [work, work, hp]
    exact Nat.lt_succ_self _
  next => cases h

theorem work_getRecvSeq (h : s.step wire toWriterXml .getRecvSeq = some t) :
    t.work < s.work := by
  simp only [step] at h
  split at h
  next packet sendSeq hp =>
    cases h
    have hle := work_writeHeaders wire { s with
      loaded := s.loaded ++ [(packet, s.accepted)] } (packet.patch sendSeq s.recvSeq)
    have hwork : s.work = s.wTx.length*7+5 := by
      rw [work, hp]
      rfl
    dsimp only at hle
    omega
  next => cases h

theorem work_headerDone (h : s.step wire toWriterXml .headerDone = some t) : t.work < s.work := by
  simp only [step] at h
  split at h
  next packet hp =>
    cases h
    have hrank := rank_payload packet.payload.encode
    rw [work, work, hp, Phase.rank]
    exact Nat.add_lt_add_left (Nat.lt_succ_of_le hrank) _
  next => cases h

theorem work_submitEnd (h : s.step wire toWriterXml .submitEnd = some t) : t.work < s.work := by
  obtain ⟨hp, rfl⟩ := submitEnd_step h
  rw [work, work, hp]
  exact Nat.lt_succ_self _

/-- `write_all` writes all that it has. -/
theorem work_writeAll {loop : WriterLoop} {s : WriterTransfers}
    (h : s.loop.step wire toWriterXml (.write s.remaining.length) = some loop) :
    loop.work < s.loop.work := by
  obtain ⟨hne, phase, rfl, ⟨packet, hp, rfl⟩ | ⟨hp, rfl⟩⟩ := writeAll_step h
  all_goals
    obtain ⟨b, rest, hremaining⟩ := List.exists_cons_of_ne_nil hne
    rw [work, work, hp, hremaining]
    exact Nat.lt_succ_self _

end WriterLoop

namespace WriterTransfers

variable {wire : TcpWire} {toWriterXml : PlistValue → Bytes} {m c : ℕ} {before : List Bytes}
  {s t : WriterTransfers}

/-- The actions of the loop itself, when no transfer fails. -/
def Own : Action → Prop
  | .recv | .takeSendSeq | .getRecvSeq | .poll _ | .headerDone => True
  | .submitEnd flush zlp => flush = .ok () ∧ zlp = .ok ()
  | .produce _ | .accept | .complete _ => False

instance : DecidablePred Own
  | .recv | .takeSendSeq | .getRecvSeq | .poll _ | .headerDone => .isTrue trivial
  | .submitEnd flush zlp => inferInstanceAs (Decidable (flush = .ok () ∧ zlp = .ok ()))
  | .produce _ | .accept | .complete _ => .isFalse id

theorem Own.answered {action : Action} (h : Own action) : Answered toWriterXml action := by
  cases action with
  | produce b => exact absurd h id
  | submitEnd flush zlp => exact h
  | accept | recv | takeSendSeq | getRecvSeq | poll submit | headerDone | complete value =>
    trivial

theorem Own.produced_eq {action : Action} (h : Own action) : produced toWriterXml action = [] := by
  cases action with
  | produce b => exact absurd h id
  | accept | recv | takeSendSeq | getRecvSeq | poll submit | headerDone | submitEnd flush zlp
  | complete value => rfl

theorem Carries.work_lt (hw : wire.Lawful) (h : s.Carries wire toWriterXml m c before)
    {action : Action} (ha : Own action) (hst : s.step wire toWriterXml action = some t) :
    t.loop.work < s.loop.work := by
  cases action with
  | produce b | accept | complete value => exact absurd ha id
  | recv =>
    obtain ⟨loop, hloop, rfl⟩ := Option.map_eq_some_iff.mp hst
    exact WriterLoop.work_recv hloop
  | takeSendSeq =>
    obtain ⟨loop, hloop, rfl⟩ := Option.map_eq_some_iff.mp hst
    exact WriterLoop.work_takeSendSeq hloop
  | getRecvSeq =>
    obtain ⟨loop, hloop, rfl⟩ := Option.map_eq_some_iff.mp hst
    exact WriterLoop.work_getRecvSeq hloop
  | headerDone =>
    obtain ⟨loop, hloop, rfl⟩ := Option.map_eq_some_iff.mp hst
    exact WriterLoop.work_headerDone hloop
  | submitEnd flush zlp =>
    obtain ⟨loop, hloop, rfl⟩ := Option.map_eq_some_iff.mp hst
    exact WriterLoop.work_submitEnd hloop
  | poll submit =>
    simp only [WriterTransfers.step] at hst
    split_ifs at hst with hr
    have hlt := h.remaining hw hr
    rw [← h.buffer] at hlt
    rw [RusbAsyncWriter.pollWrite_of_below h.pending hr hlt] at hst
    obtain ⟨loop, hloop, rfl⟩ := Option.map_eq_some_iff.mp hst
    exact WriterLoop.work_writeAll hloop

/-- A poll of a `write_all` that has bytes left goes through. -/
theorem Carries.exists_poll (hw : wire.Lawful) (h : s.Carries wire toWriterXml m c before)
    {b : UInt8} {rest : Bytes}
    (hp : s.loop.phase = .payload (b :: rest) ∨ ∃ p, s.loop.phase = .header (b :: rest) p) :
    ∃ t, s.step wire toWriterXml (.poll (.ok ())) = some t := by
  have hremaining : s.remaining = b :: rest := by
    unfold WriterTransfers.remaining
    rcases hp with hp | ⟨p, hp⟩ <;> rw [hp]
  have hne : s.remaining ≠ [] := hremaining ▸ List.cons_ne_nil b rest
  have hlt := h.remaining hw hne
  rw [← h.buffer] at hlt
  have hpos : 0 < s.remaining.length ∧ s.remaining.length ≤ (b :: rest).length := by
    rw [hremaining]
    exact ⟨Nat.succ_pos _, Nat.le_refl _⟩
  simp only [WriterTransfers.step, if_neg hne, RusbAsyncWriter.pollWrite_of_below h.pending hne hlt]
  rcases hp with hp | ⟨p, hp⟩
  all_goals
    simp only [WriterLoop.step, hp, if_pos hpos]
    exact ⟨_, rfl⟩

/-- The loop goes on, unless it waits for a packet and there is none. -/
theorem Carries.exists_own (hw : wire.Lawful) (h : s.Carries wire toWriterXml m c before)
    (hrest : s.loop.phase ≠ .recv ∨ s.loop.wTx ≠ []) :
    ∃ a, Own a ∧ ∃ t, s.step wire toWriterXml a = some t := by
  have hrunning := h.sound.refines.running
  have hinner {action : WriterLoop.Action} {loop : WriterLoop}
      (hloop : s.loop.step wire toWriterXml action = some loop) :
      ∃ t, s.inner wire toWriterXml action = some t :=
    ⟨_, Option.map_eq_some_iff.mpr ⟨loop, hloop, rfl⟩⟩
  cases hp : s.loop.phase with
  | recv =>
    obtain ⟨packet, rest, hq⟩ := List.exists_cons_of_ne_nil (hrest.resolve_left fun hn => hn hp)
    refine ⟨.recv, trivial, ?_⟩
    cases hh : packet.header
    all_goals exact hinner (by simp only [WriterLoop.step, hp, hq, hh]; rfl)
  | dequeued packet =>
    exact ⟨.takeSendSeq, trivial, hinner (by simp only [WriterLoop.step, hp]; rfl)⟩
  | numbered packet sendSeq =>
    exact ⟨.getRecvSeq, trivial, hinner (by simp only [WriterLoop.step, hp]; rfl)⟩
  | header remaining packet =>
    cases remaining with
    | nil => exact ⟨.headerDone, trivial, hinner (by simp only [WriterLoop.step, hp]; rfl)⟩
    | cons b rest => exact ⟨.poll (.ok ()), trivial, h.exists_poll hw (Or.inr ⟨packet, hp⟩)⟩
  | payload remaining =>
    cases remaining with
    | nil =>
      refine ⟨.submitEnd (.ok ()) (.ok ()), ⟨rfl, rfl⟩, ?_⟩
      simp only [WriterTransfers.step, WriterLoop.step, hp]
      exact ⟨_, rfl⟩
    | cons b rest => exact ⟨.poll (.ok ()), trivial, h.exists_poll hw (Or.inl hp)⟩
  | panicked => exact absurd hp hrunning

/-- All that was put on the channel in a run is still there or has come off it. -/
theorem packets_of_after {as : List Action} (hs : StepSystem.after (step wire toWriterXml) s as =
    some t) : t.loop.dequeued ++ t.loop.wTx =
      s.loop.dequeued ++ s.loop.wTx ++ as.flatMap (produced toWriterXml) := by
  induction as generalizing s with
  | nil =>
    cases hs
    exact (List.append_nil _).symm
  | cons a as ih =>
    obtain ⟨u, hu, hut⟩ := Option.bind_eq_some_iff.mp hs
    rw [ih hut, packets_of_step hu, List.flatMap_cons, List.append_assoc]

/-- From every state of a run in which the packets stay below the writer's
threshold and no transfer fails, the loop comes to rest by itself: what it does
next has no more than seven steps for each packet that waits, and six for the one
at hand, and when it has no step left the device has decoded every packet that was
put on the channel, in their order and numbered without a gap. -/
theorem writer_comes_to_rest (hw : wire.Lawful) {maxPacketSize : UInt16}
    (hm : 0 < maxPacketSize.toNat) {as bs : List Action}
    (ha : StepSystem.EveryStep (step wire toWriterXml) (fun _ a => Answered toWriterXml a)
      (start (.new maxPacketSize)) as)
    (hs : StepSystem.after (step wire toWriterXml) (start (.new maxPacketSize)) as = some s)
    (hb : ∀ b ∈ bs, Own b) (ht : StepSystem.after (step wire toWriterXml) s bs = some t) :
    bs.length ≤ s.loop.wTx.length*7+6 ∧
      ((∃ a, Own a ∧ ∃ u, t.step wire toWriterXml a = some u) ∨
        t.loop.loaded.map Prod.fst = as.flatMap (produced toWriterXml) ∧
        t.received.2 = [] ∧
        t.decoded wire = (WriterLoop.outgoing 1 t.loop.loaded).map fun p => (.ok p, [])) := by
  have hrun : StepSystem.EveryState (step wire toWriterXml)
      (Carries wire toWriterXml maxPacketSize.toNat 0 []) (start (.new maxPacketSize)) as :=
    StepSystem.everyState_of_everyStep
      (fun _ _ _ h ha hst => (h.step hw (Nat.two_pow_pos 32) ha hst).1) (carries_start rfl rfl) ha
  obtain ⟨hcarries, hlength⟩ := StepSystem.length_le_of_variant (fun s => s.loop.work)
    (fun u a v h ha hst =>
      ⟨(h.step hw (Nat.two_pow_pos 32) ha.answered hst).1, h.work_lt hw ha hst⟩)
    (hrun.last hs) hb ht
  refine ⟨?_, ?_⟩
  · have hrank := s.loop.phase.rank_le
    simp only [WriterLoop.work] at hlength
    omega
  by_cases hrest : t.loop.phase ≠ .recv ∨ t.loop.wTx ≠ []
  · exact Or.inl (hcarries.exists_own hw hrest)
  obtain ⟨hphase, hempty⟩ := not_or.mp hrest
  rw [not_not] at hphase hempty
  have hdelivers : Delivers wire [] t :=
    hcarries.delivers hw (fun _ hp => by cases hp) (hcarries.received_new hm)
  obtain ⟨hloaded, hdecoded⟩ := hdelivers.complete hphase
  refine Or.inr ⟨?_, hdelivers.whole, hdecoded⟩
  have hown : bs.flatMap (produced toWriterXml) = [] := by
    apply List.flatMap_eq_nil_iff.mpr
    exact fun b hmem => (hb b hmem).produced_eq
  have hall := packets_of_after ht
  rw [packets_of_after hs, hempty, hown, List.append_nil, List.append_nil] at hall
  rw [hloaded, hall]
  rfl

/-- A packet that waits on the channel, and the loop left to itself. -/
theorem writer_comes_to_rest_one : ∃ s t,
    StepSystem.after (step tcpWire writeXml) (start (.new 64))
      [.produce (.setup 0 0 [7]), .accept] = some s ∧
    StepSystem.after (step tcpWire writeXml) s
      [.recv, .takeSendSeq, .getRecvSeq, .poll (.ok ()), .headerDone, .poll (.ok ()),
        .submitEnd (.ok ()) (.ok ())] = some t ∧
    7 ≤ s.loop.wTx.length*7+6 ∧
      ((∃ a, Own a ∧ ∃ u, t.step tcpWire writeXml a = some u) ∨
        t.loop.loaded.map Prod.fst = [UsbDevicePacketBuilder.build writeXml (.setup 0 0 [7])] ∧
        t.received.2 = [] ∧
        t.decoded tcpWire = (WriterLoop.outgoing 1 t.loop.loaded).map fun p => (.ok p, [])) := by
  have hsome : (StepSystem.after (step tcpWire writeXml) (start (.new 64))
      ([.produce (.setup 0 0 [7]), .accept] ++ [.recv, .takeSendSeq, .getRecvSeq, .poll (.ok ()),
        .headerDone, .poll (.ok ()), .submitEnd (.ok ()) (.ok ())])).isSome := by decide
  obtain ⟨t, ht⟩ := Option.isSome_iff_exists.mp hsome
  rw [StepSystem.after_append] at ht
  obtain ⟨s, hs, ht⟩ := Option.bind_eq_some_iff.mp ht
  exact ⟨s, t, hs, ht, writer_comes_to_rest tcpWire_lawful (by decide) (by decide) hs
    (by decide) ht⟩

end WriterTransfers

end Rusbmux
