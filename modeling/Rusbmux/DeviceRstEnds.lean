import Rusbmux.DeviceRst

/-! When an RST of the device ends a connection. -/
namespace Rusbmux

namespace DeviceRst

open RouterLock (isRst routePort ByOwner ByReader Running Unrouted)
open PortRouting (queued)

-- the shard that a port is hashed to
variable (shard : UInt16 → ℕ)

section

variable {shard} {s t : DeviceRst} {q j : ℕ} {link : ConnLink} {u : Turn} {r : RouterLock}

theorem writing_of_hasRoom (h : s.hasRoom = true) : s.writing = true :=
  ((Bool.and_eq_true_iff).mp h).1

theorem new_of_tcpHdr (sourcePort destinationPort : UInt16) {packet : UsbDevicePacket}
    {hdr : TcpHeader} (h : packet.tcpHdr = some hdr) : ∃ tcpAck conn,
      UsbDeviceConn.new sourcePort destinationPort packet = .ok (tcpAck, conn) := by
  unfold UsbDeviceConn.new
  rw [h]
  exact ⟨_, _, rfl⟩

/-- A step that neither sends data nor accepts the client, and refuses it if it
ends the handshake. -/
structure Silent (s : DeviceRst) (q : ℕ) (link : ConnLink) (u : Turn) : Prop where
  doomed : (s.put q u).Doomed q u.link
  sends : ∀ packet ∈ u.sends, packet.payload.len = 0
  tells : ∀ code ∈ u.tells, code = .connectionRefused
  answers : link.BeingOpened → u.link.BeingOpened ∨ .connectionRefused ∈ u.tells

theorem Move.silent (h : Move shard s q link u) (hd : s.Doomed q link) : Silent s q link u := by
  cases h with
  | syn =>
    exact ⟨hd, List.forall_mem_singleton.mpr rfl, List.forall_mem_nil _, fun _ => .inl trivial⟩
  | synAck sourcePort destinationPort tcpSynAck tcpAck rest conn r hqueue hrecv hnew =>
    refine ⟨?_, List.forall_mem_nil _, List.forall_mem_nil _, fun _ => .inl trivial⟩
    -- with the writer loop running there is no reply in the queue
    change s.writing = false
    apply (Bool.not_eq_true _).mp
    intro hwriting
    have hhead : (queued s.router q).head? = some tcpSynAck := by
      rw [hqueue]
      rfl
    have hnone : tcpSynAck.tcpHdr = none := hd hwriting tcpSynAck hhead
    unfold UsbDeviceConn.new at hnew
    rw [hnone] at hnew
    cases hnew
  | ackSent conn tcpAck hroom =>
    have hwriting := writing_of_hasRoom hroom
    rw [show s.writing = false from hd] at hwriting
    cases hwriting
  | refused link r r' hopened =>
    exact ⟨trivial, List.forall_mem_nil _, List.forall_mem_singleton.mpr rfl,
      fun _ => .inr (List.mem_singleton.mpr rfl)⟩
  | recv conn response rest r hqueue hrecv =>
    obtain ⟨packet, hfirst⟩ := RouterLock.queued_recv hrecv
    rw [hqueue] at hfirst
    cases hfirst
    refine ⟨?_, List.forall_mem_singleton.mpr rfl, List.forall_mem_nil _, False.elim⟩
    intro (hwriting : s.writing = true) n
    have hn := hd hwriting (n+1)
    rw [hqueue] at hn
    exact hn
  | clientPacket conn value hne hfits hroom =>
    have hnothing : conn.sendableBytes = 0 := hd (writing_of_hasRoom hroom) 0
    refine absurd ?_ hne
    apply List.length_eq_zero_iff.mp
    omega
  | sendRst conn =>
    exact ⟨hd, List.forall_mem_singleton.mpr rfl, List.forall_mem_nil _, False.elim⟩
  | close conn =>
    exact ⟨trivial, List.forall_mem_singleton.mpr rfl, List.forall_mem_nil _, False.elim⟩
  | unregister => exact ⟨trivial, List.forall_mem_nil _, List.forall_mem_nil _, False.elim⟩
  | freeReceiver link r hover =>
    exact ⟨trivial, List.forall_mem_nil _, List.forall_mem_nil _, fun h => absurd h hover⟩

theorem dataSent_put (s : DeviceRst) (q j : ℕ) (u : Turn) :
    (s.put j u).dataSent q = s.dataSent q ++
      if j = q then u.sends.filter fun packet => 0 < packet.payload.len else [] := by
  unfold dataSent DeviceRst.put
  rw [List.filter_append, List.map_append]
  congr 1
  rw [List.filter_map, List.map_map]
  by_cases hj : j = q
  · rw [if_pos hj]
    simp [Function.comp_def, hj]
  · rw [if_neg hj]
    simp [Function.comp_def, hj]

/-- A queue with the same packets, whose connection is as it was. -/
theorem Doomed.congr (hd : s.Doomed q link) (hqueue : queued t.router q = queued s.router q)
    (hwriting : t.writing = true → s.writing = true) : t.Doomed q link := by
  cases link with
  | connecting | opening | opened =>
    intro h
    rw [hqueue]
    exact hd (hwriting h)
  | acking =>
    apply (Bool.not_eq_true _).mp
    intro h
    have hw := hwriting h
    rw [show s.writing = false from hd] at hw
    cases hw
  | ended => trivial

/-- The connection is doomed, and since `s` it has sent no data and its client
was told nothing but the refusal. -/
structure Quiet (s : DeviceRst) (q : ℕ) (t : DeviceRst) : Prop where
  unrouted : Unrouted t.router q
  doomed : ∃ link, t.links.get q = some link ∧ t.Doomed q link
  data : t.dataSent q = s.dataSent q
  told : ∀ code, (q, code) ∈ t.told → (q, code) ∈ s.told ∨ code = .connectionRefused
  answers : ∀ link, s.links.get q = some link → link.BeingOpened →
    (∃ link', t.links.get q = some link' ∧ link'.BeingOpened) ∨ Refuses q t

/-- A step that leaves the connection and its queue alone. -/
theorem Quiet.congr {t' : DeviceRst} (h : Quiet s q t) (hun : Unrouted t'.router q)
    (hqueue : queued t'.router q = queued t.router q)
    (hlink : t'.links.get q = t.links.get q) (hwriting : t'.writing = true → t.writing = true)
    (hsent : t'.sent = t.sent) (htold : t'.told = t.told) : Quiet s q t' := by
  obtain ⟨link, hq, hd⟩ := h.doomed
  refine ⟨hun, ⟨link, hlink.trans hq, hd.congr hqueue hwriting⟩, ?_, ?_, ?_⟩
  · unfold dataSent
    rw [hsent]
    exact h.data
  · rw [htold]
    exact h.told
  · unfold Refuses
    rw [hlink, htold]
    exact h.answers

theorem Quiet.register {t' : DeviceRst} {port : UInt16} (h : Quiet s q t) (ht : Inv t)
    (hst : t.register shard port link = some t') : Quiet s q t' := by
  obtain ⟨r, hr, rfl⟩ := Option.map_eq_some_iff.mp hst
  have hreg := RouterLock.registers_of_step ht.linked hr
  have hqueue : queued r q = queued t.router q := by
    unfold queued
    rw [hreg.other q h.unrouted.old]
  have hne : q ≠ t.router.nextQueue := Nat.ne_of_lt h.unrouted.old
  exact h.congr (hreg.unrouted q h.unrouted) hqueue (KeyTable.get_insert_of_ne _ _ hne) id rfl rfl

theorem Quiet.put (h : Quiet s q t) (ht : Inv t) (hj : t.links.get j = some link)
    {a : ConnAction} (hu : turn shard t j link a = some u) : Quiet s q (t.put j u) := by
  have hspec := (move_of_turn hu).spec ht hj
  have hun : Unrouted u.router q := hspec.router.unrouted h.unrouted
  by_cases hjq : j = q
  · subst hjq
    -- the connection itself: it sends no data and tells its client only the refusal
    obtain ⟨l, hl, hd⟩ := h.doomed
    cases hj.symm.trans hl
    have hsilent := (move_of_turn hu).silent hd
    have hnow : (t.put j u).links.get j = some u.link := KeyTable.get_insert_self _ _ _
    refine ⟨hun, ⟨u.link, hnow, hsilent.doomed⟩, ?_, ?_, fun l hl hopened => ?_⟩
    · have hnone : u.sends.filter (fun packet => 0 < packet.payload.len) = [] := by
        apply List.filter_eq_nil_iff.mpr
        intro packet hp
        rw [hsilent.sends packet hp]
        decide
      rw [dataSent_put, if_pos rfl, hnone, List.append_nil]
      exact h.data
    · intro code hcode
      rcases List.mem_append.mp hcode with hcode | hcode
      · exact h.told code hcode
      · obtain ⟨code', hmem, he⟩ := List.mem_map.mp hcode
        cases he
        exact .inr (hsilent.tells code hmem)
    · rcases h.answers l hl hopened with ⟨l', hl', hopened'⟩ | hrefused
      · cases hj.symm.trans hl'
        rcases hsilent.answers hopened' with hstill | htells
        · exact .inl ⟨u.link, hnow, hstill⟩
        · exact .inr (List.mem_append_right _ (List.mem_map.mpr ⟨_, htells, rfl⟩))
      · exact .inr (List.mem_append_left _ hrefused)
  · -- another connection shares nothing with it but the router
    have hne : q ≠ j := fun he => hjq he.symm
    obtain ⟨l, hl, hd⟩ := h.doomed
    have hsame : (t.put j u).links.get q = t.links.get q := KeyTable.get_insert_of_ne _ _ hne
    refine ⟨hun, ⟨l, hsame.trans hl, ?_⟩, ?_, ?_, fun l hl hopened => ?_⟩
    · exact hd.congr (hspec.router.queued hne) id
    · rw [dataSent_put, if_neg hjq, List.append_nil]
      exact h.data
    · intro code hcode
      rcases List.mem_append.mp hcode with hcode | hcode
      · exact h.told code hcode
      · obtain ⟨code', -, he⟩ := List.mem_map.mp hcode
        cases he
        exact absurd rfl hjq
    · rw [hsame]
      exact (h.answers l hl hopened).imp_right (List.mem_append_left _)

theorem Quiet.step {t' : DeviceRst} {a : Action} (h : Quiet s q t) (ht : Inv t)
    (hst : t.step shard a = some t') : Quiet s q t' := by
  cases a with
  | packetArrives packet =>
    obtain ⟨r, hr, rfl⟩ := Option.map_eq_some_iff.mp hst
    obtain ⟨hun, hqueue⟩ := (RouterLock.byReader_packetArrives ht.linked hr).unrouted q h.unrouted
    exact h.congr hun hqueue rfl id rfl rfl
  | pollSend =>
    obtain ⟨r, hr, rfl⟩ := Option.map_eq_some_iff.mp hst
    obtain ⟨hun, hqueue⟩ := (RouterLock.byReader_pollSend ht.linked hr).unrouted q h.unrouted
    exact h.congr hun hqueue rfl id rfl rfl
  | connect destinationPort =>
    -- the counter goes on in either case
    have ht' : Inv { t with nextSourcePort := t.nextSourcePort+1 } := ht.congr rfl rfl rfl
    have h' : Quiet s q { t with nextSourcePort := t.nextSourcePort+1 } :=
      h.congr h.unrouted rfl rfl id rfl rfl
    simp only [DeviceRst.step] at hst
    split_ifs at hst
    · cases hst
      exact h'
    · exact h'.register ht' hst
  | connectFrom => exact h.register ht hst
  | conn j a =>
    obtain ⟨link, hj, hst⟩ := Option.bind_eq_some_iff.mp hst
    obtain ⟨u, hu, rfl⟩ := Option.map_eq_some_iff.mp hst
    exact h.put ht hj hu
  | unregister port =>
    simp only [DeviceRst.step] at hst
    split_ifs at hst
    cases hst
    exact h.congr (h.unrouted.conns (RouterLock.unregister_less _ port)) rfl rfl id rfl rfl
  | clear =>
    simp only [DeviceRst.step] at hst
    split at hst <;> cases hst
    -- the table without entries routes nothing
    have hless (port : UInt16) (j : ℕ) (hj : (KeyTable.empty : PacketRouter).get port = some j) :
        t.router.conns.get port = some j := by cases hj
    exact h.congr (h.unrouted.conns hless) rfl rfl id rfl rfl
  | writerTakes =>
    simp only [DeviceRst.step] at hst
    split_ifs at hst
    cases hst
    exact h.congr h.unrouted rfl rfl id rfl rfl
  | stopWriter =>
    cases hst
    exact h.congr h.unrouted rfl rfl (fun hw => absurd hw Bool.false_ne_true) rfl rfl

/-- The writer loop takes everything off the channel. -/
theorem drains (shard : UInt16 → ℕ) (s : DeviceRst) (hw : s.writing = true) :
    ∃ as, StepSystem.after (DeviceRst.step shard) s as = some { s with wTx := [] } := by
  obtain ⟨packets, hpackets⟩ : ∃ packets, packets = s.wTx := ⟨_, rfl⟩
  induction packets generalizing s with
  | nil =>
    refine ⟨[], ?_⟩
    rw [hpackets]
    rfl
  | cons packet rest ih =>
    obtain ⟨as, has⟩ := ih { s with wTx := rest } hw rfl
    have htakes : s.step shard .writerTakes = some { s with wTx := rest } := by
      unfold DeviceRst.step
      rw [hw, ← hpackets]
      rfl
    refine ⟨.writerTakes :: as, ?_⟩
    rw [StepSystem.after, htakes]
    exact has

theorem canReach_of_turn {Q : DeviceRst → Prop} {a : ConnAction}
    (hq : s.links.get q = some link) (hu : turn shard s q link a = some u)
    (h : StepSystem.CanReach (DeviceRst.step shard) Q (s.put q u)) :
    StepSystem.CanReach (DeviceRst.step shard) Q s := by
  refine .of_step (a := .conn q a) ?_ h
  refine Option.bind_eq_some_iff.mpr ⟨link, hq, ?_⟩
  rw [hu]
  rfl

/-- What an owner does next, once there is room for its packets. -/
theorem canReach_turn {Q : DeviceRst → Prop} {a : ConnAction} (hw : s.writing = true)
    (hq : s.links.get q = some link) (hu : turn shard { s with wTx := [] } q link a = some u)
    (h : StepSystem.CanReach (DeviceRst.step shard) Q
      (({ s with wTx := [] } : DeviceRst).put q u)) :
    StepSystem.CanReach (DeviceRst.step shard) Q s := by
  obtain ⟨as, has⟩ := drains shard s hw
  exact .of_after has (canReach_of_turn hq hu h)

theorem hasRoom_drained (hw : s.writing = true) :
    ({ s with wTx := [] } : DeviceRst).hasRoom = true :=
  Bool.and_eq_true_iff.mpr ⟨hw, rfl⟩

theorem Inv.turn {a : ConnAction} (hs : Inv s) (hq : s.links.get q = some link)
    (hu : turn shard { s with wTx := [] } q link a = some u) :
    Inv (({ s with wTx := [] } : DeviceRst).put q u) :=
  have hdrained : Inv { s with wTx := [] } := hs.congr rfl rfl rfl
  hdrained.put hq ((move_of_turn hu).spec hdrained hq)

/-- Data that the window has room for is sent. -/
theorem canReach_data {conn : UsbDeviceConn} (hw : s.writing = true)
    (hq : s.links.get q = some (.opened conn)) (hroom : conn.sendableBytes ≠ 0) :
    StepSystem.CanReach (DeviceRst.step shard) (fun t => t.dataSent q ≠ s.dataSent q) s := by
  have hu : turn shard { s with wTx := [] } q (.opened conn) (.clientPacket [0]) =
      some ⟨s.router, .opened (conn.packetSent (conn.bytesPacket [0])), [conn.bytesPacket [0]],
        []⟩ := if_pos ⟨nofun, Nat.one_le_iff_ne_zero.mpr hroom, hasRoom_drained hw⟩
  refine canReach_turn hw hq hu (.now ?_)
  rw [dataSent_put, if_pos rfl]
  intro hsame
  exact List.cons_ne_nil _ _ (List.append_right_eq_self.mp hsame)

/-- The relay receives what is in its queue and then sends. -/
theorem canReach_data_of_recvAll {conn : UsbDeviceConn} (n : ℕ) (hs : Inv s)
    (hw : s.writing = true) (hq : s.links.get q = some (.opened conn))
    (hroom : (conn.recvAll ((queued s.router q).take n)).1.sendableBytes ≠ 0) :
    StepSystem.CanReach (DeviceRst.step shard) (fun t => t.dataSent q ≠ s.dataSent q) s := by
  induction n generalizing s conn with
  | zero => exact canReach_data hw hq hroom
  | succ n ih =>
    cases hqueue : queued s.router q with
    | nil =>
      rw [hqueue] at hroom
      exact canReach_data hw hq hroom
    | cons response rest =>
      obtain ⟨r, hr, hrest⟩ :=
        RouterLock.recv_enabled shard (hs.running q _ hq nofun) hqueue
      have hu : turn shard { s with wTx := [] } q (.opened conn) .recv =
          some ⟨r, .opened (conn.recv response).1, [(conn.recv response).2], []⟩ := by
        simp only [DeviceRst.turn, hqueue, hasRoom_drained hw, if_true, hr, Option.map_some]
      refine canReach_turn hw hq hu ?_
      have hsame : (({ s with wTx := [] } : DeviceRst).put q ⟨r, .opened (conn.recv response).1,
          [(conn.recv response).2], []⟩).dataSent q = s.dataSent q := by
        rw [dataSent_put, if_pos rfl]
        exact List.append_nil _
      have hnext : ((conn.recv response).1.recvAll ((queued r q).take n)).1.sendableBytes ≠ 0 := by
        rw [hqueue] at hroom
        rw [hrest]
        exact hroom
      have hreach := ih (hs.turn hq hu) hw (KeyTable.get_insert_self _ _ _) hnext
      rw [hsame] at hreach
      exact hreach

theorem canReach_accepts_of_acking {conn : UsbDeviceConn} {tcpAck : UsbDevicePacket}
    (hw : s.writing = true) (hq : s.links.get q = some (.acking conn tcpAck)) :
    StepSystem.CanReach (DeviceRst.step shard) (Accepts q) s := by
  have hu : turn shard { s with wTx := [] } q (.acking conn tcpAck) .ackSent =
      some ⟨s.router, .opened conn, [tcpAck], [.ok]⟩ := if_pos (hasRoom_drained hw)
  refine canReach_turn hw hq hu (.now ?_)
  exact List.mem_append_right _ (List.mem_singleton.mpr rfl)

theorem canReach_accepts_of_opening {sourcePort destinationPort : UInt16}
    {packet : UsbDevicePacket} {hdr : TcpHeader} (hs : Inv s) (hw : s.writing = true)
    (hq : s.links.get q = some (.opening sourcePort destinationPort))
    (hhead : (queued s.router q).head? = some packet) (hhdr : packet.tcpHdr = some hdr) :
    StepSystem.CanReach (DeviceRst.step shard) (Accepts q) s := by
  obtain ⟨rest, hqueue⟩ := List.head?_eq_some_iff.mp hhead
  obtain ⟨r, hr, -⟩ := RouterLock.recv_enabled shard (hs.running q _ hq nofun) hqueue
  obtain ⟨tcpAck, conn, hnew⟩ := new_of_tcpHdr sourcePort destinationPort hhdr
  have hu : turn shard { s with wTx := [] } q (.opening sourcePort destinationPort) .synAck =
      some ⟨r, .acking conn tcpAck, [], []⟩ := by
    simp only [DeviceRst.turn, hqueue, hr, Option.bind_some, hnew]
  refine canReach_turn hw hq hu ?_
  exact canReach_accepts_of_acking hw (KeyTable.get_insert_self _ _ _)

theorem canReach_accepts_of_connecting {sourcePort destinationPort : UInt16}
    {packet : UsbDevicePacket} {hdr : TcpHeader} (hs : Inv s) (hw : s.writing = true)
    (hq : s.links.get q = some (.connecting sourcePort destinationPort))
    (hhead : (queued s.router q).head? = some packet) (hhdr : packet.tcpHdr = some hdr) :
    StepSystem.CanReach (DeviceRst.step shard) (Accepts q) s := by
  have hu : turn shard { s with wTx := [] } q (.connecting sourcePort destinationPort) .syn =
      some ⟨s.router, .opening sourcePort destinationPort,
        [UsbDeviceConn.tcpSyn sourcePort destinationPort], []⟩ := if_pos (hasRoom_drained hw)
  refine canReach_turn hw hq hu ?_
  exact canReach_accepts_of_opening (hs.turn hq hu) hw (KeyTable.get_insert_self _ _ _) hhead hhdr

theorem Ended.not_canReach_data (h : Ended shard s q) :
    ¬ StepSystem.CanReach (DeviceRst.step shard) (fun t => t.dataSent q ≠ s.dataSent q) s := by
  rintro ⟨as, t, ht, hne⟩
  exact hne (h.silent as t ht)

theorem Ended.not_canReach_accepts (h : Ended shard s q) (hq : s.links.get q = some link)
    (hopened : link.BeingOpened) :
    ¬ StepSystem.CanReach (DeviceRst.step shard) (Accepts q) s := by
  rintro ⟨as, t, ht, hok⟩
  cases (h.refused link hq hopened as t ht).1 .ok hok

/-- A connection that may still come to something is not at an end. -/
theorem doomed_of_ended (hs : Inv s) (hq : s.links.get q = some link) (h : Ended shard s q) :
    s.Doomed q link := by
  cases link with
  | connecting sourcePort destinationPort =>
    intro hw packet hhead
    cases hhdr : packet.tcpHdr with
    | none => rfl
    | some hdr =>
      exact absurd (canReach_accepts_of_connecting hs hw hq hhead hhdr)
        (h.not_canReach_accepts hq trivial)
  | opening sourcePort destinationPort =>
    intro hw packet hhead
    cases hhdr : packet.tcpHdr with
    | none => rfl
    | some hdr =>
      exact absurd (canReach_accepts_of_opening hs hw hq hhead hhdr)
        (h.not_canReach_accepts hq trivial)
  | acking conn tcpAck =>
    apply (Bool.not_eq_true _).mp
    intro hw
    exact h.not_canReach_accepts hq trivial (canReach_accepts_of_acking hw hq)
  | opened conn =>
    intro hw n
    by_contra hroom
    exact h.not_canReach_data (canReach_data_of_recvAll n hs hw hq hroom)
  | ended => trivial

/-- An owner that nobody interferes with may drop its receiver. -/
theorem refuse_enabled (shard : UInt16 → ℕ) (hr : Running r q) (e : RusbmuxError) :
    ∃ r', refuse shard r q e = some ⟨r', .ended, [], [connectErrorCode e]⟩ := by
  obtain ⟨⟨port, packets, phase⟩, hc, rfl⟩ := hr
  refine ⟨r.setOwner q ⟨port, packets, .gone⟩, ?_⟩
  simp only [refuse, RouterLock.step, hc, Option.map_some]

theorem refuses_put {e : RusbmuxError} (he : connectErrorCode e = .connectionRefused)
    (s : DeviceRst) (r : RouterLock) :
    Refuses q (s.put q ⟨r, .ended, [], [connectErrorCode e]⟩) :=
  List.mem_append_right _ (List.mem_singleton.mpr (congrArg (Prod.mk q) he.symm))

/-- Without the writer loop the handshake fails at its next send. -/
theorem canReach_refuses_of_send (hs : Inv s) (hw : s.writing = false)
    (hq : s.links.get q = some link)
    (hsend : (∃ sourcePort destinationPort, link = .connecting sourcePort destinationPort) ∨
      ∃ conn tcpAck, link = .acking conn tcpAck) :
    StepSystem.CanReach (DeviceRst.step shard) (Refuses q) s := by
  have hne : link ≠ .ended := by
    rcases hsend with ⟨_, _, rfl⟩ | ⟨_, _, rfl⟩ <;> nofun
  obtain ⟨r, hr⟩ := refuse_enabled shard (hs.running q _ hq hne)
    (.channel "sending on a closed channel")
  have hu : turn shard s q link .connectFails = some ⟨r, .ended, [], [.connectionRefused]⟩ := by
    rcases hsend with ⟨_, _, rfl⟩ | ⟨_, _, rfl⟩
    · simp only [DeviceRst.turn, hw, Bool.false_eq_true, if_false, hr]
      rfl
    · simp only [DeviceRst.turn, hw, Bool.false_eq_true, if_false, hr]
      rfl
  exact canReach_of_turn hq hu (.now (refuses_put (e := .channel "") rfl s r))

theorem canReach_refuses_of_opening {sourcePort destinationPort : UInt16} (hs : Inv s)
    (hq : s.links.get q = some (.opening sourcePort destinationPort))
    (hun : Unrouted s.router q) (hd : s.Doomed q (.opening sourcePort destinationPort)) :
    StepSystem.CanReach (DeviceRst.step shard) (Refuses q) s := by
  have hrunning := hs.running q _ hq nofun
  cases hqueue : queued s.router q with
  | nil =>
    obtain ⟨r, hr⟩ := refuse_enabled shard hrunning
      (.channel "receiving on a closed channel")
    have hu : turn shard s q (.opening sourcePort destinationPort) .connectFails =
        some ⟨r, .ended, [], [.connectionRefused]⟩ :=
      (if_pos ⟨hqueue, RouterLock.not_hasSender hun⟩).trans hr
    exact canReach_of_turn hq hu (.now (refuses_put (e := .channel "") rfl s r))
  | cons packet rest =>
    obtain ⟨r, hrecv, -⟩ := RouterLock.recv_enabled shard hrunning hqueue
    cases hnew : UsbDeviceConn.new sourcePort destinationPort packet with
    | error e =>
      obtain ⟨r', hr'⟩ := refuse_enabled shard (RouterLock.byOwner_recv hs.linked hrecv).2 e
      have hu : turn shard s q (.opening sourcePort destinationPort) .synAck =
          some ⟨r', .ended, [], [connectErrorCode e]⟩ := by
        simp only [DeviceRst.turn, hqueue, hrecv, Option.bind_some, hnew, hr']
      exact canReach_of_turn hq hu (.now (refuses_put (new_error hnew) s r'))
    | ok reply =>
      obtain ⟨tcpAck, conn⟩ := reply
      have hu : turn shard s q (.opening sourcePort destinationPort) .synAck =
          some ⟨r, .acking conn tcpAck, [], []⟩ := by
        simp only [DeviceRst.turn, hqueue, hrecv, Option.bind_some, hnew]
      have hput := hs.put hq ((move_of_turn hu).spec hs hq)
      have hw : s.writing = false := ((move_of_turn hu).silent hd).doomed
      refine canReach_of_turn hq hu ?_
      exact canReach_refuses_of_send hput hw (KeyTable.get_insert_self _ _ _) (.inr ⟨_, _, rfl⟩)

/-- A doomed handshake does not wait for anybody but the writer loop. -/
theorem canReach_refuses (hs : Inv s) (hq : s.links.get q = some link)
    (hun : Unrouted s.router q) (hd : s.Doomed q link) (hopened : link.BeingOpened) :
    StepSystem.CanReach (DeviceRst.step shard) (Refuses q) s := by
  cases link with
  | connecting sourcePort destinationPort =>
    cases hw : s.writing with
    | false => exact canReach_refuses_of_send hs hw hq (.inl ⟨_, _, rfl⟩)
    | true =>
      have hu : turn shard { s with wTx := [] } q (.connecting sourcePort destinationPort) .syn =
          some ⟨s.router, .opening sourcePort destinationPort,
            [UsbDeviceConn.tcpSyn sourcePort destinationPort], []⟩ := if_pos (hasRoom_drained hw)
      refine canReach_turn hw hq hu ?_
      exact canReach_refuses_of_opening (hs.turn hq hu) (KeyTable.get_insert_self _ _ _) hun hd
  | opening sourcePort destinationPort => exact canReach_refuses_of_opening hs hq hun hd
  | acking conn tcpAck => exact canReach_refuses_of_send hs hd hq (.inr ⟨_, _, rfl⟩)
  | opened | ended => exact hopened.elim

/-- A doomed connection that the router has lost is at an end. -/
theorem ended_of_doomed (hs : Inv s) (hq : s.links.get q = some link)
    (hgone : ∀ port, s.router.conns.get port ≠ some q) (hreader : s.router.reader = .reading)
    (hd : s.Doomed q link) : Ended shard s q := by
  have hun : Unrouted s.router q := by
    refine ⟨hgone, fun port packet => ?_, hs.fresh q link hq⟩
    rw [hreader]
    nofun
  have hquiet : Quiet s q s :=
    ⟨hun, ⟨link, hq, hd⟩, rfl, fun code hcode => .inl hcode,
      fun l hl hopened => .inl ⟨l, hl, hopened⟩⟩
  have hstep (t : DeviceRst) (a : Action) (t' : DeviceRst) (ht : Inv t ∧ Quiet s q t)
      (hst : t.step shard a = some t') : Inv t' ∧ Quiet s q t' :=
    ⟨ht.1.step hst, ht.2.step ht.1 hst⟩
  have hrun {as : List Action} {t : DeviceRst}
      (ht : StepSystem.after (DeviceRst.step shard) s as = some t) : Inv t ∧ Quiet s q t :=
    StepSystem.after_induction hstep ⟨hs, hquiet⟩ ht
  refine ⟨hgone, fun as t ht => (hrun ht).2.data, fun as t ht hwaits => ?_,
    fun l hl hopened as t ht => ⟨fun code hcode => ?_, ?_⟩⟩
  · have hnone := RouterLock.not_hasSender (hrun ht).2.unrouted
    rw [hwaits.2] at hnone
    cases hnone
  · rcases (hrun ht).2.told code hcode with hbefore | hrefused
    · obtain ⟨l', hl', hover⟩ := hs.told q code hbefore
      cases hl.symm.trans hl'
      exact absurd hopened hover
    · exact hrefused
  · obtain ⟨ht, hquiet⟩ := hrun ht
    rcases hquiet.answers l hl hopened with ⟨l', hl', hopened'⟩ | hrefused
    · obtain ⟨l'', hl'', hd⟩ := hquiet.doomed
      cases hl'.symm.trans hl''
      exact canReach_refuses ht hl' hquiet.unrouted hd hopened'
    · exact .now hrefused

/-- An RST does nothing to the device. -/
theorem step_rst_eq {packet : UsbDevicePacket} (hrst : isRst packet = true)
    (hst : s.step shard (.packetArrives packet) = some t) :
    t = s ∧ s.router.reader = .reading := by
  obtain ⟨r, hr, rfl⟩ := Option.map_eq_some_iff.mp hst
  obtain ⟨rfl, hreader⟩ := RouterLock.step_rst hrst hr
  exact ⟨rfl, hreader⟩

/-- An RST for a connection that the router knows does not end it. -/
theorem not_ended_of_routed {packet : UsbDevicePacket} {port : UInt16}
    (hrst : isRst packet = true) (hport : s.router.conns.get port = some q)
    (hst : s.step shard (.packetArrives packet) = some t) : ¬ Ended shard t q := by
  obtain ⟨rfl, -⟩ := step_rst_eq hrst hst
  intro h
  exact h.gone port hport

theorem rstEnds_iff {a : Action} (hs : Inv s) (hst : s.step shard a = some t) :
    RstEnds shard s a ↔ RstTooLate s a := by
  cases a with
  | packetArrives packet =>
    constructor
    · intro h hrst q link hq hport
      obtain ⟨rfl, -⟩ := step_rst_eq hrst hst
      have hended := h hrst q link hq hport t hst
      exact ⟨hended.gone, doomed_of_ended hs hq hended⟩
    · intro h hrst q link hq hport t' hst'
      obtain ⟨rfl, hreader⟩ := step_rst_eq hrst hst'
      obtain ⟨hgone, hd⟩ := h hrst q link hq hport
      exact ended_of_doomed hs hq hgone hreader hd
  | pollSend | connect | connectFrom | conn | unregister | clear | writerTakes | stopWriter =>
    exact Iff.rfl

end

/-- Over every run, each RST for a connection ends it exactly if none comes
before the router has lost the connection and the connection is doomed anyhow. -/
theorem rstEnds_iff_tooLate (as : List Action) :
    StepSystem.EveryStep (step shard) (RstEnds shard) new as ↔
      StepSystem.EveryStep (step shard) RstTooLate new as := by
  constructor
  · intro h
    exact StepSystem.everyStep_of_everyStep
      (fun s a t hs hp hst => ⟨(rstEnds_iff hs hst).mp hp, hs.step hst⟩) inv_new h
  · intro h
    exact StepSystem.everyStep_of_everyStep
      (fun s a t hs hp hst => ⟨(rstEnds_iff hs hst).mpr hp, hs.step hst⟩) inv_new h

/-- The device refuses the SYN of the connection from port 1. -/
def rstFor1 : UsbDevicePacket := buildTcp 0 0 (tcpHeader 62078 1 0 1 .RST)

theorem not_rstEnds_refusedSyn : ¬ ∀ (shard : UInt16 → ℕ) (as : List Action),
    StepSystem.EveryStep (step shard) (RstEnds shard) new as := by
  intro h
  have hrun := (h (fun _ => 0) [.connect 62078, .conn 0 .syn, .packetArrives rstFor1]).2.2.1
  have hended := hrun rfl 0 _ rfl rfl _ rfl
  exact hended.gone 1 rfl

end DeviceRst

end Rusbmux
