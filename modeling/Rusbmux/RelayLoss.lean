import Rusbmux.Relay

/-! What reaches the client of a relay, over a whole run. -/
namespace Rusbmux

namespace Relay

def payloads (ps : List UsbDevicePacket) : Bytes := ps.flatMap fun p => p.payload.encode

def lastPayload (ps : List UsbDevicePacket) : Bytes :=
  (ps.getLast?.map fun p => p.payload.encode).getD []

theorem payloads_append_singleton (ps : List UsbDevicePacket) (p : UsbDevicePacket) :
    payloads (ps ++ [p]) = payloads ps ++ p.payload.encode := by
  simp only [payloads, List.flatMap_append, List.flatMap_cons, List.flatMap_nil, List.append_nil]

theorem lastPayload_append_singleton (ps : List UsbDevicePacket) (p : UsbDevicePacket) :
    lastPayload (ps ++ [p]) = p.payload.encode := by
  simp only [lastPayload, List.getLast?_append, List.getLast?_singleton, Option.some_or,
    Option.map_some, Option.getD_some]

/-- The client has the payloads of all packets taken, but for `rest`, which
belongs to the last of them. -/
structure Delivered (s : Relay) (rest : Bytes) : Prop where
  total : s.clientOut ++ rest = payloads s.taken
  ofLast : rest <:+ lastPayload s.taken

/-- The bytes the relay still holds for the client. -/
def inProcess : Phase → Bytes
  | .select _ (some a) => a.packet.payload.encode
  | .clientSend remaining => remaining
  | _ => []

/-- Nothing is lost: the bytes missing are those in process, and once the relay
ends they are a part of one packet. -/
def NoLoss (s : Relay) : Prop :=
  match s.phase with
  | .closing | .ended => ∃ rest, s.Delivered rest
  | phase => s.Delivered (inProcess phase)

theorem NoLoss.exists_delivered {s : Relay} (h : s.NoLoss) : ∃ rest, s.Delivered rest := by
  unfold NoLoss at h
  split at h
  · exact h
  · exact h
  · exact ⟨_, h⟩

theorem noLoss_start (conn : UsbDeviceConn) (rx : List Arrival) (wTx : List UsbDevicePacket)
    (sentTotal ackedTotal : ℕ) : (start conn rx wTx sentTotal ackedTotal).NoLoss :=
  ⟨rfl, List.nil_suffix⟩

theorem Delivered.congr {s t : Relay} {rest : Bytes} (h : s.Delivered rest)
    (ho : t.clientOut = s.clientOut) (ht : t.taken = s.taken) : t.Delivered rest := by
  obtain ⟨htotal, hlast⟩ := h
  constructor
  · rw [ho, ht, htotal]
  · rwa [ht]

theorem noLoss_of_running {s : Relay} {rest : Bytes} (h : s.Delivered rest)
    (hrest : rest = inProcess s.phase) : s.NoLoss := by
  unfold NoLoss
  split
  · exact ⟨rest, h⟩
  · exact ⟨rest, h⟩
  · rwa [← hrest]

theorem NoLoss.delivered {s : Relay} {phase : Phase} (h : s.NoLoss) (hp : s.phase = phase)
    (hc : phase ≠ .closing) (he : phase ≠ .ended) : s.Delivered (inProcess phase) := by
  subst hp
  unfold NoLoss at h
  split at h
  · exact absurd ‹_› hc
  · exact absurd ‹_› he
  · exact h

/-- A step that neither takes a packet nor writes to the client, nor changes
what is in process. -/
theorem NoLoss.frame {s t : Relay} (h : s.NoLoss) (hp : t.phase = s.phase)
    (ho : t.clientOut = s.clientOut) (ht : t.taken = s.taken) : t.NoLoss := by
  unfold NoLoss at h ⊢
  rw [hp]
  split at h
  · obtain ⟨rest, hd⟩ := h
    exact ⟨rest, hd.congr ho ht⟩
  · obtain ⟨rest, hd⟩ := h
    exact ⟨rest, hd.congr ho ht⟩
  · exact h.congr ho ht

/-- Once the relay ends, whatever was in process may stay behind. -/
theorem NoLoss.ended {s t : Relay} (h : s.NoLoss) (hp : t.phase = .closing ∨ t.phase = .ended)
    (ho : t.clientOut = s.clientOut) (ht : t.taken = s.taken) : t.NoLoss := by
  obtain ⟨rest, hd⟩ := h.exists_delivered
  unfold NoLoss
  rcases hp with hp | hp <;> rw [hp] <;> exact ⟨rest, hd.congr ho ht⟩

theorem noLoss_takePacket {s : Relay} {sendable : ℕ} (h : s.NoLoss)
    (hp : s.phase = .select sendable none) (a : Arrival) (rest : List Arrival) :
    (s.takePacket a rest).Delivered a.packet.payload.encode := by
  have hd := h.delivered hp nofun nofun
  constructor
  · change s.clientOut ++ _ = payloads (s.taken ++ [a.packet])
    rw [payloads_append_singleton, ← hd.total]
    simp only [inProcess, List.append_nil]
  · change _ <:+ lastPayload (s.taken ++ [a.packet])
    exact ⟨[], (lastPayload_append_singleton _ _).symm⟩

/-- The client arm does not win with bytes of the client while `conn.recv()`
holds a packet with a payload. -/
def KeepsHeld (s : Relay) (action : Action) : Prop :=
  ∀ k sendable a, action = .pollClient k → s.phase = .select sendable (some a) →
    a.packet.payload.encode = [] ∨ s.readBuf = [] ∧ s.clientIn = []

/-- A step of the relay that keeps to the rule loses nothing. -/
theorem noLoss_step {s t : Relay} {action : Action} (h : s.NoLoss)
    (hk : s.KeepsHeld action) (hst : s.step action = some t) : t.NoLoss := by
  cases move_of_step hst with
  -- the writer channel and the client's own bytes are no part of the law
  | deviceData | writerTakes | otherSends | clientWrites | clientCloses | cancel =>
    exact h.frame rfl rfl rfl
  -- the ACK is sent, or the packet is held until the writer channel has room
  | acked sendable a rest hp =>
    exact noLoss_of_running ((noLoss_takePacket h hp a rest).congr rfl rfl) rfl
  | held sendable a rest hp =>
    exact noLoss_of_running ((noLoss_takePacket h hp a rest).congr rfl rfl) rfl
  | pollAck sendable a hp =>
    have hd := h.delivered hp nofun nofun
    exact noLoss_of_running (hd.congr rfl rfl) rfl
  | recvFails | clientReadFails | pollShutdown | clientSendFails | sendFails | closeDone =>
    exact h.ended (.inr rfl) rfl rfl
  | pollClient k sendable held packet u hp hpos hu =>
    have hr := clientRead_reads hpos hu
    unfold clientPacket
    split
    · -- nothing was read: the client has closed
      exact h.ended (.inl rfl) hr.clientOut hr.taken
    · rename_i hne
      have hd := h.delivered hp nofun nofun
      -- a packet that `conn.recv()` holds is dropped here, so it has no payload
      have hnil : inProcess (.select sendable held) = [] := by
        cases held with
        | none => rfl
        | some a =>
          exact (hk k sendable a rfl hp).resolve_right fun hn => hne (hr.eq_nil_iff.mpr hn)
      rw [hnil] at hd
      exact noLoss_of_running (hd.congr hr.clientOut hr.taken) rfl
  | clientTakes k remaining hp =>
    have hd := h.delivered hp nofun nofun
    -- what the client takes moves from the packet to its own bytes
    have hdrop : Delivered { s with
        clientOut := s.clientOut ++ remaining.take k
        phase := .clientSend (remaining.drop k) } (remaining.drop k) := by
      refine ⟨?_, (List.drop_suffix k remaining).trans hd.ofLast⟩
      change (s.clientOut ++ remaining.take k) ++ remaining.drop k = _
      rw [List.append_assoc, List.take_append_drop]
      exact hd.total
    exact noLoss_of_running hdrop rfl
  | clientSendDone hp =>
    have hd := h.delivered hp nofun nofun
    exact noLoss_of_running (hd.congr rfl rfl) rfl
  | sendDone packet hp =>
    have hd := h.delivered hp nofun nofun
    exact noLoss_of_running (hd.congr rfl rfl) rfl

/-- A packet with a payload that the client arm drops is lost at once. -/
theorem keepsHeld_of_noLoss {s t : Relay} {action : Action} (h : s.NoLoss)
    (hst : s.step action = some t) (ht : t.NoLoss) : s.KeepsHeld action := by
  rintro k sendable a rfl hp
  cases move_of_step hst with
  | pollClient _ _ held packet u hselect hpos hu =>
    rw [hp] at hselect
    cases hselect
    have hr := clientRead_reads hpos hu
    by_cases hnil : packet = []
    · exact .inr (hr.eq_nil_iff.mp hnil)
    · have hd := h.delivered hp nofun nofun
      have hsend : (u.clientPacket packet).phase = .sendBytes (u.conn.bytesPacket packet) := by
        simp only [clientPacket, hnil, if_false]
      have hdt := ht.delivered hsend nofun nofun
      have ho : (u.clientPacket packet).clientOut = s.clientOut := by
        simp only [clientPacket, hnil, if_false, hr.clientOut]
      have htk : (u.clientPacket packet).taken = s.taken := by
        simp only [clientPacket, hnil, if_false, hr.taken]
      have htotal := hdt.total
      rw [ho, htk, ← hd.total] at htotal
      exact .inl (List.append_cancel_left htotal).symm

/-- Over every run, nothing is lost exactly as long as the client arm never
drops a packet with a payload. -/
theorem noLoss_iff_keepsHeld (conn : UsbDeviceConn) (rx : List Arrival)
    (wTx : List UsbDevicePacket) (sentTotal ackedTotal : ℕ) (as : List Action) :
    StepSystem.EveryState step NoLoss (start conn rx wTx sentTotal ackedTotal) as ↔
      StepSystem.EveryStep step KeepsHeld (start conn rx wTx sentTotal ackedTotal) as :=
  StepSystem.everyState_iff_everyStep
    (fun _ _ _ h hst => ⟨fun hk => noLoss_step h hk hst, fun ht => keepsHeld_of_noLoss h hst ht⟩)
    (fun _ h => h) (noLoss_start conn rx wTx sentTotal ackedTotal) as

/-- A connection after its handshake. -/
def dropConn : UsbDeviceConn := .newFrom 62078 1 1 1 512 1

/-- One byte from the device. -/
def dropArrival : Arrival where
  packet := buildTcpBytes 0 0 (tcpHeader 62078 1 1 1 .ACK) [7]
  acked := 0

set_option maxRecDepth 4000 in
/-- The writer channel is full when the packet is taken, and the client sends a
byte before the channel has room again. -/
theorem relay_loses_held_packet :
    ¬ ∀ (conn : UsbDeviceConn) (rx : List Arrival) (wTx : List UsbDevicePacket)
      (sentTotal ackedTotal : ℕ) (as : List Action),
      StepSystem.EveryState step NoLoss (start conn rx wTx sentTotal ackedTotal) as := by
  intro h
  have hrun := h dropConn [dropArrival] (List.replicate QUEUE_SIZE dropConn.tcpAck) 0 0
    [.pollRecv, .clientWrites [1], .pollClient 1]
  have hlost := (hrun.last rfl).delivered rfl (by decide) (by decide)
  exact absurd hlost.total (by decide)

end Relay

end Rusbmux
