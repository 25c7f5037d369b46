import Rusbmux.SourcePort

/-! The four ways to close a connection, and what they leave in the tables of
the router and of the device: src/conn/usb.rs and src/device/usb.rs. A weak
reference upgrades as long as the connection has a handle. -/
namespace Rusbmux

namespace UsbDevice

section

variable (s : UsbDevice)

def unregister (port : UInt16) : UsbDevice :=
  { s with router := PacketRouter.unregister s.router port }

/-- `close` of the connection `q`; `rst` is the answer of `send_rst`. -/
def close (q : ℕ) (c : ConnHandle) (rst : Except String Unit) :
    Except RusbmuxError Unit × UsbDevice :=
  let s := s.setHandle q { c with phase := .dropped }
  match rst with
  | .error e => (.error (.channel e), s)
  | .ok () => (.ok (), s.unregister c.sourcePort)

/-- The same with `try_send`, which also fails on a full channel. -/
def closeBlocking (q : ℕ) (c : ConnHandle) (rst : Except String Unit) :
    Except RusbmuxError Unit × UsbDevice :=
  s.close q c rst

/-- `Drop`, and the end of the connection. -/
def dropConn (q : ℕ) (c : ConnHandle) (rst : Except String Unit) : UsbDevice :=
  if c.phase = .dropped then s.free q else (s.closeBlocking q c rst).2.free q

/-- `cleanup_conn`: the connection that it closes is the one in the table. -/
def cleanupConn (c : ConnHandle) (rst : ℕ → Except String Unit) :
    Except RusbmuxError Unit × UsbDevice :=
  let sourcePort := c.sourcePort
  match s.conns.get sourcePort with
  | none => (.ok (), s.unregister sourcePort)
  | some j =>
    let s := { s with conns := s.conns.remove sourcePort }
    match s.handles.get j with
    | none => (.ok (), s.unregister sourcePort)
    | some d =>
      if d.phase = .dropped then (.ok (), s.unregister sourcePort)
      else match s.close j d (rst j) with
        | (.error e, s) => (.error e, s)
        | (.ok (), s) => (.ok (), s.unregister sourcePort)

/-- The loop of `close_all`, over the entries of the table. -/
def sendRsts (rst : ℕ → Except String Unit) : List (UInt16 × ℕ) → Except RusbmuxError Unit
  | [] => .ok ()
  | (_, j) :: rest => match s.handles.get j with
    | none => sendRsts rst rest
    | some _ => match rst j with
      | .error e => .error (.channel e)
      | .ok () => sendRsts rst rest

def closeAll (rst : ℕ → Except String Unit) : Except RusbmuxError Unit × UsbDevice :=
  match s.sendRsts rst s.conns.entries with
  | .error e => (.error e, s)
  | .ok () => (.ok (), { s with router := .empty, conns := .empty })

end

inductive Teardown where
  | close
  | drop
  | cleanupConn
  | closeAll
  deriving DecidableEq, Repr

/-- The device after the connection `q` is closed in one of the four ways; `rst`
says for each connection whether its RST can be enqueued. -/
def tearDown (s : UsbDevice) (q : ℕ) (c : ConnHandle) (rst : ℕ → Except String Unit) :
    Teardown → UsbDevice
  | .close => (s.close q c (rst q)).2
  | .drop => s.dropConn q c (rst q)
  | .cleanupConn => (s.cleanupConn c rst).2
  | .closeAll => (s.closeAll rst).2

/-- The entries of the other connections are the same. -/
def KeepsOthers (q : ℕ) (before after : KeyTable UInt16 ℕ) : Prop :=
  ∀ port j, j ≠ q → (after.get port = some j ↔ before.get port = some j)

/-- Neither table has the port of the closed connection, and each has lost no
entry of another one. -/
def Forgets (s : UsbDevice) (q : ℕ) (c : ConnHandle) (rst : ℕ → Except String Unit)
    (way : Teardown) : Prop :=
  let t := s.tearDown q c rst way
  (t.router.get c.sourcePort = none ∧ t.conns.get c.sourcePort = none) ∧
    (way ≠ .closeAll → KeepsOthers q s.router t.router ∧ KeepsOthers q s.conns t.conns)

/-- The entry of the connection, if there is one, is its own. -/
def OwnOrNone (q : ℕ) (table : KeyTable UInt16 ℕ) (port : UInt16) : Prop :=
  table.get port = none ∨ table.get port = some q

/-- For each way, the states and answers on which it forgets the connection. -/
def Forgettable (s : UsbDevice) (q : ℕ) (c : ConnHandle) (rst : ℕ → Except String Unit) :
    Teardown → Prop
  | .close => s.conns.get c.sourcePort = none ∧ OwnOrNone q s.router c.sourcePort ∧
    (rst q = .ok () ∨ s.router.get c.sourcePort = none)
  | .drop => s.conns.get c.sourcePort = none ∧ OwnOrNone q s.router c.sourcePort ∧
    (c.phase ≠ .dropped ∧ rst q = .ok () ∨ s.router.get c.sourcePort = none)
  | .cleanupConn => OwnOrNone q s.conns c.sourcePort ∧ OwnOrNone q s.router c.sourcePort ∧
    (s.conns.get c.sourcePort = none ∨ c.phase = .dropped ∨ rst q = .ok () ∨
      s.router.get c.sourcePort = none)
  | .closeAll =>
    (∀ port j, s.conns.get port = some j → (s.handles.get j).isSome → rst j = .ok ()) ∨
    s.router.get c.sourcePort = none ∧ s.conns.get c.sourcePort = none

variable {s : UsbDevice} {q : ℕ} {c : ConnHandle} {rst : ℕ → Except String Unit}

/-- Removing a port touches no other connection when the entry is its own. -/
theorem keepsOthers_remove_iff (q : ℕ) (table : KeyTable UInt16 ℕ) (port : UInt16) :
    KeepsOthers q table (table.remove port) ↔ OwnOrNone q table port := by
  constructor
  · intro h
    cases hp : table.get port with
    | none => exact Or.inl hp
    | some j =>
      by_cases hj : j = q
      · subst hj
        exact Or.inr hp
      -- another connection's entry would be gone
      · have hg := (h port j hj).mpr hp
        rw [KeyTable.get_remove_self] at hg
        cases hg
  · intro h p j hj
    by_cases hp : p = port
    · subst hp
      rw [KeyTable.get_remove_self]
      obtain hn | hs := h
      · rw [hn]
      · rw [hs]
        constructor
        · intro h
          cases h
        · intro h
          exact absurd (Option.some.inj h).symm hj
    · rw [KeyTable.get_remove_of_ne _ hp]

/-- What is left of a table from which the port is removed or not. -/
theorem removed_iff (q : ℕ) (port : UInt16) {table table' : KeyTable UInt16 ℕ} {removes : Prop}
    [Decidable removes] (ht : table'.get = (if removes then table.remove port else table).get) :
    table'.get port = none ∧ KeepsOthers q table table' ↔
      OwnOrNone q table port ∧ (removes ∨ table.get port = none) := by
  by_cases h : removes
  · rw [if_pos h] at ht
    simp only [KeepsOthers, ht, KeyTable.get_remove_self, h, true_or, and_true, true_and]
    exact keepsOthers_remove_iff q table port
  · rw [if_neg h] at ht
    have hk : KeepsOthers q table table' := fun p j _ => by rw [ht]
    rw [ht, iff_true_intro hk, and_true, or_iff_right h]
    exact ⟨fun hn => ⟨Or.inl hn, hn⟩, fun hn => hn.2⟩

theorem close_router (s : UsbDevice) (q : ℕ) (c : ConnHandle) (r : Except String Unit) :
    (s.close q c r).2.router =
      if r = .ok () then s.router.remove c.sourcePort else s.router := by
  cases r with
  | ok u => exact (if_pos rfl).symm
  | error e => rfl

theorem close_conns (s : UsbDevice) (q : ℕ) (c : ConnHandle) (r : Except String Unit) :
    (s.close q c r).2.conns = s.conns := by
  cases r <;> rfl

theorem dropConn_router (s : UsbDevice) (q : ℕ) (c : ConnHandle) (r : Except String Unit) :
    (s.dropConn q c r).router =
      if c.phase ≠ .dropped ∧ r = .ok () then s.router.remove c.sourcePort else s.router := by
  unfold dropConn
  by_cases hd : c.phase = .dropped
  · rw [if_pos hd, if_neg fun h => h.1 hd]
    rfl
  · rw [if_neg hd]
    simp only [hd, ne_eq, not_false_eq_true, true_and]
    exact close_router s q c r

theorem dropConn_conns (s : UsbDevice) (q : ℕ) (c : ConnHandle) (r : Except String Unit) :
    (s.dropConn q c r).conns = s.conns := by
  unfold dropConn
  split_ifs
  · rfl
  · exact close_conns s q c r

theorem cleanupConn_conns (s : UsbDevice) (c : ConnHandle) (rst : ℕ → Except String Unit) :
    (s.cleanupConn c rst).2.conns.get = (s.conns.remove c.sourcePort).get := by
  unfold cleanupConn
  cases hj : s.conns.get c.sourcePort with
  | none =>
    simp only [hj, unregister]
    -- there was nothing to remove
    funext p
    by_cases hp : p = c.sourcePort
    · rw [hp, KeyTable.get_remove_self, hj]
    · exact (KeyTable.get_remove_of_ne _ hp).symm
  | some j =>
    cases hd : s.handles.get j with
    | none => simp only [hj, hd, unregister]
    | some d =>
      simp only [hj, hd]
      split_ifs with hph
      · rfl
      · cases hr : rst j <;> rfl

theorem get_remove_remove (table : KeyTable UInt16 ℕ) (port : UInt16) :
    ((table.remove port).remove port).get = (table.remove port).get := by
  funext p
  simp only [KeyTable.get_remove]
  split_ifs <;> rfl

/-- The router is cleaned unless the RST of the connection in the table cannot
be enqueued. -/
theorem cleanupConn_router (hown : OwnOrNone q s.conns c.sourcePort)
    (hq : s.handles.get q = some c) :
    (s.cleanupConn c rst).2.router.get =
      (if s.conns.get c.sourcePort = none ∨ c.phase = .dropped ∨ rst q = .ok () then
        s.router.remove c.sourcePort else s.router).get := by
  unfold cleanupConn
  obtain hn | hs := hown
  · simp only [hn, true_or, if_true]
    rfl
  · simp only [hs, hq, reduceCtorEq, false_or]
    by_cases hd : c.phase = .dropped
    · simp only [hd, if_true, true_or]
      rfl
    · simp only [hd, if_false, false_or]
      cases hr : rst q with
      | error e => rfl
      | ok u => exact get_remove_remove s.router c.sourcePort

/-- The loop ends at the first RST that cannot be enqueued. -/
theorem sendRsts_ok_iff (s : UsbDevice) (rst : ℕ → Except String Unit)
    (es : List (UInt16 × ℕ)) :
    s.sendRsts rst es = .ok () ↔
      ∀ e ∈ es, (s.handles.get e.2).isSome → rst e.2 = .ok () := by
  induction es with
  | nil => exact ⟨fun _ => List.forall_mem_nil _, fun _ => rfl⟩
  | cons e es ih =>
    obtain ⟨port, j⟩ := e
    rw [List.forall_mem_cons, ← ih, sendRsts]
    cases hh : s.handles.get j with
    | none => simp only [Option.isSome_none, Bool.false_eq_true, false_implies, true_and]
    | some d =>
      cases hr : rst j with
      | ok u => simp only [Option.isSome_some, true_implies, true_and]
      | error e => simp only [Option.isSome_some, true_implies, reduceCtorEq, false_and]

theorem closeAll_forgets_iff (s : UsbDevice) (rst : ℕ → Except String Unit) (port : UInt16) :
    (s.closeAll rst).2.router.get port = none ∧ (s.closeAll rst).2.conns.get port = none ↔
      (∀ port j, s.conns.get port = some j → (s.handles.get j).isSome → rst j = .ok ()) ∨
        s.router.get port = none ∧ s.conns.get port = none := by
  have hsent : s.sendRsts rst s.conns.entries = .ok () ↔
      ∀ port j, s.conns.get port = some j → (s.handles.get j).isSome → rst j = .ok () := by
    simp only [sendRsts_ok_iff, Prod.forall, KeyTable.get_eq_some_iff]
  rw [← hsent]
  unfold closeAll
  cases hr : s.sendRsts rst s.conns.entries with
  | ok u => exact ⟨fun _ => Or.inl rfl, fun _ => ⟨rfl, rfl⟩⟩
  | error e => simp only [reduceCtorEq, false_or]

theorem forgets_iff_tables {way : Teardown} (hway : way ≠ .closeAll) :
    Forgets s q c rst way ↔
      ((s.tearDown q c rst way).conns.get c.sourcePort = none ∧
        KeepsOthers q s.conns (s.tearDown q c rst way).conns) ∧
      ((s.tearDown q c rst way).router.get c.sourcePort = none ∧
        KeepsOthers q s.router (s.tearDown q c rst way).router) := by
  constructor
  · intro h
    exact ⟨⟨h.1.2, (h.2 hway).2⟩, h.1.1, (h.2 hway).1⟩
  · intro h
    exact ⟨⟨h.2.1, h.1.1⟩, fun _ => ⟨h.2.2, h.1.2⟩⟩

theorem untouched_iff (q : ℕ) (port : UInt16) {table table' : KeyTable UInt16 ℕ}
    (ht : table' = table) :
    table'.get port = none ∧ KeepsOthers q table table' ↔ table.get port = none := by
  subst ht
  exact ⟨fun h => h.1, fun h => ⟨h, fun _ _ _ => Iff.rfl⟩⟩

/-- For each way to close a connection, each state and each answer of the
channel: the tables forget it exactly on the condition of that way. -/
theorem forgets_iff_forgettable (hq : s.handles.get q = some c) (way : Teardown) :
    Forgets s q c rst way ↔ Forgettable s q c rst way := by
  cases way with
  | close =>
    have hr := removed_iff q c.sourcePort
      (congrArg KeyTable.get (close_router s q c (rst q)))
    have hc := untouched_iff q c.sourcePort (close_conns s q c (rst q))
    rw [forgets_iff_tables fun h => by cases h]
    exact and_congr hc hr
  | drop =>
    have hr := removed_iff q c.sourcePort
      (congrArg KeyTable.get (dropConn_router s q c (rst q)))
    have hc := untouched_iff q c.sourcePort (dropConn_conns s q c (rst q))
    rw [forgets_iff_tables fun h => by cases h]
    exact and_congr hc hr
  | cleanupConn =>
    rw [forgets_iff_tables fun h => by cases h]
    have ht : (s.cleanupConn c rst).2.conns.get =
        (if True then s.conns.remove c.sourcePort else s.conns).get := by
      rw [if_pos trivial]
      exact cleanupConn_conns s c rst
    have hc := removed_iff q c.sourcePort ht
    rw [true_or, and_true] at hc
    simp only [Forgettable, tearDown, hc]
    apply and_congr_right
    intro hown
    -- which RST is sent depends on whose entry the table has
    rw [removed_iff q c.sourcePort (cleanupConn_router hown hq)]
    simp only [or_assoc]
  | closeAll =>
    have h := closeAll_forgets_iff s rst c.sourcePort
    exact ⟨fun hf => h.mp hf.1, fun hf => ⟨h.mpr hf, fun hne => absurd rfl hne⟩⟩

/-- One established connection, on port 1. -/
def connected : UsbDevice where
  nextSourcePort := 2
  router := PacketRouter.register .empty 1 0
  conns := KeyTable.empty.insert 1 0
  handles := KeyTable.empty.insert 0 ⟨1, .established, 0⟩
  nextQueue := 1

theorem connected_cleanupConn_forgets :
    Forgets connected 0 ⟨1, .established, 0⟩ (fun _ => .ok ()) .cleanupConn :=
  (forgets_iff_forgettable rfl _).mpr ⟨Or.inr rfl, Or.inr rfl, Or.inr (Or.inr (Or.inl rfl))⟩

/-- `close` succeeds, and the device's table still has the port. -/
theorem connected_close_remembers :
    (connected.close 0 ⟨1, .established, 0⟩ (.ok ())).1 = .ok () ∧
      ¬ Forgets connected 0 ⟨1, .established, 0⟩ (fun _ => .ok ()) .close := by
  refine ⟨rfl, ?_⟩
  intro h
  cases h.1.2

end UsbDevice
end Rusbmux
