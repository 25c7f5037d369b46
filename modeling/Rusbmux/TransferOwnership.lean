import Rusbmux.StepSystem
import Mathlib.Data.Int.Notation

/-! The memory of one transfer in src/usb_backend/rusb.rs, between the task that
submits it and the thread that runs its callback. -/
namespace Rusbmux

/-- A piece of memory that is made once. -/
inductive Object where
  | absent
  | live
  | freed
  /-- Freed or used when it was not there. -/
  | misused
  deriving DecidableEq, Repr

namespace Object

def use : Object → Object
  | live => live
  | _ => misused

def free : Object → Object
  | live => freed
  | _ => misused

end Object

namespace TransferOwnership

/-- The sender of the result, which a send uses up. -/
inductive Sender where
  /-- The task has it, or the user data. -/
  | held
  | sent
  /-- Dropped, and nothing was sent. -/
  | dropped
  /-- Sent on or dropped when it was not there. -/
  | misused
  deriving DecidableEq, Repr

def Sender.send : Sender → Sender
  | held => sent
  | _ => misused

def Sender.drop : Sender → Sender
  | held => dropped
  | _ => misused

/-- `alloc_and_submit`, and then the `TransferHandle`. -/
inductive Task where
  /-- In `libusb_alloc_transfer`. -/
  | called
  | allocated
  /-- `libusb_submit_transfer` is next. -/
  | filled
  /-- An error is returned. -/
  | failed
  | holding
  /-- In `drop`, which has found the transfer not completed. -/
  | dropping
  | closed
  deriving DecidableEq, Repr

/-- What `bulk_callback` has done last. -/
inductive Callback where
  | idle
  | stored
  | copied
  | sent
  | bufferFreed
  | transferFreed
  | ended
  deriving DecidableEq, Repr

inductive Action where
  | alloc (null : Bool)
  /-- The buffer is forgotten, the user data is boxed and the transfer filled. -/
  | fill
  /-- `libusb_submit_transfer` returns. -/
  | submit (ret : ℤ)
  /-- The task polls the receiver. -/
  | poll
  /-- `drop` loads `completed`. -/
  | drop
  | cancel
  /-- The thread goes on with `bulk_callback`. -/
  | callback
  deriving DecidableEq

end TransferOwnership

open TransferOwnership in
/-- `got` says that the task has the result. -/
structure TransferOwnership where
  transfer : Object
  buffer : Object
  userData : Object
  sender : Sender
  completed : Bool
  task : Task
  callback : Callback
  got : Bool
  deriving DecidableEq, Repr

namespace TransferOwnership

/-- The task has its buffer and the two ends of the channel, and nothing else yet. -/
def start : TransferOwnership where
  transfer := .absent
  buffer := .live
  userData := .absent
  sender := .held
  completed := false
  task := .called
  callback := .idle
  got := false

/-- The transfer is submitted: its callback may run. -/
def Task.submitted : Task → Bool
  | holding | dropping | closed => true
  | _ => false

/-- The next statement of `bulk_callback`. -/
def callbackStep (s : TransferOwnership) : Option TransferOwnership :=
  match s.callback with
  | .idle => some { s with
      transfer := s.transfer.use
      userData := s.userData.use
      completed := true
      callback := .stored }
  -- `actual_length` and `status` are read, and the data is copied
  | .stored => some { s with
      transfer := s.transfer.use
      buffer := s.buffer.use
      userData := s.userData.use
      callback := .copied }
  | .copied => some { s with
      userData := s.userData.use
      sender := s.sender.send
      callback := .sent }
  | .sent => some { s with
      buffer := s.buffer.free
      userData := s.userData.use
      callback := .bufferFreed }
  | .bufferFreed => some { s with transfer := s.transfer.free, callback := .transferFreed }
  -- the box goes out of scope
  | .transferFreed => some { s with userData := s.userData.free, callback := .ended }
  | .ended => none

def step (s : TransferOwnership) : Action → Option TransferOwnership
  | .alloc null => match s.task with
    | .called =>
      if null then some { s with
        buffer := s.buffer.free
        sender := s.sender.drop
        task := .failed }
      else some { s with transfer := .live, task := .allocated }
    | _ => none
  | .fill => match s.task with
    | .allocated => some { s with
        transfer := s.transfer.use, userData := .live, task := .filled }
    | _ => none
  | .submit ret => match s.task with
    | .filled =>
      if ret ≠ 0 then some { s with
        sender := s.sender.drop
        userData := s.userData.free
        buffer := s.buffer.free
        transfer := s.transfer.free
        task := .failed }
      else some { s with task := .holding }
    | _ => none
  | .poll => match s.task, s.sender with
    | .holding, .sent => some { s with got := true }
    | _, _ => none
  | .drop => match s.task with
    | .holding => some { s with task := if s.completed then .closed else .dropping }
    | _ => none
  | .cancel => match s.task with
    | .dropping => some { s with transfer := s.transfer.use, task := .closed }
    | _ => none
  | .callback => if s.task.submitted then s.callbackStep else none

/-- Nothing is freed twice or used when it is gone, a receiver that is polled has
a sender or a result, a task that has its result cancels nothing, and all memory
and the sender are freed in the end. -/
structure Safe (s : TransferOwnership) : Prop where
  memory : s.transfer ≠ .misused ∧ s.buffer ≠ .misused ∧ s.userData ≠ .misused
  sender : s.sender ≠ .misused
  cancels : s.task = .dropping → s.transfer = .live ∧ s.got = false
  receives : s.task = .holding → s.sender = .held ∨ s.sender = .sent
  ended : s.task = .failed ∨ s.task = .closed ∧ s.callback = .ended →
    s.transfer ≠ .live ∧ s.buffer ≠ .live ∧ s.userData ≠ .live ∧ s.sender ≠ .held

/-- The callback does not free the transfer while `drop` is about to cancel it. -/
def NotWhileDropping (s : TransferOwnership) (a : Action) : Prop :=
  a = .callback ∧ s.callback = .bufferFreed → s.task ≠ .dropping

instance (s : TransferOwnership) (a : Action) : Decidable (NotWhileDropping s a) :=
  inferInstanceAs (Decidable (_ → _))

/-- The transfer, the buffer and the user data, as the callback leaves them. -/
def Callback.transfer : Callback → Object
  | transferFreed | ended => .freed
  | _ => .live

def Callback.buffer : Callback → Object
  | idle | stored | copied | sent => .live
  | _ => .freed

def Callback.userData : Callback → Object
  | ended => .freed
  | _ => .live

def Callback.sender : Callback → Sender
  | idle | stored | copied => .held
  | _ => .sent

def Callback.completed : Callback → Bool
  | idle => false
  | _ => true

/-- A submitted transfer is as its callback has left it. -/
structure Left (s : TransferOwnership) : Prop where
  transfer : s.transfer = s.callback.transfer
  buffer : s.buffer = s.callback.buffer
  userData : s.userData = s.callback.userData
  sender : s.sender = s.callback.sender
  completed : s.completed = s.callback.completed
  got : s.got = true → s.completed = true

/-- What holds in a phase of the task. -/
def InTask (s : TransferOwnership) : Task → Prop
  | .called => s = start
  | .allocated => s = { start with transfer := .live, task := .allocated }
  | .filled => s = { start with transfer := .live, userData := .live, task := .filled }
  | .failed => (s.transfer = .absent ∨ s.transfer = .freed) ∧ s.buffer = .freed ∧
    (s.userData = .absent ∨ s.userData = .freed) ∧ s.sender = .dropped
  | .holding | .closed => s.Left
  | .dropping => s.Left ∧ s.transfer = .live ∧ s.got = false

variable {s t : TransferOwnership} {a : Action}

theorem Left.sound (h : s.Left) :
    s.transfer ≠ .misused ∧ s.buffer ≠ .misused ∧ s.userData ≠ .misused := by
  rw [h.transfer, h.buffer, h.userData]
  cases s.callback <;> decide

theorem Left.sender_ne (h : s.Left) : s.sender ≠ .misused := by
  rw [h.sender]
  cases s.callback <;> decide

theorem safe_of_inTask (h : s.InTask s.task) : s.Safe := by
  cases ht : s.task <;> rw [ht] at h
  case called =>
    rw [h]
    exact ⟨by decide, by decide, by decide, by decide, by decide⟩
  case allocated =>
    rw [h]
    exact ⟨by decide, by decide, by decide, by decide, by decide⟩
  case filled =>
    rw [h]
    exact ⟨by decide, by decide, by decide, by decide, by decide⟩
  case failed =>
    obtain ⟨htransfer, hbuffer, huserData, hsender⟩ := h
    refine ⟨?_, ?_, fun hc => (by cases ht.symm.trans hc),
      fun hc => (by cases ht.symm.trans hc), fun _ => ?_⟩
    · rcases htransfer with htransfer | htransfer <;> rcases huserData with hud | hud <;>
        rw [htransfer, hbuffer, hud] <;> decide
    · rw [hsender]
      decide
    · rcases htransfer with htransfer | htransfer <;> rcases huserData with hud | hud <;>
        rw [htransfer, hbuffer, hud, hsender] <;> decide
  case holding =>
    refine ⟨Left.sound h, Left.sender_ne h, fun hc => (by cases ht.symm.trans hc), fun _ => ?_,
      ?_⟩
    · rw [h.sender]
      cases s.callback <;> decide
    · rintro (hc | ⟨hc, -⟩) <;> cases ht.symm.trans hc
  case dropping =>
    refine ⟨Left.sound h.1, Left.sender_ne h.1, fun _ => h.2,
      fun hc => (by cases ht.symm.trans hc), ?_⟩
    rintro (hc | ⟨hc, -⟩) <;> cases ht.symm.trans hc
  case closed =>
    refine ⟨Left.sound h, Left.sender_ne h, fun hc => (by cases ht.symm.trans hc),
      fun hc => (by cases ht.symm.trans hc), ?_⟩
    rintro (hc | ⟨-, hended⟩)
    · cases ht.symm.trans hc
    · rw [h.transfer, h.buffer, h.userData, h.sender, hended]
      decide

/-- The callback frees the transfer after its result is sent, and nothing twice. -/
theorem left_callback (h : s.Left) (ht : s.callbackStep = some t) :
    t.Left ∧ t.task = s.task ∧ t.got = s.got ∧
      t.transfer = if s.callback = .bufferFreed then .freed else s.transfer := by
  obtain ⟨transfer, buffer, userData, sender, completed, task, callback, got⟩ := s
  obtain ⟨htransfer, hbuffer, huserData, hsender, hcompleted, hgot⟩ := h
  dsimp only at htransfer hbuffer huserData hsender hcompleted
  subst htransfer hbuffer huserData hsender hcompleted
  cases callback <;> cases ht
  all_goals exact ⟨⟨rfl, rfl, rfl, rfl, rfl, fun _ => rfl⟩, rfl, rfl, rfl⟩

theorem inTask_callback (h : s.InTask s.task) (hsubmitted : s.task.submitted = true)
    (ht : s.callbackStep = some t) :
    (NotWhileDropping s .callback → t.InTask t.task) ∧
      (t.Safe → NotWhileDropping s .callback) := by
  cases htask : s.task <;> rw [htask] at h hsubmitted
  case called | allocated | filled | failed => cases hsubmitted
  case holding | closed =>
    obtain ⟨hleft, hsame, -⟩ := left_callback h ht
    rw [hsame, htask]
    refine ⟨fun _ => hleft, fun _ _ hc => ?_⟩
    cases htask.symm.trans hc
  case dropping =>
    obtain ⟨hleft, htransfer, hgot⟩ := h
    obtain ⟨hleft', hsame, hgot', htransfer'⟩ := left_callback hleft ht
    constructor
    · intro hnot
      have hother : s.callback ≠ .bufferFreed := fun hc => hnot ⟨rfl, hc⟩ htask
      rw [if_neg hother] at htransfer'
      rw [hsame, htask]
      exact ⟨hleft', htransfer'.trans htransfer, hgot'.trans hgot⟩
    · -- the transfer that is about to be cancelled is gone
      rintro hsafe ⟨-, hc⟩ -
      rw [if_pos hc] at htransfer'
      cases htransfer'.symm.trans (hsafe.cancels (hsame.trans htask)).1

theorem inTask_step (h : s.InTask s.task) (ht : s.step a = some t) :
    (NotWhileDropping s a → t.InTask t.task) ∧ (t.Safe → NotWhileDropping s a) := by
  -- only the callback can break the rule
  have hother (ha : a ≠ .callback) (hinv : t.InTask t.task) :
      (NotWhileDropping s a → t.InTask t.task) ∧ (t.Safe → NotWhileDropping s a) :=
    ⟨fun _ => hinv, fun _ hc => absurd hc.1 ha⟩
  cases a with
  | alloc null =>
    apply hother (fun hc => by cases hc)
    simp only [step] at ht
    split at ht
    next hp =>
      rw [hp] at h
      subst h
      split_ifs at ht <;> cases ht
      · exact ⟨Or.inl rfl, rfl, Or.inl rfl, rfl⟩
      · rfl
    next => cases ht
  | fill =>
    apply hother (fun hc => by cases hc)
    simp only [step] at ht
    split at ht
    next hp =>
      rw [hp] at h
      subst h
      cases ht
      rfl
    next => cases ht
  | submit ret =>
    apply hother (fun hc => by cases hc)
    simp only [step] at ht
    split at ht
    next hp =>
      rw [hp] at h
      subst h
      split_ifs at ht <;> cases ht
      · exact ⟨Or.inr rfl, rfl, Or.inr rfl, rfl⟩
      · exact ⟨rfl, rfl, rfl, rfl, rfl, fun hc => by cases hc⟩
    next => cases ht
  | poll =>
    apply hother (fun hc => by cases hc)
    simp only [step] at ht
    split at ht
    next hp hsent =>
      cases ht
      rw [hp] at h
      obtain ⟨htransfer, hbuffer, huserData, hsender, hcompleted, -⟩ := h
      -- the callback sends after it has set the flag
      have hdone : s.completed = true := by
        rw [hsent] at hsender
        rw [hcompleted]
        cases hc : s.callback <;> rw [hc] at hsender <;> first | rfl | cases hsender
      change InTask _ s.task
      rw [hp]
      exact ⟨htransfer, hbuffer, huserData, hsender, hcompleted, fun _ => hdone⟩
    next => cases ht
  | drop =>
    apply hother (fun hc => by cases hc)
    simp only [step] at ht
    split at ht
    next hp =>
      rw [hp] at h
      cases ht
      have hleft : Left { s with task := if s.completed then .closed else .dropping } :=
        ⟨h.transfer, h.buffer, h.userData, h.sender, h.completed, h.got⟩
      cases hcompleted : s.completed <;> rw [hcompleted] at hleft
      · -- the callback has not begun
        have hidle := h.completed
        rw [hcompleted] at hidle
        refine ⟨hleft, ?_, Bool.eq_false_iff.mpr fun hgot => ?_⟩
        · refine h.transfer.trans ?_
          cases hc : s.callback <;> rw [hc] at hidle <;> first | rfl | cases hidle
        · cases hcompleted.symm.trans (h.got hgot)
      · exact hleft
    next => cases ht
  | cancel =>
    apply hother (fun hc => by cases hc)
    simp only [step] at ht
    split at ht
    next hp =>
      cases ht
      rw [hp] at h
      obtain ⟨hleft, hlive, -⟩ := h
      -- the transfer is live, so that cancelling it uses it and frees nothing
      have huse : s.transfer.use = s.transfer := by
        rw [hlive]
        rfl
      exact ⟨huse.trans hleft.transfer, hleft.buffer, hleft.userData, hleft.sender,
        hleft.completed, hleft.got⟩
    next => cases ht
  | callback =>
    simp only [step] at ht
    split_ifs at ht with hsubmitted
    exact inTask_callback h hsubmitted ht

/-- In every run the memory of a transfer and its sender are freed just once and
used only while they are there, whatever the transfer comes to and whenever the
handle is dropped, precisely if no callback frees the transfer between the two
statements of `drop`. -/
theorem safe_iff (as : List Action) : StepSystem.EveryState step Safe start as ↔
    StepSystem.EveryStep step NotWhileDropping start as := by
  have hstart : start.InTask start.task := rfl
  exact StepSystem.everyState_iff_everyStep (fun _ _ _ h ht => inTask_step h ht)
    (fun _ h => safe_of_inTask h) hstart as

/-- A handle is dropped just before the callback comes. -/
example : ¬StepSystem.EveryStep step NotWhileDropping start
    [.alloc false, .fill, .submit 0, .drop, .callback, .callback, .callback, .callback,
      .callback] := by
  decide

end TransferOwnership

end Rusbmux
