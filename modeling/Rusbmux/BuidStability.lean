import Rusbmux.FileSystem
import Rusbmux.ClientHandler

/-! The requests of any number of clients that read and write files of the
lockdown directory: src/handler/read_buid.rs and the handlers of pair records. A
step is one call of the file system; in `fs::write` they are two, the second of
which writes all. -/
namespace Rusbmux

/-- Where the handling of a request is. -/
inductive FilePhase where
  /-- ReadBUID: `path.exists()` is next. -/
  | checking
  /-- ReadBUID: the new system configuration is written. -/
  | creating (content : Bytes)
  | writing (file : ℕ) (content : Bytes)
  /-- ReadBUID: `plist::from_file` is next. -/
  | opening
  | reading (file : ℕ)
  /-- ReadBUID: the reply is next. -/
  | answering (buid : String)
  | saving (path : String) (content : Bytes)
  | savingTo (file : ℕ) (content : Bytes)
  | loading (path : String)
  | deleting (path : String)
  deriving DecidableEq

inductive FileRequest where
  | readBUID
  | record (request : RecordRequest)
  deriving DecidableEq

/-- `HandlerHost` with the file system: the file that a path names. Where case is
ignored in names, or with links, several paths name one file. -/
structure FileHost extends HandlerHost where
  fileName : String → String

/-- The files, the clients whose request is being handled, and the BUIDs that
were sent. `altered` is no part of the program: whether a request for a pair
record has changed the system configuration. -/
structure BuidStore where
  files : FileSystem String UInt8
  clients : KeyTable ℕ FilePhase
  answers : List String
  altered : Bool

namespace BuidStore

inductive Action where
  /-- The client sends a request. -/
  | begin (c : ℕ) (request : FileRequest)
  /-- `path.exists()`, which says no if it cannot tell. -/
  | check (c : ℕ) (fails : Bool) (uuid : String)
  /-- The next call of the client's handler. -/
  | proceed (c : ℕ)
  /-- The next call fails. -/
  | fail (c : ℕ)

section

variable (host : FileHost) (s : BuidStore) (c : ℕ)

/-- The file of the system configuration. -/
def configFile : String := host.fileName (configPath host.toHandlerHost)

def recordFile (id : String) : String := host.fileName (recordPath host.toPairRecordHost id)

/-- The first phase of a request, none if its id is malformed. -/
def phaseOf : FileRequest → Option FilePhase
  | .readBUID => some .checking
  | .record (.savePairRecord id data _) => if malformedId id then none
    else some (.saving (recordFile host id) (host.xml.toXml (.data data)))
  | .record (.readPairRecord id) => if malformedId id then none
    else some (.loading (recordFile host id))
  | .record (.deletePairRecord id) => if malformedId id then none
    else some (.deleting (recordFile host id))

/-- The BUID that a file of this content gives. -/
def buidOf (content : Bytes) : Option String :=
  match host.xml.fromBytes content with
  | .ok value => (systemBUID value).toOption
  | .error _ => none

def set (phase : FilePhase) : BuidStore := { s with clients := s.clients.insert c phase }

def finish : BuidStore := { s with clients := s.clients.remove c }

/-- The files after a call for a pair record. -/
def alter (files : FileSystem String UInt8) : BuidStore := { s with
  files := files
  altered := s.altered ||
    decide (files.content (configFile host) ≠ s.files.content (configFile host)) }

def proceed : FilePhase → Option BuidStore
  | .checking => none
  | .creating content => some { s.set c (.writing (s.files.created (configFile host)) content) with
      files := s.files.create (configFile host) }
  | .writing file content => some { s.set c .opening with files := s.files.write file content }
  | .opening => match s.files.file (configFile host) with
    | some file => some (s.set c (.reading file))
    | none => some (s.finish c)
  | .reading file => match buidOf host (s.files.data file) with
    | some buid => some (s.set c (.answering buid))
    | none => some (s.finish c)
  | .answering buid => some { s.finish c with answers := s.answers ++ [buid] }
  | .saving path content =>
    some ((s.set c (.savingTo (s.files.created path) content)).alter host (s.files.create path))
  | .savingTo file content => some ((s.finish c).alter host (s.files.write file content))
  | .loading _ => some (s.finish c)
  | .deleting path => match s.files.file path with
    | some _ => some ((s.finish c).alter host (s.files.remove path))
    | none => some (s.finish c)

def step : Action → Option BuidStore
  | .begin c request => match s.clients.get c with
    -- a client is handled one request after the other
    | some _ => none
    | none => match phaseOf host request with
      | some phase => some (s.set c phase)
      | none => some s
  | .check c fails uuid => match s.clients.get c with
    | some .checking =>
      if !fails && (s.files.file (configFile host)).isSome then some (s.set c .opening)
      else some (s.set c (.creating
        (host.xml.toXml (.dictionary [("SystemBUID", .string uuid)]))))
    | _ => none
  | .proceed c => (s.clients.get c).bind (s.proceed host c)
  | .fail c => (s.clients.get c).map fun _ => s.finish c

end

def start (files : FileSystem String UInt8) : BuidStore := ⟨files, .empty, [], false⟩

/-- Every ReadBUID was answered with the same BUID, and no request for a pair
record has changed the system configuration. -/
structure Stable (s : BuidStore) : Prop where
  same : ∀ b ∈ s.answers, ∀ b' ∈ s.answers, b = b'
  unaltered : s.altered = false

/-- The BUID was read, and is sent or about to be. -/
def Held (s : BuidStore) (b : String) : Prop :=
  b ∈ s.answers ∨ ∃ c, s.clients.get c = some (.answering b)

/-- A new system configuration is written only while no BUID has been read, and
no pair record whose path names the system configuration is saved or, if the file
is there, deleted. -/
def Safe (host : FileHost) (s : BuidStore) : Action → Prop
  | .proceed c => match s.clients.get c with
    | some (.creating _) | some (.writing _ _) => ∀ b, ¬s.Held b
    | some (.saving path _) => path ≠ configFile host
    | some (.deleting path) => path = configFile host → s.files.file path = none
    | _ => True
  | _ => True

/-- The one accepted id that names the system configuration. -/
theorem recordPath_eq_configPath_iff (host : HandlerHost) (id : String) :
    recordPath host.toPairRecordHost id = configPath host ↔ id = "SystemConfiguration" := by
  unfold recordPath configPath
  constructor
  · intro h
    have hlist := congrArg String.toList h
    simp only [String.toList_append, List.append_assoc] at hlist
    have htail : "/".toList ++ (id.toList ++ ".plist".toList) =
        "/".toList ++ ("SystemConfiguration".toList ++ ".plist".toList) :=
      List.append_cancel_left hlist
    have hid : id.toList = "SystemConfiguration".toList :=
      List.append_cancel_right (List.append_cancel_left htail)
    exact String.toList_injective hid
  · rintro rfl
    apply String.toList_injective
    simp only [String.toList_append, List.append_assoc]
    rfl

theorem recordFile_eq_configFile_iff (host : FileHost) (h : Function.Injective host.fileName)
    (id : String) : recordFile host id = configFile host ↔ id = "SystemConfiguration" :=
  h.eq_iff.trans (recordPath_eq_configPath_iff host.toHandlerHost id)

section

variable (host : FileHost) (files : FileSystem String UInt8)

/-- What a handler relies on: the file that it has open is the system
configuration, or it is not, and the BUID that it has read is the one there. -/
def Fits : FilePhase → Prop
  | .reading i | .writing i _ => files.file (configFile host) = some i
  | .savingTo i _ => i < files.next ∧ files.file (configFile host) ≠ some i
  | .answering buid => (files.content (configFile host)).bind (buidOf host) = some buid
  | _ => True

/-- What holds while no new configuration is written beside one that was read. -/
structure Inv (s : BuidStore) : Prop where
  phases : ∀ c phase, s.clients.get c = some phase → Fits host s.files phase
  answers : ∀ b ∈ s.answers, Fits host s.files (.answering b)
  unaltered : s.altered = false

end

variable {host : FileHost} {s t : BuidStore} {files files' : FileSystem String UInt8}
  {c : ℕ} {phase : FilePhase}

theorem inv_start (host : FileHost) (files : FileSystem String UInt8) :
    Inv host (start files) := by
  refine ⟨?_, ?_, rfl⟩
  · intro c phase h
    cases h
  · intro b hb
    cases hb

theorem Inv.stable (h : s.Inv host) : s.Stable := by
  refine ⟨fun b hb b' hb' => ?_, h.unaltered⟩
  have hread : some b = some b' := (h.answers b hb).symm.trans (h.answers b' hb')
  exact Option.some.inj hread

/-- A client goes on to a phase whose files are what it takes them for. -/
theorem Inv.set (h : s.Inv host) (c : ℕ) (hfits : Fits host s.files phase) :
    (s.set c phase).Inv host := by
  refine ⟨fun d p hd => ?_, h.answers, h.unaltered⟩
  change (s.clients.insert c phase).get d = some p at hd
  rw [KeyTable.get_insert] at hd
  split_ifs at hd
  · cases hd
    exact hfits
  · exact h.phases d p hd

theorem Inv.finish (h : s.Inv host) (c : ℕ) : (s.finish c).Inv host := by
  refine ⟨fun d p hd => ?_, h.answers, h.unaltered⟩
  change (s.clients.remove c).get d = some p at hd
  rw [KeyTable.get_remove] at hd
  split_ifs at hd
  exact h.phases d p hd

/-- The system configuration is left as it is. -/
structure SparesConfig (host : FileHost) (files files' : FileSystem String UInt8) : Prop where
  file : files'.file (configFile host) = files.file (configFile host)
  content : files'.content (configFile host) = files.content (configFile host)
  next : files.next ≤ files'.next

theorem SparesConfig.fits (h : SparesConfig host files files') (hfits : Fits host files phase) :
    Fits host files' phase := by
  unfold Fits at hfits ⊢
  rw [h.file, h.content]
  cases phase with
  | savingTo i content => exact ⟨Nat.lt_of_lt_of_le hfits.1 h.next, hfits.2⟩
  | _ => exact hfits

theorem Inv.alter (h : s.Inv host) (hspares : SparesConfig host s.files files) :
    (s.alter host files).Inv host := by
  refine ⟨fun c phase hc => hspares.fits (h.phases c phase hc),
    fun b hb => hspares.fits (h.answers b hb), ?_⟩
  have hsame : files.content (configFile host) = s.files.content (configFile host) :=
    hspares.content
  simp only [BuidStore.alter, h.unaltered, hsame, ne_eq, not_true_eq_false, decide_false,
    Bool.or_self]

theorem sparesConfig_create {path : String} (h : path ≠ configFile host) :
    SparesConfig host files (files.create path) where
  file := FileSystem.file_create_of_ne files h.symm
  content := FileSystem.content_create_of_ne files h.symm
  next := FileSystem.next_le_create files path

theorem sparesConfig_write {i : ℕ} (h : files.file (configFile host) ≠ some i) (bytes : Bytes) :
    SparesConfig host files (files.write i bytes) where
  file := rfl
  content := FileSystem.content_write_of_ne files h bytes
  next := Nat.le_refl _

theorem sparesConfig_remove {path : String} (h : path ≠ configFile host) :
    SparesConfig host files (files.remove path) where
  file := FileSystem.file_remove_of_ne files h.symm
  content := FileSystem.content_remove_of_ne files h.symm
  next := Nat.le_refl _

/-- While no BUID was read, the system configuration may change. -/
theorem Inv.replace (h : s.Inv host) (hnone : ∀ b, ¬s.Held b)
    (hfits : ∀ phase, (∀ b, phase ≠ .answering b) → Fits host s.files phase →
      Fits host files phase) : ({ s with files := files } : BuidStore).Inv host := by
  refine ⟨fun c phase hc => hfits phase ?_ (h.phases c phase hc), fun b hb => ?_, h.unaltered⟩
  · rintro b rfl
    exact hnone b (.inr ⟨c, hc⟩)
  · exact absurd (.inl hb) (hnone b)

theorem fits_create (hother : ∀ b, phase ≠ .answering b) (h : Fits host files phase) :
    Fits host (files.create (configFile host)) phase := by
  cases phase with
  | reading i => exact FileSystem.file_create h _
  | writing i content => exact FileSystem.file_create h _
  | savingTo i content =>
    obtain ⟨hlt, hne⟩ := h
    refine ⟨Nat.lt_of_lt_of_le hlt (FileSystem.next_le_create _ _), ?_⟩
    rw [FileSystem.file_create_self]
    intro heq
    cases heq
    cases hfile : files.file (configFile host) with
    | none =>
      rw [FileSystem.created_of_none hfile] at hlt
      exact Nat.lt_irrefl _ hlt
    | some j =>
      rw [FileSystem.created_of_file hfile] at hne
      exact hne hfile
  | answering b => exact absurd rfl (hother b)
  | _ => trivial

theorem fits_write {i : ℕ} {bytes : Bytes} (hother : ∀ b, phase ≠ .answering b)
    (h : Fits host files phase) : Fits host (files.write i bytes) phase := by
  cases phase with
  | answering b => exact absurd rfl (hother b)
  | _ => exact h

/-- A pair record's file is another one than the system configuration. -/
theorem fits_savingTo {path : String} (h : path ≠ configFile host) (content : Bytes) :
    Fits host (files.create path) (.savingTo (files.created path) content) := by
  refine ⟨FileSystem.created_lt files path, ?_⟩
  rw [FileSystem.file_create_of_ne files h.symm]
  intro heq
  exact FileSystem.created_ne h.symm heq rfl

theorem Inv.proceed (h : s.Inv host) (hc : s.clients.get c = some phase)
    (hsafe : s.Safe host (.proceed c)) (hstep : s.proceed host c phase = some t) :
    t.Inv host := by
  have hfits := h.phases c phase hc
  simp only [Safe, hc] at hsafe
  cases phase with
  | checking => cases hstep
  | creating content =>
    cases hstep
    -- nobody has read a BUID, so the file may be truncated
    exact (h.replace hsafe fun p => fits_create).set c (FileSystem.file_create_self _ _)
  | writing i content =>
    cases hstep
    exact (h.replace hsafe fun p => fits_write).set c trivial
  | opening =>
    simp only [BuidStore.proceed] at hstep
    -- without the file the request fails
    cases hfile : s.files.file (configFile host) with
    | none =>
      rw [hfile] at hstep
      cases hstep
      exact h.finish c
    | some i =>
      rw [hfile] at hstep
      cases hstep
      exact h.set c hfile
  | reading i =>
    simp only [BuidStore.proceed] at hstep
    cases hbuid : buidOf host (s.files.data i) with
    | none =>
      rw [hbuid] at hstep
      cases hstep
      exact h.finish c
    | some buid =>
      rw [hbuid] at hstep
      cases hstep
      refine h.set c ?_
      rw [Fits, FileSystem.content_of_file hfits, Option.bind_some, hbuid]
  | answering buid =>
    cases hstep
    have hfinish := h.finish c
    -- the answer is what the file had when it was read, and still has
    refine ⟨hfinish.phases, fun b hb => ?_, h.unaltered⟩
    cases List.mem_append.mp hb with
    | inl hold => exact h.answers b hold
    | inr hnew =>
      rw [List.mem_singleton.mp hnew]
      exact hfits
  | saving path content =>
    cases hstep
    exact (h.alter (sparesConfig_create hsafe)).set c (fits_savingTo hsafe content)
  | savingTo i content =>
    cases hstep
    exact (h.finish c).alter (sparesConfig_write hfits.2 content)
  | loading path =>
    cases hstep
    exact h.finish c
  | deleting path =>
    simp only [BuidStore.proceed] at hstep
    cases hfile : s.files.file path with
    | none =>
      rw [hfile] at hstep
      cases hstep
      exact h.finish c
    | some i =>
      rw [hfile] at hstep
      cases hstep
      -- there is a file at the path, so it is not the configuration's
      have hne : path ≠ configFile host := by
        intro heq
        rw [hsafe heq] at hfile
        cases hfile
      exact (h.finish c).alter (sparesConfig_remove hne)

/-- No request begins with a file open. -/
theorem fits_phaseOf {request : FileRequest} (h : phaseOf host request = some phase) :
    Fits host files phase := by
  unfold phaseOf at h
  split at h
  · cases h
    trivial
  all_goals
    split_ifs at h
    cases h
    trivial

theorem Inv.step {a : Action} (h : s.Inv host) (hsafe : s.Safe host a)
    (hstep : s.step host a = some t) : t.Inv host := by
  cases a with
  | begin c request =>
    simp only [BuidStore.step] at hstep
    cases hc : s.clients.get c with
    | some phase =>
      rw [hc] at hstep
      cases hstep
    | none =>
      rw [hc] at hstep
      cases hphase : phaseOf host request with
      | none =>
        rw [hphase] at hstep
        cases hstep
        exact h
      | some phase =>
        rw [hphase] at hstep
        cases hstep
        exact h.set c (fits_phaseOf hphase)
  | check c fails uuid =>
    simp only [BuidStore.step] at hstep
    split at hstep
    · split_ifs at hstep
      · cases hstep
        exact h.set c trivial
      · cases hstep
        exact h.set c trivial
    · cases hstep
  | proceed c =>
    obtain ⟨phase, hc, hnext⟩ := Option.bind_eq_some_iff.mp hstep
    exact h.proceed hc hsafe hnext
  | fail c =>
    obtain ⟨phase, -, rfl⟩ := Option.map_eq_some_iff.mp hstep
    exact h.finish c

/-- Over every interleaving of the clients' file operations, all answers carry
one BUID and no pair record touches it, as long as every step is safe. -/
theorem stable_of_safe (host : FileHost) (files : FileSystem String UInt8) (as : List Action)
    (h : StepSystem.EveryStep (step host) (Safe host) (start files) as) :
    StepSystem.EveryState (step host) Stable (start files) as := by
  have hrun := StepSystem.everyState_of_everyStep
    (fun s a t (hs : Inv host s) hsafe hst => hs.step hsafe hst) (inv_start host files) h
  exact hrun.mono fun s hs => hs.stable

/-- The system configurations of two BUIDs, each a file of one byte. -/
def twoBuids : FileHost where
  xml := {
    toXml := fun
      | .dictionary [("SystemBUID", .string "A")] => [65]
      | .dictionary [("SystemBUID", .string "B")] => [66]
      | _ => []
    fromBytes := fun
      | [65] => .ok (.dictionary [("SystemBUID", .string "A")])
      | [66] => .ok (.dictionary [("SystemBUID", .string "B")])
      | _ => .error "unexpected end of input" }
  lockdownPath := "/var/lib/lockdown"
  fromValue := fun _ => .error "missing field MessageType"
  fileName := id

/-- A client creates the system configuration and another one reads it, while a
third saves a pair record. -/
def inTurn : List Action :=
  [.begin 0 .readBUID, .check 0 false "A", .begin 2 (.record (.savePairRecord "device" [1] none)),
    .proceed 0, .proceed 2, .proceed 0, .proceed 0, .proceed 0, .proceed 0,
    .begin 1 .readBUID, .check 1 false "B", .proceed 1, .proceed 2, .proceed 1, .proceed 1]

theorem not_held_of_empty (hanswers : s.answers = [])
    (hclients : s.clients.any (fun _ p => match p with
      | .answering _ => true
      | _ => false) = false) (b : String) : ¬s.Held b := by
  intro h
  cases h with
  | inl hsent =>
    rw [hanswers] at hsent
    cases hsent
  | inr hread =>
    obtain ⟨c, hc⟩ := hread
    have hnot := (KeyTable.any_eq_false_iff _ _).mp hclients c _ hc
    cases hnot

theorem stable_inTurn : StepSystem.EveryState (step twoBuids) Stable (start .empty) inTurn := by
  apply stable_of_safe
  have hempty (s : BuidStore) (hanswers : s.answers = [])
      (hclients : s.clients.any (fun _ p => match p with
        | .answering _ => true
        | _ => false) = false) : ∀ b, ¬s.Held b := not_held_of_empty hanswers hclients
  have hpath : recordFile twoBuids "device" ≠ configFile twoBuids := by decide
  exact ⟨trivial, trivial, trivial, hempty _ rfl rfl, hpath, hempty _ rfl rfl, trivial, trivial,
    trivial, trivial, trivial, trivial, trivial, trivial, trivial, trivial⟩

/-- Two clients find no system configuration, and the second writes its own when
the first has read the other. -/
def raced : List Action :=
  [.begin 0 .readBUID, .begin 1 .readBUID, .check 0 false "A", .check 1 false "B",
    .proceed 0, .proceed 0, .proceed 0, .proceed 0, .proceed 0,
    .proceed 1, .proceed 1, .proceed 1, .proceed 1, .proceed 1]

theorem not_stable_raced : ¬ ∀ (host : FileHost) (files : FileSystem String UInt8)
    (as : List Action), StepSystem.EveryState (step host) Stable (start files) as := by
  intro h
  have hlast := (h twoBuids .empty raced).last rfl
  have hsame := hlast.same "A" (by decide) "B" (by decide)
  exact absurd hsame (by decide)

end BuidStore

end Rusbmux
