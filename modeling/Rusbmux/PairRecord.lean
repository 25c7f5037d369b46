import Rusbmux.UsbMux
import Rusbmux.Errors
import Rusbmux.KeyTable
import Rusbmux.StepSystem
import Mathlib.Logic.Function.Basic

/-! The pair records: src/handler/save_pair_record.rs, read_pair_record.rs and
delete_pair_record.rs, over a file system that returns what was written. -/
namespace Rusbmux

/-- What the handlers share: the plist codec, and the directory of the target. -/
structure PairRecordHost where
  xml : PlistXml
  lockdownPath : String

/-- The error that the file system or the client's socket answers with, if any. -/
structure IoFaults where
  fileSystem : Option IoErrorKind
  client : Option IoErrorKind
  /-- The bytes that a write which fails gets into the emptied file, if it opens it. -/
  written : Option ℕ
  deriving DecidableEq, Repr

/-- The files, and the packets that the client was sent. -/
structure RecordState where
  files : KeyTable String Bytes
  sent : List Bytes

/-- A handler keeps what it has done when it fails. -/
def Handler (α : Type) : Type := RecordState → Except RusbmuxError α × RecordState

namespace Handler

variable {α β : Type}

instance : Monad Handler where
  pure a := fun s => (.ok a, s)
  bind m f := fun s => match m s with
    | (.ok a, s) => f a s
    | (.error e, s) => (.error e, s)

def throw (e : RusbmuxError) : Handler α := fun s => (.error e, s)

theorem bind_eq_ok_iff {m : Handler α} {f : α → Handler β} {s u : RecordState} {b : β} :
    (m >>= f) s = (.ok b, u) ↔ ∃ a t, m s = (.ok a, t) ∧ f a t = (.ok b, u) := by
  change (match m s with
    | (.ok a, s) => f a s
    | (.error e, s) => (.error e, s)) = _ ↔ _
  rcases hm : m s with ⟨_ | a, t⟩
  · simp only [Prod.mk.injEq, reduceCtorEq, false_and, exists_false]
  · constructor
    · intro h
      exact ⟨a, t, rfl, h⟩
    · rintro ⟨a', t', h, hf⟩
      cases h
      exact hf

theorem throw_ne_ok (e : RusbmuxError) (s t : RecordState) (a : α) :
    throw e s ≠ (.ok a, t) := by
  intro h
  cases h

end Handler

section

variable (host : PairRecordHost) (faults : IoFaults)

/-- `contains("..")` -/
def hasDotDot : List Char → Bool
  | '.' :: '.' :: _ => true
  | _ :: cs => hasDotDot cs
  | [] => false

def malformedId (pairRecordId : String) : Bool :=
  pairRecordId.toList.contains '/' || pairRecordId.toList.contains '\\' ||
    hasDotDot pairRecordId.toList

def checkId (pairRecordId : String) : Handler Unit :=
  if malformedId pairRecordId then
    Handler.throw (.unexpectedPacket "Given pair record id is malformed")
  else pure ()

def recordPath (pairRecordId : String) : String :=
  host.lockdownPath ++ "/" ++ pairRecordId ++ ".plist"

/-- The files after a write that fails. -/
def leftFiles (files : KeyTable String Bytes) (path : String) (content : Bytes) :
    KeyTable String Bytes :=
  match faults.written with
  | none => files
  | some n => files.insert path (content.take n)

/-- `tokio::fs::write` -/
def fsWrite (path : String) (content : Bytes) : Handler Unit := fun s =>
  match faults.fileSystem with
  | some kind => (.error (.io kind), { s with files := leftFiles faults s.files path content })
  | none => (.ok (), { s with files := s.files.insert path content })

/-- `tokio::fs::read` -/
def fsRead (path : String) : Handler Bytes := fun s =>
  match faults.fileSystem, s.files.get path with
  | some kind, _ => (.error (.io kind), s)
  | none, none => (.error (.io .notFound), s)
  | none, some content => (.ok content, s)

/-- `tokio::fs::remove_file` -/
def fsRemove (path : String) : Handler Unit := fun s =>
  match faults.fileSystem, s.files.get path with
  | some kind, _ => (.error (.io kind), s)
  | none, none => (.error (.io .notFound), s)
  | none, some _ => (.ok (), { s with files := s.files.remove path })

/-- `writer.write_all` -/
def writeAll (packet : Bytes) : Handler Unit := fun s =>
  match faults.client with
  | some kind => (.error (.io kind), s)
  | none => (.ok (), { s with sent := s.sent ++ [packet] })

def sendResult (code : ResultCode) (tag : UInt32) : Handler Unit :=
  writeAll faults (resultPacket host.xml code tag)

def pairedMessage (deviceId : UInt64) : PlistValue :=
  .dictionary [("MessageType", .string "Paired"), ("DeviceID", .integer deviceId.toNat)]

def savePairRecord (pairRecordId : String) (pairRecordData : Bytes) (deviceId : Option UInt64)
    (tag : UInt32) : Handler Unit := do
  checkId pairRecordId
  -- the data is wrapped: the file gets the XML document of a data value
  fsWrite faults (recordPath host pairRecordId) (host.xml.toXml (.data pairRecordData))
  match deviceId with
  | some deviceId => writeAll faults (plistMessage host.xml (pairedMessage deviceId) tag)
  | none => pure ()

def recordReply (pairingFile : Bytes) : PlistValue :=
  .dictionary [("PairRecordData", .data pairingFile)]

def readPairRecord (pairRecordId : String) (tag : UInt32) : Handler Unit := do
  checkId pairRecordId
  -- the content of the file goes into the reply as it is, without being parsed
  let pairingFile ← fsRead faults (recordPath host pairRecordId)
  writeAll faults (plistMessage host.xml (recordReply pairingFile) tag)

def deletePairRecord (pairRecordId : String) : Handler Unit := do
  checkId pairRecordId
  fsRemove faults (recordPath host pairRecordId)

/-- The result sent for an error, where `noSuchFile` says which kinds of an IO
error count as a missing file. -/
def sendError (noSuchFile : List IoErrorKind) (e : RusbmuxError) (tag : UInt32) : Handler Unit :=
  match e with
  | .unexpectedPacket _ => sendResult host faults .badCommand tag
  | .io kind =>
    if kind ∈ noSuchFile then sendResult host faults .badDeviceOrNoSuchFile tag else pure ()
  | _ => pure ()

/-- The error is returned after its result is sent. -/
def refuse (noSuchFile : List IoErrorKind) (e : RusbmuxError) (tag : UInt32) : Handler Unit := do
  sendError host faults noSuchFile e tag
  Handler.throw e

def handleSavePairRecord (pairRecordId : String) (pairRecordData : Bytes)
    (deviceId : Option UInt64) (tag : UInt32) : Handler Unit := fun s =>
  match savePairRecord host faults pairRecordId pairRecordData deviceId tag s with
  | (.ok (), s) => sendResult host faults .ok tag s
  | (.error e, s) => refuse host faults [.permissionDenied, .notFound] e tag s

def handleReadPairRecord (pairRecordId : String) (tag : UInt32) : Handler Unit := fun s =>
  match readPairRecord host faults pairRecordId tag s with
  | (.ok (), s) => (.ok (), s)
  | (.error e, s) => refuse host faults [.permissionDenied, .notFound] e tag s

def handleDeletePairRecord (pairRecordId : String) (tag : UInt32) : Handler Unit := fun s =>
  match deletePairRecord host faults pairRecordId s with
  | (.ok (), s) => sendResult host faults .ok tag s
  | (.error e, s) => refuse host faults [.notFound] e tag s

end

inductive RecordRequest where
  | savePairRecord (pairRecordId : String) (pairRecordData : Bytes) (deviceId : Option UInt64)
  | readPairRecord (pairRecordId : String)
  | deletePairRecord (pairRecordId : String)
  deriving DecidableEq, Repr

def handleRecord (host : PairRecordHost) (faults : IoFaults) (tag : UInt32) :
    RecordRequest → Handler Unit
  | .savePairRecord id data deviceId => handleSavePairRecord host faults id data deviceId tag
  | .readPairRecord id => handleReadPairRecord host faults id tag
  | .deletePairRecord id => handleDeletePairRecord host faults id tag

theorem checkId_of_malformed {id : String} (h : malformedId id = true) (s : RecordState) :
    checkId id s = (.error (.unexpectedPacket "Given pair record id is malformed"), s) := by
  simp only [checkId, h, if_true, Handler.throw]

theorem checkId_of_wellformed {id : String} (h : malformedId id = false) (s : RecordState) :
    checkId id s = (.ok (), s) := by
  simp only [checkId, h, Bool.false_eq_true, if_false]
  rfl

theorem checkId_eq_ok_iff {id : String} {s t : RecordState} :
    checkId id s = (.ok (), t) ↔ malformedId id = false ∧ t = s := by
  cases h : malformedId id with
  | true =>
    rw [checkId_of_malformed h]
    exact iff_of_false (fun he => by cases he) fun hf => by cases hf.1
  | false =>
    rw [checkId_of_wellformed h]
    constructor
    · rintro ⟨⟩
      exact ⟨rfl, rfl⟩
    · rintro ⟨-, rfl⟩
      rfl

section

variable {host : PairRecordHost} {faults : IoFaults} {s t : RecordState}

theorem leftFiles_of_ne (files : KeyTable String Bytes) {path path' : String} (content : Bytes)
    (h : path' ≠ path) : (leftFiles faults files path content).get path' = files.get path' := by
  unfold leftFiles
  cases faults.written with
  | none => rfl
  | some n => exact KeyTable.get_insert_of_ne _ _ h

/-- A write that fails leaves the file, or a prefix of the content. -/
theorem leftFiles_self (files : KeyTable String Bytes) (path : String) (content : Bytes) :
    (leftFiles faults files path content).get path = files.get path ∨
      ∃ n, (leftFiles faults files path content).get path = some (content.take n) := by
  unfold leftFiles
  cases faults.written with
  | none => exact .inl rfl
  | some n => exact .inr ⟨n, KeyTable.get_insert_self _ _ _⟩

/-- Whatever a write comes to, it leaves each file, or in its own a prefix of the
content. -/
theorem fsWrite_get (path : String) (content : Bytes) (s : RecordState) (path' : String) :
    (fsWrite faults path content s).2.files.get path' = s.files.get path' ∨
      path' = path ∧ ∃ part, part <+: content ∧
        (fsWrite faults path content s).2.files.get path' = some part := by
  unfold fsWrite
  by_cases hpath : path' = path
  · subst hpath
    cases faults.fileSystem with
    | some kind =>
      rcases leftFiles_self s.files path' content with hkept | ⟨n, hcut⟩
      · exact .inl hkept
      · exact .inr ⟨rfl, _, List.take_prefix n content, hcut⟩
    | none => exact .inr ⟨rfl, content, List.prefix_refl _, KeyTable.get_insert_self _ _ _⟩
  · left
    cases faults.fileSystem with
    | some kind => exact leftFiles_of_ne s.files content hpath
    | none => exact KeyTable.get_insert_of_ne _ _ hpath

theorem fsWrite_eq_ok {path : String} {content : Bytes}
    (h : fsWrite faults path content s = (.ok (), t)) :
    t = { s with files := s.files.insert path content } := by
  unfold fsWrite at h
  split at h <;> cases h
  rfl

theorem fsRead_eq_ok {path : String} {content : Bytes}
    (h : fsRead faults path s = (.ok content, t)) : s.files.get path = some content ∧ t = s := by
  unfold fsRead at h
  split at h
  · cases h
  · cases h
  · rename_i hget
    cases h
    exact ⟨hget, rfl⟩

theorem fsRemove_eq_ok {path : String} (h : fsRemove faults path s = (.ok (), t)) :
    t = { s with files := s.files.remove path } := by
  unfold fsRemove at h
  split at h <;> cases h
  rfl

theorem writeAll_eq_ok {packet : Bytes} (h : writeAll faults packet s = (.ok (), t)) :
    t = { s with sent := s.sent ++ [packet] } := by
  unfold writeAll at h
  split at h <;> cases h
  rfl

/-- A request that is refused does not succeed. -/
theorem refuse_ne_ok (kinds : List IoErrorKind) (e : RusbmuxError) (tag : UInt32) :
    refuse host faults kinds e tag s ≠ (.ok (), t) := by
  intro h
  obtain ⟨_, u, -, hthrow⟩ := Handler.bind_eq_ok_iff.mp h
  exact Handler.throw_ne_ok e u t () hthrow

/-- A save that succeeds leaves the data's XML in the file of its id. -/
theorem handleSavePairRecord_files {id : String} {data : Bytes} {deviceId : Option UInt64}
    {tag : UInt32} (h : handleSavePairRecord host faults id data deviceId tag s = (.ok (), t)) :
    t.files = s.files.insert (recordPath host id) (host.xml.toXml (.data data)) := by
  unfold handleSavePairRecord at h
  split at h
  · rename_i u hsave
    rw [writeAll_eq_ok h]
    obtain ⟨_, s₁, hid, hrest⟩ := Handler.bind_eq_ok_iff.mp hsave
    obtain ⟨_, s₂, hwrite, hpaired⟩ := Handler.bind_eq_ok_iff.mp hrest
    rw [(checkId_eq_ok_iff.mp hid).2] at hwrite
    have hfiles := congrArg RecordState.files (fsWrite_eq_ok hwrite)
    cases deviceId with
    | none =>
      cases hpaired
      exact hfiles
    | some deviceId =>
      rw [writeAll_eq_ok hpaired]
      exact hfiles
  · exact absurd h (refuse_ne_ok _ _ _)

/-- A read that succeeds sends what is in the file of its id. -/
theorem handleReadPairRecord_sent {id : String} {tag : UInt32}
    (h : handleReadPairRecord host faults id tag s = (.ok (), t)) :
    ∃ content, s.files.get (recordPath host id) = some content ∧
      t = { s with sent := s.sent ++ [plistMessage host.xml (recordReply content) tag] } := by
  unfold handleReadPairRecord at h
  split at h
  · rename_i u hread
    cases h
    obtain ⟨_, s₁, hid, hrest⟩ := Handler.bind_eq_ok_iff.mp hread
    obtain ⟨content, s₂, hfile, hwrite⟩ := Handler.bind_eq_ok_iff.mp hrest
    rw [(checkId_eq_ok_iff.mp hid).2] at hfile
    obtain ⟨hget, rfl⟩ := fsRead_eq_ok hfile
    exact ⟨content, hget, writeAll_eq_ok hwrite⟩
  · exact absurd h (refuse_ne_ok _ _ _)

/-- A delete that succeeds removes the file of its id. -/
theorem handleDeletePairRecord_files {id : String} {tag : UInt32}
    (h : handleDeletePairRecord host faults id tag s = (.ok (), t)) :
    t.files = s.files.remove (recordPath host id) := by
  unfold handleDeletePairRecord at h
  split at h
  · rename_i u hdelete
    rw [writeAll_eq_ok h]
    obtain ⟨_, s₁, hid, hremove⟩ := Handler.bind_eq_ok_iff.mp hdelete
    rw [(checkId_eq_ok_iff.mp hid).2] at hremove
    exact congrArg RecordState.files (fsRemove_eq_ok hremove)
  · exact absurd h (refuse_ne_ok _ _ _)

end

/-- Without faults, a save of an accepted id succeeds. -/
theorem serve_savePairRecord (host : PairRecordHost) (s : RecordState) {id : String}
    (data : Bytes) (tag : UInt32) (hid : malformedId id = false) :
    handleSavePairRecord host ⟨none, none, none⟩ id data none tag s =
      (.ok (), { files := s.files.insert (recordPath host id) (host.xml.toXml (.data data))
                 sent := s.sent ++ [resultPacket host.xml .ok tag] }) := by
  have hcheck : checkId id = pure () := by
    simp only [checkId, hid, Bool.false_eq_true, if_false]
  unfold handleSavePairRecord savePairRecord
  rw [hcheck]
  rfl

/-- Without faults, a read of an accepted id succeeds if its file is there. -/
theorem serve_readPairRecord (host : PairRecordHost) (s : RecordState) {id : String}
    {content : Bytes} (tag : UInt32) (hid : malformedId id = false)
    (hget : s.files.get (recordPath host id) = some content) :
    handleReadPairRecord host ⟨none, none, none⟩ id tag s =
      (.ok (), { s with
        sent := s.sent ++ [plistMessage host.xml (recordReply content) tag] }) := by
  have hcheck : checkId id = pure () := by
    simp only [checkId, hid, Bool.false_eq_true, if_false]
  have hread : fsRead ⟨none, none, none⟩ (recordPath host id) s = (.ok content, s) := by
    simp only [fsRead, hget]
  have hrun : readPairRecord host ⟨none, none, none⟩ id tag s =
      (.ok (), { s with
        sent := s.sent ++ [plistMessage host.xml (recordReply content) tag] }) := by
    unfold readPairRecord
    rw [hcheck]
    exact Handler.bind_eq_ok_iff.mpr ⟨(), s, rfl,
      Handler.bind_eq_ok_iff.mpr ⟨content, s, hread, rfl⟩⟩
  unfold handleReadPairRecord
  rw [hrun]

/-- Two ids never share a file. -/
theorem recordPath_injective (host : PairRecordHost) : Function.Injective (recordPath host) := by
  intro a b h
  have hchars := congrArg String.toList h
  simp only [recordPath, String.toList_append, List.append_cancel_right_eq,
    List.append_cancel_left_eq] at hchars
  exact String.toList_inj.mp hchars

/-- What the store is for: the data last saved under each id. -/
abbrev PairRecords := String → Option Bytes

def PairRecords.track (records : PairRecords) : RecordRequest → PairRecords
  | .savePairRecord id data _ => Function.update records id (some data)
  | .readPairRecord _ => records
  | .deletePairRecord id => Function.update records id none

/-- The data of the last save of each id that no delete of the id follows. -/
def lastSaved (requests : List RecordRequest) : PairRecords :=
  requests.foldl PairRecords.track fun _ => none

/-- A request as it is served: its tag, and what goes wrong outside. -/
structure Served where
  request : RecordRequest
  tag : UInt32
  faults : IoFaults
  deriving DecidableEq, Repr

/-- The step of a request that succeeds. -/
def serve (host : PairRecordHost) (s : RecordState) (r : Served) : Option RecordState :=
  match handleRecord host r.faults r.tag r.request s with
  | (.ok (), t) => some t
  | (.error _, _) => none

theorem serve_eq_some_iff {host : PairRecordHost} {s t : RecordState} {r : Served} :
    serve host s r = some t ↔ handleRecord host r.faults r.tag r.request s = (.ok (), t) := by
  unfold serve
  split
  · rename_i u h
    simp only [h, Option.some.injEq, Prod.mk.injEq, true_and]
  · rename_i e u h
    simp only [h, reduceCtorEq, Prod.mk.injEq, false_and]

/-- The file of every saved id holds the XML of the data saved. -/
def Stores (host : PairRecordHost) (records : PairRecords) (s : RecordState) : Prop :=
  ∀ id data, records id = some data →
    s.files.get (recordPath host id) = some (host.xml.toXml (.data data))

theorem stores_serve {host : PairRecordHost} {records : PairRecords} {s t : RecordState}
    {r : Served} (h : Stores host records s) (hst : serve host s r = some t) :
    Stores host (records.track r.request) t := by
  have hok := serve_eq_some_iff.mp hst
  obtain ⟨request, tag, faults⟩ := r
  intro id data hid
  cases request with
  | savePairRecord id' data' deviceId =>
    rw [handleSavePairRecord_files hok, KeyTable.get_insert]
    simp only [PairRecords.track, Function.update_apply] at hid
    split_ifs at hid with hsame
    · -- the id that is saved
      cases hid
      rw [hsame, if_pos rfl]
    · rw [if_neg fun hp => hsame (recordPath_injective host hp)]
      exact h id data hid
  | readPairRecord id' =>
    -- a read leaves the files
    obtain ⟨content, -, rfl⟩ := handleReadPairRecord_sent hok
    exact h id data hid
  | deletePairRecord id' =>
    rw [handleDeletePairRecord_files hok, KeyTable.get_remove]
    simp only [PairRecords.track, Function.update_apply] at hid
    split_ifs at hid with hsame
    rw [if_neg fun hp => hsame (recordPath_injective host hp)]
    exact h id data hid

theorem stores_run {host : PairRecordHost} {records : PairRecords} {s t : RecordState}
    {rs : List Served} (h : Stores host records s)
    (hrun : StepSystem.after (serve host) s rs = some t) :
    Stores host ((rs.map Served.request).foldl PairRecords.track records) t := by
  induction rs generalizing s records with
  | nil =>
    cases hrun
    exact h
  | cons r rs ih =>
    obtain ⟨u, hu, htu⟩ := Option.bind_eq_some_iff.mp hrun
    exact ih (stores_serve h hu) htu

/-- The `PairRecordData` of a reply. -/
def replyData (xml : PlistXml) (packet : Bytes) : Option Bytes :=
  match xml.fromBytes (packet.drop UsbMuxHeader.SIZE) with
  | .ok (.dictionary entries) => match entries.lookup "PairRecordData" with
    | some (.data b) => some b
    | _ => none
  | _ => none

theorem replyData_recordReply {xml : PlistXml} {content : Bytes} (tag : UInt32)
    (hdecode : xml.fromBytes (xml.toXml (recordReply content)) = .ok (recordReply content)) :
    replyData xml (plistMessage xml (recordReply content) tag) = some content := by
  unfold replyData
  rw [plistMessage_payload, hdecode]
  simp only [recordReply, List.lookup_cons_self]

/-- Over every history of requests that succeed, a read replies with the XML
that the last save wrote, and never with the data that was saved. -/
theorem readPairRecord_not_saved {host : PairRecordHost} {s t u : RecordState}
    {rs : List Served} {id : String} {data : Bytes} {tag : UInt32} {faults : IoFaults}
    (hrun : StepSystem.after (serve host) s rs = some t)
    (hsaved : lastSaved (rs.map Served.request) id = some data)
    (hread : serve host t ⟨.readPairRecord id, tag, faults⟩ = some u)
    (hdecode : host.xml.fromBytes (host.xml.toXml (recordReply (host.xml.toXml (.data data)))) =
      .ok (recordReply (host.xml.toXml (.data data))))
    (hlength : data.length < (host.xml.toXml (.data data)).length) :
    ∃ packet, u.sent = t.sent ++ [packet] ∧
      replyData host.xml packet = some (host.xml.toXml (.data data)) ∧
      replyData host.xml packet ≠ some data := by
  have hnothing : Stores host (fun _ => none) s := by
    intro id data hid
    cases hid
  have hstores := stores_run hnothing hrun
  obtain ⟨content, hcontent, rfl⟩ := handleReadPairRecord_sent (serve_eq_some_iff.mp hread)
  cases hcontent.symm.trans (hstores id data hsaved)
  refine ⟨_, rfl, replyData_recordReply tag hdecode, ?_⟩
  rw [replyData_recordReply tag hdecode]
  intro hsame
  exact Nat.ne_of_gt hlength (congrArg List.length (Option.some.inj hsame))

/-- The record of one byte, as the reply carries it. -/
def savedByteReply : PlistValue := recordReply (writeXml (.data [7]))

/-- A host that reads back the reply. -/
def xmlHost : PairRecordHost where
  xml := plistCodec savedByteReply
  lockdownPath := "/var/lib/lockdown"

set_option maxRecDepth 8000 in
theorem xmlHost_length : ([7] : Bytes).length < (xmlHost.xml.toXml (.data [7])).length := by
  decide

attribute [local irreducible] writeXml

theorem xmlHost_decode :
    xmlHost.xml.fromBytes (xmlHost.xml.toXml savedByteReply) = .ok savedByteReply :=
  plistCodec_reads _

def savedByte : Served := ⟨.savePairRecord "A" [7] none, 1, ⟨none, none, none⟩⟩

def readBack : Served := ⟨.readPairRecord "A", 2, ⟨none, none, none⟩⟩

/-- The state after the byte is saved, from an empty directory. -/
def savedState : RecordState where
  files := KeyTable.empty.insert (recordPath xmlHost "A") (writeXml (.data [7]))
  sent := [resultPacket xmlHost.xml .ok 1]

/-- The state after it is read. -/
def readState : RecordState :=
  { savedState with
    sent := savedState.sent ++ [plistMessage xmlHost.xml (recordReply (writeXml (.data [7]))) 2] }

theorem savedByte_run : StepSystem.after (serve xmlHost) ⟨.empty, []⟩ [savedByte] =
    some savedState := by
  have hid : malformedId "A" = false := by decide
  have hserve : serve xmlHost ⟨.empty, []⟩ savedByte = some savedState :=
    serve_eq_some_iff.mpr (serve_savePairRecord xmlHost ⟨.empty, []⟩ [7] 1 hid)
  rw [StepSystem.after, hserve]
  rfl

theorem savedByte_lastSaved :
    lastSaved ([savedByte].map Served.request) "A" = some [7] := rfl

theorem readBack_run : serve xmlHost savedState readBack = some readState := by
  have hid : malformedId "A" = false := by decide
  exact serve_eq_some_iff.mpr (serve_readPairRecord xmlHost savedState 2 hid
    (KeyTable.get_insert_self _ _ _))

/-- One byte is saved and read. -/
theorem readPairRecord_not_saved_byte :
    ∃ packet, readState.sent = savedState.sent ++ [packet] ∧
      replyData xmlHost.xml packet = some (xmlHost.xml.toXml (.data [7])) ∧
      replyData xmlHost.xml packet ≠ some [7] :=
  readPairRecord_not_saved savedByte_run savedByte_lastSaved readBack_run xmlHost_decode
    xmlHost_length

/-- The reply to a read of the byte that was saved does not carry the byte. -/
theorem saved_byte_not_read_back :
    ¬ ∀ (rs : List Served) (id : String) (data : Bytes) (t u : RecordState) (packet : Bytes),
      StepSystem.after (serve xmlHost) ⟨.empty, []⟩ rs = some t →
      lastSaved (rs.map Served.request) id = some data →
      serve xmlHost t ⟨.readPairRecord id, 2, ⟨none, none, none⟩⟩ = some u →
      u.sent = t.sent ++ [packet] → replyData xmlHost.xml packet = some data := by
  intro h
  have hbyte := h [savedByte] "A" [7] savedState readState _ savedByte_run savedByte_lastSaved
    readBack_run rfl
  rw [replyData_recordReply 2 xmlHost_decode] at hbyte
  exact Nat.ne_of_gt xmlHost_length (congrArg List.length (Option.some.inj hbyte))

end Rusbmux
