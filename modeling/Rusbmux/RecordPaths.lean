import Rusbmux.PairRecord
import Rusbmux.PathResolution

/-! Which file the operations on pair records act on, and where it is. -/
namespace Rusbmux

open PathResolution

/-- The separators of any target. -/
def isPathSeparator (c : Char) : Bool := c = '/' || c = '\\'

def RecordRequest.recordId : RecordRequest → String
  | savePairRecord id _ _ => id
  | readPairRecord id => id
  | deletePairRecord id => id

/-- The operation behind a request. -/
def performRecord (host : PairRecordHost) (faults : IoFaults) (tag : UInt32) :
    RecordRequest → Handler Unit
  | .savePairRecord id data deviceId => savePairRecord host faults id data deviceId tag
  | .readPairRecord id => readPairRecord host faults id tag
  | .deletePairRecord id => deletePairRecord host faults id

/-- What `checkId` rejects an id with. -/
def malformedError : RusbmuxError := .unexpectedPacket "Given pair record id is malformed"

/-- The id is not rejected, whatever else may fail. -/
def RecordRequest.Accepted (host : PairRecordHost) (r : RecordRequest) : Prop :=
  ∀ faults tag s, (performRecord host faults tag r s).1 ≠ .error malformedError

/-- The file at the path is the one that the operation acts on: no other file is
changed or looked at, and this one is. -/
structure RecordRequest.ActsOn (host : PairRecordHost) (r : RecordRequest) (path : String) :
    Prop where
  frame : ∀ faults tag s p, p ≠ path →
    (performRecord host faults tag r s).2.files.get p = s.files.get p
  answers : ∀ faults tag s s', s.files.get path = s'.files.get path → s.sent = s'.sent →
    (performRecord host faults tag r s).1 = (performRecord host faults tag r s').1 ∧
      (performRecord host faults tag r s).2.sent = (performRecord host faults tag r s').2.sent
  touches : (∃ faults tag s,
      (performRecord host faults tag r s).2.files.get path ≠ s.files.get path) ∨
    ∃ faults tag s s', (∀ p, p ≠ path → s.files.get p = s'.files.get p) ∧ s.sent = s'.sent ∧
      (performRecord host faults tag r s).1 ≠ (performRecord host faults tag r s').1

namespace Handler

variable {α β : Type} {m : Handler α} {f : α → Handler β} {s t : RecordState}

theorem bind_of_ok {a : α} (h : m s = (.ok a, t)) : (m >>= f) s = f a t := by
  simp only [Bind.bind, h]

theorem bind_of_error {e : RusbmuxError} (h : m s = (.error e, t)) :
    (m >>= f) s = (.error e, t) := by
  simp only [Bind.bind, h]

end Handler

section

variable {host : PairRecordHost} {faults : IoFaults} {tag : UInt32} {s : RecordState}

/-- An operation acts on one file only. -/
theorem RecordRequest.ActsOn.unique {r : RecordRequest} {path path' : String}
    (h : r.ActsOn host path) (h' : r.ActsOn host path') : path = path' := by
  by_contra hne
  obtain ⟨faults, tag, s, hs⟩ | ⟨faults, tag, s, s', hs, hsent, hr⟩ := h.touches
  · exact hs (h'.frame faults tag s path hne)
  · exact hr (h'.answers faults tag s s' (hs path' (Ne.symm hne)) hsent).1

theorem performRecord_of_malformed {r : RecordRequest} (h : malformedId r.recordId = true) :
    performRecord host faults tag r s = (.error malformedError, s) := by
  cases r with
  | savePairRecord id data deviceId => exact Handler.bind_of_error (checkId_of_malformed h s)
  | readPairRecord id => exact Handler.bind_of_error (checkId_of_malformed h s)
  | deletePairRecord id => exact Handler.bind_of_error (checkId_of_malformed h s)

theorem savePairRecord_eq (id : String) (h : malformedId id = false) (data : Bytes)
    (deviceId : Option UInt64) :
    savePairRecord host faults id data deviceId tag s = match faults.fileSystem with
      | some kind => (.error (.io kind), { s with
          files := leftFiles faults s.files (recordPath host id) (host.xml.toXml (.data data)) })
      | none =>
        let s := { s with
          files := s.files.insert (recordPath host id) (host.xml.toXml (.data data)) }
        match deviceId with
        | some deviceId => writeAll faults (plistMessage host.xml (pairedMessage deviceId) tag) s
        | none => (.ok (), s) := by
  refine (Handler.bind_of_ok (checkId_of_wellformed h s)).trans ?_
  obtain ⟨fileSystem, client, written⟩ := faults
  cases fileSystem with
  | some kind => rfl
  | none => cases deviceId <;> rfl

theorem readPairRecord_eq (id : String) (h : malformedId id = false) :
    readPairRecord host faults id tag s =
      match faults.fileSystem, s.files.get (recordPath host id) with
      | some kind, _ => (.error (.io kind), s)
      | none, none => (.error (.io .notFound), s)
      | none, some content =>
        writeAll faults (plistMessage host.xml (recordReply content) tag) s := by
  refine (Handler.bind_of_ok (checkId_of_wellformed h s)).trans ?_
  obtain ⟨fileSystem, client, written⟩ := faults
  cases fileSystem with
  | some kind => rfl
  | none =>
    cases hf : s.files.get (recordPath host id) with
    | none =>
      have hread : fsRead ⟨none, client, written⟩ (recordPath host id) s =
          (.error (.io .notFound), s) := by
        simp only [fsRead, hf]
      exact Handler.bind_of_error hread
    | some content =>
      have hread : fsRead ⟨none, client, written⟩ (recordPath host id) s = (.ok content, s) := by
        simp only [fsRead, hf]
      exact Handler.bind_of_ok hread

theorem deletePairRecord_eq (id : String) (h : malformedId id = false) :
    deletePairRecord host faults id s = fsRemove faults (recordPath host id) s :=
  Handler.bind_of_ok (checkId_of_wellformed h s)

theorem writeAll_files (packet : Bytes) (s : RecordState) :
    (writeAll faults packet s).2.files = s.files := by
  unfold writeAll
  split <;> rfl

theorem writeAll_error {packet : Bytes} {e : RusbmuxError}
    (h : (writeAll faults packet s).1 = .error e) : ∃ kind, e = .io kind := by
  unfold writeAll at h
  split at h
  · cases h
    exact ⟨_, rfl⟩
  · cases h

/-- An id that is accepted leaves the errors of the files and of the client. -/
theorem performRecord_error {r : RecordRequest} {e : RusbmuxError}
    (h : malformedId r.recordId = false) (he : (performRecord host faults tag r s).1 = .error e) :
    ∃ kind, e = .io kind := by
  cases r with
  | savePairRecord id data deviceId =>
    rw [performRecord, savePairRecord_eq id h] at he
    split at he
    · cases he
      exact ⟨_, rfl⟩
    · split at he
      · exact writeAll_error he
      · cases he
  | readPairRecord id =>
    rw [performRecord, readPairRecord_eq id h] at he
    split at he
    · cases he
      exact ⟨_, rfl⟩
    · cases he
      exact ⟨_, rfl⟩
    · exact writeAll_error he
  | deletePairRecord id =>
    rw [performRecord, deletePairRecord_eq id h, fsRemove] at he
    split at he
    · cases he
      exact ⟨_, rfl⟩
    · cases he
      exact ⟨_, rfl⟩
    · cases he

/-- An operation rejects the malformed ids and no others. -/
theorem accepted_iff (r : RecordRequest) : r.Accepted host ↔ malformedId r.recordId = false := by
  constructor
  · intro h
    by_contra hm
    rw [Bool.not_eq_false] at hm
    exact h ⟨none, none, none⟩ 0 ⟨.empty, []⟩ (congrArg Prod.fst (performRecord_of_malformed hm))
  -- what else can go wrong is an error of another kind
  · intro h faults tag s he
    obtain ⟨kind, hk⟩ := performRecord_error h he
    cases hk

theorem performRecord_frame {r : RecordRequest} (h : malformedId r.recordId = false) {p : String}
    (hp : p ≠ recordPath host r.recordId) :
    (performRecord host faults tag r s).2.files.get p = s.files.get p := by
  cases r with
  | savePairRecord id data deviceId =>
    have hins : (s.files.insert (recordPath host id) (host.xml.toXml (.data data))).get p =
        s.files.get p := KeyTable.get_insert_of_ne _ _ hp
    rw [performRecord, savePairRecord_eq id h]
    split
    · exact leftFiles_of_ne _ _ hp
    · split
      · rw [writeAll_files]
        exact hins
      · exact hins
  | readPairRecord id =>
    rw [performRecord, readPairRecord_eq id h]
    split
    · rfl
    · rfl
    · rw [writeAll_files]
  | deletePairRecord id =>
    rw [performRecord, deletePairRecord_eq id h, fsRemove]
    split
    · rfl
    · rfl
    · exact KeyTable.get_remove_of_ne _ hp

theorem writeAll_answers (packet : Bytes) {s s' : RecordState} (hsent : s.sent = s'.sent) :
    (writeAll faults packet s).1 = (writeAll faults packet s').1 ∧
      (writeAll faults packet s).2.sent = (writeAll faults packet s').2.sent := by
  unfold writeAll
  split
  · exact ⟨rfl, hsent⟩
  · exact ⟨rfl, by simp only [hsent]⟩

theorem performRecord_answers {r : RecordRequest} (h : malformedId r.recordId = false)
    {s s' : RecordState}
    (hf : s.files.get (recordPath host r.recordId) = s'.files.get (recordPath host r.recordId))
    (hsent : s.sent = s'.sent) :
    (performRecord host faults tag r s).1 = (performRecord host faults tag r s').1 ∧
      (performRecord host faults tag r s).2.sent =
        (performRecord host faults tag r s').2.sent := by
  cases r with
  | savePairRecord id data deviceId =>
    rw [performRecord, savePairRecord_eq id h, savePairRecord_eq id h]
    split
    · exact ⟨rfl, hsent⟩
    · split
      · exact writeAll_answers _ hsent
      · exact ⟨rfl, hsent⟩
  | readPairRecord id =>
    have hf' : s.files.get (recordPath host id) = s'.files.get (recordPath host id) := hf
    rw [performRecord, readPairRecord_eq id h, readPairRecord_eq id h, hf']
    split
    · exact ⟨rfl, hsent⟩
    · exact ⟨rfl, hsent⟩
    · exact writeAll_answers _ hsent
  | deletePairRecord id =>
    have hf' : s.files.get (recordPath host id) = s'.files.get (recordPath host id) := hf
    rw [performRecord, deletePairRecord_eq id h, deletePairRecord_eq id h, fsRemove, fsRemove, hf']
    split
    · exact ⟨rfl, hsent⟩
    · exact ⟨rfl, hsent⟩
    · exact ⟨rfl, hsent⟩

/-- The operations act on the file of their id. -/
theorem actsOn_recordPath {r : RecordRequest} (h : malformedId r.recordId = false) :
    r.ActsOn host (recordPath host r.recordId) where
  frame := fun _ _ _ _ hp => performRecord_frame h hp
  answers := fun _ _ _ _ hf hsent => performRecord_answers h hf hsent
  touches := by
    cases r with
    | savePairRecord id data deviceId =>
      refine Or.inl ⟨⟨none, none, none⟩, 0, ⟨.empty, []⟩, ?_⟩
      have hins : (KeyTable.insert .empty (recordPath host id)
          (host.xml.toXml (.data data))).get (recordPath host id) ≠
          (KeyTable.empty : KeyTable String Bytes).get (recordPath host id) := by
        rw [KeyTable.get_insert_self]
        exact Option.some_ne_none _
      rw [performRecord, savePairRecord_eq id h]
      cases deviceId <;> exact hins
    | readPairRecord id =>
      -- the answer tells whether the file is there
      refine Or.inr ⟨⟨none, none, none⟩, 0, ⟨.empty, []⟩,
        ⟨KeyTable.insert .empty (recordPath host id) [], []⟩, ?_, rfl, ?_⟩
      · intro p hp
        exact (KeyTable.get_insert_of_ne _ _ hp).symm
      · rw [performRecord, readPairRecord_eq id h, readPairRecord_eq id h,
          KeyTable.get_insert_self, KeyTable.get_empty]
        exact fun he => by cases he
    | deletePairRecord id =>
      refine Or.inl ⟨⟨none, none, none⟩, 0,
        ⟨KeyTable.insert .empty (recordPath host id) [], []⟩, ?_⟩
      rw [performRecord, deletePairRecord_eq id h, fsRemove]
      simp only [RecordRequest.recordId, KeyTable.get_insert_self, KeyTable.get_remove_self]
      exact fun he => by cases he

/-- With its suffix an accepted id is a name in a directory. -/
theorem isEntryName_record {id : String} (h : malformedId id = false) :
    IsEntryName isPathSeparator (id ++ ".plist").toList := by
  obtain ⟨⟨hslash, hback⟩, -⟩ : ('/' ∉ id.toList ∧ '\\' ∉ id.toList) ∧
      hasDotDot id.toList = false := by
    simpa only [malformedId, Bool.or_eq_false_iff, List.contains_eq_mem,
      decide_eq_false_iff_not] using h
  have hlen : 6 ≤ (id ++ ".plist").toList.length := by
    rw [String.toList_append, List.length_append]
    exact Nat.le_add_left 6 _
  refine ⟨?_, ?_, ?_, ?_⟩
  · intro c hc
    rw [String.toList_append, List.mem_append] at hc
    obtain hc | hc := hc
    · have h1 : c ≠ '/' := fun he => hslash (he ▸ hc)
      have h2 : c ≠ '\\' := fun he => hback (he ▸ hc)
      simp only [isPathSeparator, h1, h2, decide_false, Bool.or_self]
    -- the suffix, which names no directory either
    · have hsuffix : (".plist".toList.all fun c => !isPathSeparator c) = true := rfl
      simpa only [Bool.not_eq_true'] using List.all_eq_true.mp hsuffix c hc
  -- it is too long to be empty, "." or ".."
  · rintro hn
    rw [hn] at hlen
    cases hlen
  · intro hn
    rw [hn] at hlen
    exact absurd hlen (by decide)
  · intro hn
    rw [hn] at hlen
    exact absurd hlen (by decide)

theorem resolve_recordPath {id : String} (h : malformedId id = false) :
    resolve isPathSeparator (recordPath host id).toList =
      resolve isPathSeparator host.lockdownPath.toList ++ [(id ++ ".plist").toList] := by
  have hpath : (recordPath host id).toList =
      host.lockdownPath.toList ++ '/' :: (id ++ ".plist").toList := by
    simp only [recordPath, String.toList_append, List.append_assoc]
    rfl
  rw [hpath]
  exact resolve_append_name (isEntryName_record h) _ rfl

end

/-- What the check of the ids is for: the operations stay in the directory, keep
the records apart, and agree on where each one is. -/
structure RecordPathsContained (host : PairRecordHost) : Prop where
  acts : ∀ r : RecordRequest, r.Accepted host → ∃ path, r.ActsOn host path
  contained : ∀ (r : RecordRequest) path, r.Accepted host → r.ActsOn host path →
    IsEntryName isPathSeparator (r.recordId ++ ".plist").toList ∧
    resolve isPathSeparator path.toList =
      resolve isPathSeparator host.lockdownPath.toList ++ [(r.recordId ++ ".plist").toList]
  distinct : ∀ (r r' : RecordRequest) path path', r.Accepted host → r'.Accepted host →
    r.ActsOn host path → r'.ActsOn host path' → r.recordId ≠ r'.recordId → path ≠ path'
  alike : ∀ r r' : RecordRequest, r.recordId = r'.recordId →
    (r.Accepted host ↔ r'.Accepted host) ∧
    (r.Accepted host → ∀ path, r.ActsOn host path ↔ r'.ActsOn host path)

/-- For every directory and every id. -/
theorem recordPaths_contained (host : PairRecordHost) : RecordPathsContained host where
  acts := fun r hr => ⟨_, actsOn_recordPath ((accepted_iff r).mp hr)⟩
  contained := by
    intro r path hr hp
    have hid := (accepted_iff r).mp hr
    rw [hp.unique (actsOn_recordPath hid)]
    exact ⟨isEntryName_record hid, resolve_recordPath hid⟩
  distinct := by
    intro r r' path path' hr hr' hp hp' hne
    rw [hp.unique (actsOn_recordPath ((accepted_iff r).mp hr)),
      hp'.unique (actsOn_recordPath ((accepted_iff r').mp hr'))]
    exact fun he => hne (recordPath_injective host he)
  alike := by
    intro r r' hid
    have hacc : r.Accepted host ↔ r'.Accepted host := by rw [accepted_iff, accepted_iff, hid]
    refine ⟨hacc, fun hr path => ?_⟩
    have ha : r.ActsOn host (recordPath host r.recordId) :=
      actsOn_recordPath ((accepted_iff r).mp hr)
    have ha' : r'.ActsOn host (recordPath host r.recordId) := by
      rw [hid]
      exact actsOn_recordPath ((accepted_iff r').mp (hacc.mp hr))
    constructor
    · intro hp
      rw [hp.unique ha]
      exact ha'
    · intro hp
      rw [hp.unique ha']
      exact ha

end Rusbmux
