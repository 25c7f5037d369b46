import Rusbmux.ClientStream

/-! What a client is sent for each of its requests, when every write to it
succeeds. -/
namespace Rusbmux

/-- The tag of a packet. -/
def tagOf (b : Bytes) : UInt32 := (RawUsbMuxHeader.ofBytes (b.take UsbMuxHeader.SIZE)).tag

/-- A packet whose message type is `Result`. -/
def isResult (xml : PlistXml) (b : Bytes) : Bool :=
  match xml.fromBytes (b.drop UsbMuxHeader.SIZE) with
  | .ok (.dictionary entries) => match entries.lookup "MessageType" with
    | some (.string text) => text == "Result"
    | _ => false
  | _ => false

/-- What was sent between two states. -/
def newPackets (s t : RecordState) : List Bytes := t.sent.drop s.sent.length

/-- The request of a frame, if it is a plist message that is read as one. -/
def ClientFrame.request (host : HandlerHost) (f : ClientFrame) : Option UsbMuxRequest :=
  match f.version, f.msgType, host.xml.fromBytes f.payload with
  | some .plist, some .messagePlist, .ok value => (host.fromValue value).toOption
  | _, _, _ => none

/-- Before another turn, the client has a packet with the frame's tag, and it
has at most one result for a request other than Listen. -/
structure Answered (host : HandlerHost) (f : ClientFrame) (s : RecordState)
    (turn : RecordState × Option Bytes) : Prop where
  reply : turn.2.isSome = true → ∃ b ∈ newPackets s turn.1, tagOf b = f.tag
  once : f.request host ≠ some .listen →
    ((newPackets s turn.1).filter (isResult host.xml)).length ≤ 1

/-- An IO error that no result is sent for, and that does not end the session. -/
def silentIo (answered : List IoErrorKind) : Option IoErrorKind → Bool
  | none => false
  | some kind => !answered.contains kind && !isDisconnectIo kind

section

variable (host : HandlerHost) (outcomes : Outcomes) (s : RecordState)

/-- The system configuration that `handle_read_buid` goes on with, if it does. -/
def configContent : Option Bytes :=
  if configExists host outcomes s then s.files.get (configPath host)
  else if outcomes.writeConfig.isNone then some (newConfig host outcomes)
  else none

/-- No `SystemBUID` can be read from the system configuration. -/
def silentContent (content : Bytes) : Bool :=
  outcomes.readConfig.isSome || match host.xml.fromBytes content with
    | .error _ => true
    | .ok value => !(systemBUID value).isOk

def silentBuid : Bool := (configContent host outcomes s).any (silentContent host outcomes)

/-- The requests that get no reply. -/
def silentRequest : UsbMuxRequest → Bool
  | .listListeners => outcomes.hotplugTx.isNone
  | .readPairRecord id | .savePairRecord id _ _ =>
    !malformedId id && silentIo [.permissionDenied, .notFound] outcomes.faults.fileSystem
  | .deletePairRecord id => !malformedId id && silentIo [.notFound] outcomes.faults.fileSystem
  | .readBUID => silentBuid host outcomes s
  | .listen | .listDevices | .connect _ _ => false

/-- The frames with a known header that get no reply. -/
def silentFrame (f : ClientFrame) : Bool :=
  match f.version with
  | some .plist => match host.xml.fromBytes f.payload with
    | .error _ => true
    | .ok value => f.msgType == some .messagePlist && match host.fromValue value with
      | .ok request => silentRequest host outcomes s request
      | .error _ => false
  | some .binary => f.msgType == some .messagePlist
  | none => false

end

theorem u32fromLe_u32le (w : UInt32) : u32fromLe (u32le w) = w := by
  apply UInt32.toNat_inj.mp
  have hw := w.toNat_lt
  simp only [u32fromLe, u32le, List.foldr_cons, List.foldr_nil, UInt32.toNat_ofNat',
    UInt32.toNat_toUInt8, UInt32.toNat_shiftRight, Nat.shiftRight_eq_div_pow,
    UInt32.reduceToNat, Nat.reduceMod, Nat.reducePow]
  omega

theorem tagOf_plistMessage (xml : PlistXml) (value : PlistValue) (tag : UInt32) :
    tagOf (plistMessage xml value tag) = tag := by
  have htag : tagOf (plistMessage xml value tag) = u32fromLe (u32le tag) := rfl
  rw [htag, u32fromLe_u32le]

/-- What a handled message has sent, and whether that is nothing at all. -/
structure Replies (host : HandlerHost) (tag : UInt32) (silent : Bool) (s : RecordState)
    (handled : Handled) (values : List PlistValue) : Prop where
  sent : handled.2.sent = s.sent ++ values.map fun v => plistMessage host.xml v tag
  once : (values.filter fun v => isResult host.xml (plistMessage host.xml v tag)).length ≤ 1
  quiet : silent = true → values = [] ∧ goesOn handled.1 = true
  loud : silent = false → goesOn handled.1 = true → values ≠ []

section

variable {host : HandlerHost} {outcomes : Outcomes} {s t : RecordState} {tag : UInt32}
  {values : List PlistValue}

theorem length_filter_le_one (p : PlistValue → Bool) (h : values.length ≤ 1) :
    (values.filter p).length ≤ 1 :=
  Nat.le_trans (List.length_filter_le p values) h

theorem writeAll_run {faults : IoFaults} (h : faults.client = none) (b : Bytes)
    (s : RecordState) : writeAll faults b s = (.ok (), { s with sent := s.sent ++ [b] }) := by
  simp only [writeAll, h]

theorem sendResult_run {faults : IoFaults} (h : faults.client = none) (code : ResultCode)
    (s : RecordState) : sendResult host.toPairRecordHost faults code tag s =
      (.ok (), { s with sent := s.sent ++ [plistMessage host.xml (resultValue code) tag] }) :=
  writeAll_run h _ s

/-- A handler that succeeds goes on, and has sent something. -/
theorem replies_of_ok {request : PayloadMessageType} {m : Handler Unit}
    (hm : m s = (.ok (), t)) (hsent : t.sent = s.sent ++ values.map fun v =>
      plistMessage host.xml v tag) (hne : values ≠ [])
    (honce : (values.filter fun v => isResult host.xml (plistMessage host.xml v tag)).length ≤ 1) :
    Replies host tag false s (classified (some request) .continue m s) values := by
  have hrun : classified (some request) .continue m s = (.ok .continue, t) := by
    simp only [classified, hm]
  rw [hrun]
  exact ⟨hsent, honce, (fun h => by cases h), fun _ _ => hne⟩

/-- A handler that fails has sent something, or it goes on in silence, or it
ends the session. -/
theorem replies_of_error {request : PayloadMessageType} {m : Handler Unit} {e : RusbmuxError}
    (hrequest : request ≠ .connect ∧ request ≠ .listen) (hm : m s = (.error e, t))
    (hsent : t.sent = s.sent ++ values.map fun v => plistMessage host.xml v tag)
    (hlen : values.length ≤ 1) :
    Replies host tag (values.isEmpty && !isDisconnect e) s
      (classified (some request) .continue m s) values := by
  have hclassify : classify e (some request) = .nonFatal e (some request) := by
    simp only [classify, Option.some.injEq, hrequest.1, hrequest.2, or_self, if_false]
  have hrun : classified (some request) .continue m s =
      (.error (.nonFatal e (some request)), t) := by
    simp only [classified, hm, hclassify]
  rw [hrun]
  refine ⟨hsent, length_filter_le_one _ hlen, fun h => ?_, fun h hgo => ?_⟩
  · simpa [goesOn, List.isEmpty_iff] using h
  · have hgo : isDisconnect e = false := by simpa [goesOn] using hgo
    simpa [hgo] using h

/-- A handler that fails in silence goes on. -/
theorem replies_of_silent {request : PayloadMessageType} {m : Handler Unit} {e : RusbmuxError}
    (hrequest : request ≠ .connect ∧ request ≠ .listen) (hm : m s = (.error e, t))
    (ht : t.sent = s.sent) (he : isDisconnect e = false) :
    Replies host tag true s (classified (some request) .continue m s) [] := by
  have hreplies : Replies host tag (([] : List PlistValue).isEmpty && !isDisconnect e) s
      (classified (some request) .continue m s) [] :=
    replies_of_error hrequest hm (by rw [ht]; exact (List.append_nil _).symm) (Nat.zero_le 1)
  rwa [he] at hreplies

/-- The results that the pair record handlers send for an error. -/
def errorValues (noSuchFile : List IoErrorKind) : RusbmuxError → List PlistValue
  | .unexpectedPacket _ => [resultValue .badCommand]
  | .io kind => if kind ∈ noSuchFile then [resultValue .badDeviceOrNoSuchFile] else []
  | _ => []

theorem length_errorValues (noSuchFile : List IoErrorKind) (e : RusbmuxError) :
    (errorValues noSuchFile e).length ≤ 1 := by
  unfold errorValues
  split
  · exact Nat.le_refl 1
  · split_ifs
    · exact Nat.le_refl 1
    · exact Nat.zero_le 1
  · exact Nat.zero_le 1

theorem refuse_run (host : HandlerHost) {faults : IoFaults} (h : faults.client = none)
    (noSuchFile : List IoErrorKind) (e : RusbmuxError) (tag : UInt32) (s : RecordState) :
    ∃ t, refuse host.toPairRecordHost faults noSuchFile e tag s = (.error e, t) ∧
      t.sent = s.sent ++ (errorValues noSuchFile e).map fun v => plistMessage host.xml v tag := by
  have hsend : ∃ t, sendError host.toPairRecordHost faults noSuchFile e tag s = (.ok (), t) ∧
      t.sent = s.sent ++ (errorValues noSuchFile e).map fun v => plistMessage host.xml v tag := by
    cases e with
    | unexpectedPacket text => exact ⟨_, sendResult_run h _ s, rfl⟩
    | io kind =>
      by_cases hk : kind ∈ noSuchFile
      · simp only [sendError, errorValues, hk, if_true]
        exact ⟨_, sendResult_run h _ s, rfl⟩
      · simp only [sendError, errorValues, hk, if_false]
        exact ⟨s, rfl, (List.append_nil _).symm⟩
    | _ => exact ⟨s, rfl, (List.append_nil _).symm⟩
  obtain ⟨t, ht, hsent⟩ := hsend
  refine ⟨t, ?_, hsent⟩
  unfold refuse
  simp only [Bind.bind, ht]
  rfl

/-- A pair record handler that refuses its request for an error. -/
theorem replies_of_refused {request : PayloadMessageType} {m : Handler Unit} {e : RusbmuxError}
    {noSuchFile : List IoErrorKind} {u : RecordState} (hc : outcomes.faults.client = none)
    (hrequest : request ≠ .connect ∧ request ≠ .listen)
    (hm : m s = refuse host.toPairRecordHost outcomes.faults noSuchFile e tag u)
    (hu : u.sent = s.sent) :
    Replies host tag ((errorValues noSuchFile e).isEmpty && !isDisconnect e) s
      (classified (some request) .continue m s) (errorValues noSuchFile e) := by
  obtain ⟨t, ht, hsent⟩ := refuse_run host hc noSuchFile e tag u
  rw [hu] at hsent
  exact replies_of_error hrequest (hm.trans ht) hsent (length_errorValues noSuchFile e)

theorem silentIo_eq (noSuchFile : List IoErrorKind) (kind : IoErrorKind) :
    ((errorValues noSuchFile (.io kind)).isEmpty && !isDisconnect (.io kind)) =
      silentIo noSuchFile (some kind) := by
  by_cases h : kind ∈ noSuchFile <;> simp [errorValues, silentIo, isDisconnect, h]

/-- A handler that begins with the check of its id. -/
theorem bind_checkId {α : Type} {id : String} (f : Unit → Handler α) (s : RecordState) :
    (checkId id >>= f) s =
      if malformedId id then
        (.error (.unexpectedPacket "Given pair record id is malformed"), s)
      else f () s := by
  cases h : malformedId id with
  | true => simp only [Bind.bind, checkId_of_malformed h, if_true]
  | false => simp only [Bind.bind, checkId_of_wellformed h, Bool.false_eq_true, if_false]

/-- A reply of one value. -/
theorem once_singleton (p : PlistValue → Bool) (v : PlistValue) : ([v].filter p).length ≤ 1 :=
  length_filter_le_one p (Nat.le_refl 1)

/-- A pair record handler: it checks the id, and then the file system either
fails or lets it reply. -/
theorem replies_record {request : PayloadMessageType} {noSuchFile : List IoErrorKind}
    {id : String} {m : Handler Unit} {f : Unit → Handler Unit} (inner : Handler Unit)
    (hc : outcomes.faults.client = none)
    (hrequest : request ≠ .connect ∧ request ≠ .listen) (hinner : inner = (checkId id >>= f))
    (hm : ∀ e u, inner s = (.error e, u) →
      m s = refuse host.toPairRecordHost outcomes.faults noSuchFile e tag u)
    (hf : (∃ kind u, f () s = (.error (.io kind), u) ∧ u.sent = s.sent ∧
        silentIo noSuchFile (some kind) = silentIo noSuchFile outcomes.faults.fileSystem) ∨
      outcomes.faults.fileSystem = none ∧ (inner s = f () s → ∃ values,
        Replies host tag false s (classified (some request) .continue m s) values)) :
    ∃ values, Replies host tag
      (!malformedId id && silentIo noSuchFile outcomes.faults.fileSystem) s
      (classified (some request) .continue m s) values := by
  have hcheck : inner s = _ := hinner ▸ bind_checkId f s
  cases hid : malformedId id with
  | true =>
    rw [hid, if_pos rfl] at hcheck
    exact ⟨_, replies_of_refused hc hrequest (hm _ _ hcheck) rfl⟩
  | false =>
    rw [hid, if_neg Bool.false_ne_true] at hcheck
    rcases hf with ⟨kind, u, hio, hu, hsilent⟩ | ⟨hnone, hreplies⟩
    · have hrefused := replies_of_refused hc hrequest (hm _ _ (hcheck.trans hio)) hu
      rw [silentIo_eq, hsilent] at hrefused
      exact ⟨_, hrefused⟩
    · rw [hnone]
      exact hreplies hcheck

theorem replies_readPairRecord (hc : outcomes.faults.client = none) (id : String) :
    ∃ values, Replies host tag (silentRequest host outcomes s (.readPairRecord id)) s
      (handleRequest host outcomes tag (.readPairRecord id) s) values := by
  refine replies_record (readPairRecord host.toPairRecordHost outcomes.faults id tag) hc
    (by decide) rfl (fun e u h => ?_) ?_
  · unfold handleReadPairRecord
    rw [h]
  · cases hf : outcomes.faults.fileSystem with
    | some kind =>
      refine .inl ⟨kind, s, ?_, rfl, rfl⟩
      simp only [Bind.bind, fsRead, hf]
    | none =>
      cases hget : s.files.get (recordPath host.toPairRecordHost id) with
      | none =>
        refine .inl ⟨.notFound, s, ?_, rfl, rfl⟩
        simp only [Bind.bind, fsRead, hf, hget]
      | some content =>
        refine .inr ⟨rfl, fun hinner => ⟨[recordReply content], ?_⟩⟩
        have hok : handleReadPairRecord host.toPairRecordHost outcomes.faults id tag s =
            (.ok (), { s with
              sent := s.sent ++ [plistMessage host.xml (recordReply content) tag] }) := by
          unfold handleReadPairRecord
          rw [hinner]
          simp only [Bind.bind, fsRead, hf, hget, writeAll_run hc]
        exact replies_of_ok hok rfl (by simp) (once_singleton _ _)

theorem replies_deletePairRecord (hc : outcomes.faults.client = none) (id : String) :
    ∃ values, Replies host tag (silentRequest host outcomes s (.deletePairRecord id)) s
      (handleRequest host outcomes tag (.deletePairRecord id) s) values := by
  refine replies_record (deletePairRecord host.toPairRecordHost outcomes.faults id) hc
    (by decide) rfl (fun e u h => ?_) ?_
  · unfold handleDeletePairRecord
    rw [h]
  · cases hf : outcomes.faults.fileSystem with
    | some kind =>
      refine .inl ⟨kind, s, ?_, rfl, rfl⟩
      simp only [fsRemove, hf]
    | none =>
      cases hget : s.files.get (recordPath host.toPairRecordHost id) with
      | none =>
        refine .inl ⟨.notFound, s, ?_, rfl, rfl⟩
        simp only [fsRemove, hf, hget]
      | some content =>
        refine .inr ⟨rfl, fun hinner => ⟨[resultValue .ok], ?_⟩⟩
        have hok : ∃ t, handleDeletePairRecord host.toPairRecordHost outcomes.faults id tag s =
            (.ok (), t) ∧ t.sent = s.sent ++ [plistMessage host.xml (resultValue .ok) tag] := by
          unfold handleDeletePairRecord
          rw [hinner]
          simp only [fsRemove, hf, hget, sendResult_run hc]
          exact ⟨_, rfl, rfl⟩
        obtain ⟨t, ht, hsent⟩ := hok
        exact replies_of_ok ht hsent (by simp) (once_singleton _ _)

/-- What is read back of a `Paired` message is that message. -/
def ReadsPaired (xml : PlistXml) : Prop :=
  ∀ deviceId value, xml.fromBytes (xml.toXml (pairedMessage deviceId)) = .ok value →
    value = pairedMessage deviceId

theorem isResult_paired {xml : PlistXml} (h : ReadsPaired xml) (deviceId : UInt64)
    (tag : UInt32) : isResult xml (plistMessage xml (pairedMessage deviceId) tag) = false := by
  unfold isResult
  rw [plistMessage_payload]
  cases hv : xml.fromBytes (xml.toXml (pairedMessage deviceId)) with
  | error e => rfl
  | ok value =>
    rw [h deviceId value hv]
    rfl

theorem replies_savePairRecord (hx : ReadsPaired host.xml) (hc : outcomes.faults.client = none)
    (id : String) (data : Bytes) (deviceId : Option UInt64) :
    ∃ values, Replies host tag (silentRequest host outcomes s (.savePairRecord id data deviceId)) s
      (handleRequest host outcomes tag (.savePairRecord id data deviceId) s) values := by
  refine replies_record
    (savePairRecord host.toPairRecordHost outcomes.faults id data deviceId tag) hc (by decide) rfl
    (fun e u h => ?_) ?_
  · unfold handleSavePairRecord
    rw [h]
  · cases hf : outcomes.faults.fileSystem with
    | some kind =>
      let left := leftFiles outcomes.faults s.files (recordPath host.toPairRecordHost id)
        (host.xml.toXml (.data data))
      refine .inl ⟨kind, { s with files := left }, ?_, rfl, rfl⟩
      simp only [Bind.bind, fsWrite, hf, left]
    | none =>
      refine .inr ⟨rfl, fun hinner => ?_⟩
      cases deviceId with
      | none =>
        have hok : ∃ t, handleSavePairRecord host.toPairRecordHost outcomes.faults id data none
            tag s = (.ok (), t) ∧
              t.sent = s.sent ++ [plistMessage host.xml (resultValue .ok) tag] := by
          unfold handleSavePairRecord
          rw [hinner]
          simp only [Bind.bind, fsWrite, hf, Pure.pure, sendResult_run hc]
          exact ⟨_, rfl, rfl⟩
        obtain ⟨t, ht, hsent⟩ := hok
        exact ⟨[resultValue .ok], replies_of_ok ht hsent (by simp) (once_singleton _ _)⟩
      | some deviceId =>
        have hok : ∃ t, handleSavePairRecord host.toPairRecordHost outcomes.faults id data
            (some deviceId) tag s = (.ok (), t) ∧ t.sent = s.sent ++
              [pairedMessage deviceId, resultValue .ok].map fun v =>
                plistMessage host.xml v tag := by
          unfold handleSavePairRecord
          rw [hinner]
          simp only [Bind.bind, fsWrite, hf, writeAll_run hc, sendResult_run hc]
          exact ⟨_, rfl, List.append_assoc _ _ _⟩
        obtain ⟨t, ht, hsent⟩ := hok
        refine ⟨_, replies_of_ok ht hsent (by simp) ?_⟩
        -- the `Paired` message is no result
        rw [List.filter_cons, isResult_paired hx, if_neg Bool.false_ne_true]
        exact once_singleton _ _

theorem replies_listDevices (hc : outcomes.faults.client = none) :
    ∃ values, Replies host tag (silentRequest host outcomes s .listDevices) s
      (handleRequest host outcomes tag .listDevices s) values :=
  ⟨[devicesPlist outcomes], replies_of_ok (writeAll_run hc _ s) rfl (by simp) (once_singleton _ _)⟩

theorem replies_listListeners (hc : outcomes.faults.client = none) :
    ∃ values, Replies host tag (silentRequest host outcomes s .listListeners) s
      (handleRequest host outcomes tag .listListeners s) values := by
  cases hr : outcomes.hotplugTx with
  | none =>
    have herror : handleListenersList host outcomes tag s = (.error .hotPlugNotSupported, s) := by
      simp only [handleListenersList, hr]
      rfl
    simp only [silentRequest, hr]
    exact ⟨[], replies_of_silent (by decide) herror rfl rfl⟩
  | some receivers =>
    have hok : ∃ v, handleListenersList host outcomes tag s =
        (.ok (), { s with sent := s.sent ++ [plistMessage host.xml v tag] }) := by
      simp only [handleListenersList, hr]
      exact ⟨_, writeAll_run hc _ s⟩
    obtain ⟨v, hv⟩ := hok
    simp only [silentRequest, hr]
    exact ⟨[v], replies_of_ok hv rfl (by simp) (once_singleton _ _)⟩

theorem replies_sendBUID {m : Handler Unit} {u : RecordState}
    (hc : outcomes.faults.client = none) {content : Bytes}
    (hm : m s = sendBUID host outcomes tag u) (hu : u.sent = s.sent)
    (h : u.files.get (configPath host) = some content) :
    ∃ values, Replies host tag (silentContent host outcomes content) s
      (classified (some .readBUID) .continue m s) values := by
  -- an error that is no disconnect goes on without a reply
  have herror {e : RusbmuxError} (he : isDisconnect e = false)
      (hrun : sendBUID host outcomes tag u = (.error e, u)) :
      Replies host tag true s (classified (some .readBUID) .continue m s) [] :=
    replies_of_silent (by decide) (hm.trans hrun) hu he
  cases hread : outcomes.readConfig with
  | some text =>
    have hrun : sendBUID host outcomes tag u = (.error (.plist text), u) := by
      simp only [sendBUID, Bind.bind, configFromFile, hread]
    simp only [silentContent, hread, Option.isSome_some, Bool.true_or]
    exact ⟨[], herror rfl hrun⟩
  | none =>
    simp only [silentContent, hread, Option.isSome_none, Bool.false_or]
    cases hx : host.xml.fromBytes content with
    | error text =>
      have hrun : sendBUID host outcomes tag u = (.error (.plist text), u) := by
        simp only [sendBUID, Bind.bind, configFromFile, hread, h, hx]
      exact ⟨[], herror rfl hrun⟩
    | ok value =>
      cases hb : systemBUID value with
      | error e =>
        have hrun : sendBUID host outcomes tag u = (.error e, u) := by
          simp only [sendBUID, Bind.bind, configFromFile, hread, h, hx, hb]
          rfl
        -- the errors of the lookup are about the document, not about the client
        have he : isDisconnect e = false := by
          unfold systemBUID at hb
          split at hb
          · split at hb <;> cases hb <;> rfl
          · cases hb
            rfl
        simp only [hb]
        exact ⟨[], herror he hrun⟩
      | ok buid =>
        have hrun : m s = (.ok (), { u with sent := u.sent ++
            [plistMessage host.xml (.dictionary [("BUID", .string buid)]) tag] }) := by
          rw [hm]
          simp only [sendBUID, Bind.bind, configFromFile, hread, h, hx, hb]
          exact writeAll_run hc _ u
        simp only [hb]
        refine ⟨[.dictionary [("BUID", .string buid)]], replies_of_ok hrun ?_ (by simp)
          (once_singleton _ _)⟩
        simp only [hu, List.map_cons, List.map_nil]

theorem replies_readBUID (hc : outcomes.faults.client = none) :
    ∃ values, Replies host tag (silentRequest host outcomes s .readBUID) s
      (handleRequest host outcomes tag .readBUID s) values := by
  simp only [silentRequest, silentBuid, configContent, handleRequest]
  cases hexists : configExists host outcomes s with
  | true =>
    rw [if_pos rfl]
    have hm : handleReadBuid host outcomes tag s = sendBUID host outcomes tag s := by
      simp only [handleReadBuid, hexists, if_true]
    simp only [configExists, Bool.and_eq_true, Option.isSome_iff_exists] at hexists
    obtain ⟨-, content, hget⟩ := hexists
    rw [hget]
    exact replies_sendBUID hc hm rfl hget
  | false =>
    rw [if_neg Bool.false_ne_true]
    cases hw : outcomes.writeConfig with
    | none =>
      have hm : handleReadBuid host outcomes tag s = sendBUID host outcomes tag
          { s with files := s.files.insert (configPath host) (newConfig host outcomes) } := by
        simp only [handleReadBuid, hexists, Bool.false_eq_true, if_false, fsWrite, hw]
      exact replies_sendBUID hc hm rfl (KeyTable.get_insert_self _ _ _)
    | some kind =>
      let left := leftFiles { outcomes.faults with fileSystem := some kind } s.files
        (configPath host) (newConfig host outcomes)
      have hm : handleReadBuid host outcomes tag s = (.ok (), {
          files := left
          sent := s.sent ++
            [plistMessage host.xml (resultValue .badDeviceOrNoSuchFile) tag] }) := by
        simp only [handleReadBuid, hexists, Bool.false_eq_true, if_false, fsWrite, hw,
          sendResult_run hc, left]
      exact ⟨[resultValue .badDeviceOrNoSuchFile], replies_of_ok hm rfl (by simp)
        (once_singleton _ _)⟩

/-- Connect and Listen take the client with them. -/
theorem not_goesOn_classified {request : PayloadMessageType}
    (hrequest : request = .connect ∨ request = .listen) (m : Handler Unit) (s : RecordState) :
    goesOn (classified (some request) .break m s).1 = false := by
  unfold classified
  rcases hrequest with rfl | rfl <;> split <;> rfl

theorem replies_connect (hc : outcomes.faults.client = none) (deviceId : UInt64) (port : UInt16) :
    ∃ values, Replies host tag (silentRequest host outcomes s (.connect deviceId port)) s
      (handleRequest host outcomes tag (.connect deviceId port) s) values := by
  have hgo : goesOn (handleRequest host outcomes tag (.connect deviceId port) s).1 = false :=
    not_goesOn_classified (.inl rfl) (handleConnect host outcomes tag) s
  have hsent : ∃ code r t, handleConnect host outcomes tag s = (r, t) ∧
      t.sent = s.sent ++ [plistMessage host.xml (resultValue code) tag] := by
    let sent (code : ResultCode) : RecordState :=
      { s with sent := s.sent ++ [plistMessage host.xml (resultValue code) tag] }
    cases hconnect : outcomes.connect with
    | ok _ =>
      have hrun : handleConnect host outcomes tag s = (outcomes.relay, sent .ok) := by
        simp only [handleConnect, hconnect, Bind.bind, sendResult_run hc, sent]
      exact ⟨_, _, _, hrun, rfl⟩
    | error e =>
      have hrun : handleConnect host outcomes tag s = (.error e, sent (connectErrorCode e)) := by
        simp only [handleConnect, hconnect, Bind.bind, sendResult_run hc, sent]
        rfl
      exact ⟨_, _, _, hrun, rfl⟩
  obtain ⟨code, r, t, ht, hsent⟩ := hsent
  have hstate : (handleRequest host outcomes tag (.connect deviceId port) s).2 = t := by
    simp only [handleRequest, classified, ht]
    cases r <;> rfl
  refine ⟨[resultValue code], by rw [hstate, hsent]; rfl, once_singleton _ _,
    (fun h => by cases h), fun _ h => ?_⟩
  rw [hgo] at h
  cases h

/-- Every request but Listen. -/
theorem replies_request (hx : ReadsPaired host.xml) (hc : outcomes.faults.client = none)
    (request : UsbMuxRequest) (hlisten : request ≠ .listen) :
    ∃ values, Replies host tag (silentRequest host outcomes s request) s
      (handleRequest host outcomes tag request s) values := by
  cases request with
  | listen => exact absurd rfl hlisten
  | listDevices => exact replies_listDevices hc
  | listListeners => exact replies_listListeners hc
  | readBUID => exact replies_readBUID hc
  | readPairRecord id => exact replies_readPairRecord hc id
  | savePairRecord id data deviceId => exact replies_savePairRecord hx hc id data deviceId
  | deletePairRecord id => exact replies_deletePairRecord hc id
  | connect deviceId port => exact replies_connect hc deviceId port

/-- A message type that is none of the requests is answered with `BadCommand`. -/
theorem replies_badCommand (hc : outcomes.faults.client = none) (len : UInt32)
    (version : UsbMuxVersion) {msgType : UsbMuxMsgType} (hm : msgType ≠ .messagePlist)
    (payload : UsbMuxPayload) :
    ∃ values, Replies host tag false s
      (handleMessage host outcomes ⟨⟨len, version, msgType, tag⟩, payload⟩ s) values := by
  have hrun : handleMessage host outcomes ⟨⟨len, version, msgType, tag⟩, payload⟩ s =
      (.ok .continue, { s with
        sent := s.sent ++ [plistMessage host.xml (resultValue .badCommand) tag] }) := by
    unfold handleMessage
    cases msgType with
    | messagePlist => exact absurd rfl hm
    | _ => simp only [classified, sendResult_run hc]
  rw [hrun]
  exact ⟨[resultValue .badCommand], rfl, once_singleton _ _, (fun h => by cases h),
    fun _ _ => List.cons_ne_nil _ _⟩

/-- A dictionary that is no request is answered with the code of its error. -/
theorem replies_refused (hc : outcomes.faults.client = none) (text : String) :
    ∃ values, Replies host tag false s (classified none .continue
      (refuseRequest host outcomes (requestError text) tag) s) values := by
  have hrun : refuseRequest host outcomes (requestError text) tag s =
      (.error (requestError text), { s with sent := s.sent ++
        [plistMessage host.xml (resultValue (requestErrorCode (requestError text))) tag] }) := by
    simp only [refuseRequest, Bind.bind, sendResult_run hc]
    rfl
  refine ⟨[resultValue (requestErrorCode (requestError text))], ?_, once_singleton _ _,
    (fun h => by cases h), fun _ _ => List.cons_ne_nil _ _⟩
  simp only [classified, hrun]
  rfl

/-- A message with a binary payload is refused in silence. -/
theorem replies_raw (len : UInt32) (version : UsbMuxVersion) (bytes : Bytes) :
    Replies host tag true s
      (handleMessage host outcomes ⟨⟨len, version, .messagePlist, tag⟩, .raw bytes⟩ s) [] :=
  ⟨(List.append_nil _).symm, Nat.zero_le 1, fun _ => ⟨rfl, rfl⟩, (fun h => by cases h)⟩

end

section

variable {host : HandlerHost} {outcomes : Outcomes} {s : RecordState} {f : ClientFrame}
  {rest : Bytes}

/-- A turn is answered unless its message is handled in silence. -/
theorem answered_iff_of_replies {handled : Handled} {silent : Bool} {values : List PlistValue}
    (h : Replies host f.tag silent s handled values) :
    Answered host f s (handled.2, if goesOn handled.1 then some rest else none) ↔
      silent = false := by
  have hnew : newPackets s handled.2 = values.map fun v => plistMessage host.xml v f.tag := by
    rw [newPackets, h.sent, List.drop_left]
  constructor
  · intro hanswered
    by_contra hsilent
    obtain ⟨hnil, hgo⟩ := h.quiet ((Bool.not_eq_false _).mp hsilent)
    obtain ⟨b, hb, -⟩ := hanswered.reply (by simp only [hgo, if_true, Option.isSome_some])
    rw [hnew, hnil] at hb
    cases hb
  · intro hloud
    refine ⟨fun hturn => ?_, fun _ => ?_⟩
    · have hgo : goesOn handled.1 = true := by
        by_contra hgo
        simp only [hgo, if_false, Option.isSome_none, Bool.false_eq_true] at hturn
      obtain ⟨v, hv⟩ := List.exists_mem_of_ne_nil _ (h.loud hloud hgo)
      exact ⟨_, hnew ▸ List.mem_map_of_mem hv, tagOf_plistMessage _ _ _⟩
    · simp only [hnew, List.filter_map, List.length_map]
      exact h.once

/-- A turn after which there is no other, for a request to listen. -/
theorem answered_of_listen {handled : Handled} (hrequest : f.request host = some .listen)
    (hgo : goesOn handled.1 = false) :
    Answered host f s (handled.2, if goesOn handled.1 then some rest else none) := by
  refine ⟨fun h => ?_, fun h => absurd hrequest h⟩
  simp only [hgo, if_false, Option.isSome_none, Bool.false_eq_true] at h

/-- The turn of a frame whose packet is read. -/
theorem clientTurn_of_read {packet : UsbMuxPacket}
    (h : UsbMuxPacket.fromReader host.xml (f.bytes ++ rest) = (.ok packet, rest))
    (outcomes : Outcomes) (s : RecordState) :
    clientTurn host outcomes s (f.bytes ++ rest) = ((handleMessage host outcomes packet s).2,
      if goesOn (handleMessage host outcomes packet s).1 then some rest else none) := by
  rw [clientTurn, h]

theorem answered_binary (hc : outcomes.faults.client = none) {m : UsbMuxMsgType}
    (hv : f.version = some .binary) (hm : f.msgType = some m) :
    Answered host f s (clientTurn host outcomes s (f.bytes ++ rest)) ↔
      silentFrame host outcomes s f = false := by
  rw [clientTurn_of_read (f.fromReader_known host.xml hv hm rest)]
  by_cases hplist : m = .messagePlist
  · subst hplist
    have hsilent : silentFrame host outcomes s f = true := by
      simp only [silentFrame, hv, hm, beq_self_eq_true]
    rw [hsilent]
    exact answered_iff_of_replies (replies_raw _ _ _)
  · have hsilent : silentFrame host outcomes s f = false := by
      simpa [silentFrame, hv, hm] using hplist
    obtain ⟨values, h⟩ := replies_badCommand hc f.raw.len .binary hplist (.raw f.payload)
    rw [hsilent]
    exact answered_iff_of_replies h

/-- A plist message, when its dictionary is a request and when it is not. -/
theorem answered_message (hx : ReadsPaired host.xml) (hc : outcomes.faults.client = none)
    (hv : f.version = some .plist) (hm : f.msgType = some .messagePlist) {value : PlistValue}
    (hvalue : host.xml.fromBytes f.payload = .ok value)
    (hread : UsbMuxPacket.fromReader host.xml (f.bytes ++ rest) =
      (.ok ⟨⟨f.raw.len, .plist, .messagePlist, f.tag⟩, .plist value⟩, rest)) :
    Answered host f s (clientTurn host outcomes s (f.bytes ++ rest)) ↔
      silentFrame host outcomes s f = false := by
  rw [clientTurn_of_read hread]
  cases hrequest : host.fromValue value with
  | error text =>
    have hsilent : silentFrame host outcomes s f = false := by
      simp only [silentFrame, hv, hm, hvalue, hrequest, Bool.and_false]
    obtain ⟨values, h⟩ := replies_refused hc text
    have hreplies : Replies host f.tag false s (handleMessage host outcomes
        ⟨⟨f.raw.len, .plist, .messagePlist, f.tag⟩, .plist value⟩ s) values := by
      simpa only [handleMessage, UsbMuxPayload.asPlist, hrequest] using h
    rw [hsilent]
    exact answered_iff_of_replies hreplies
  | ok request =>
    have hsilent : silentFrame host outcomes s f = silentRequest host outcomes s request := by
      simp only [silentFrame, hv, hm, hvalue, hrequest, beq_self_eq_true, Bool.true_and]
    have hhandle : handleMessage host outcomes
        ⟨⟨f.raw.len, .plist, .messagePlist, f.tag⟩, .plist value⟩ s =
          handleRequest host outcomes f.tag request s := by
      simp only [handleMessage, UsbMuxPayload.asPlist, hrequest]
    rw [hsilent, hhandle]
    by_cases hlisten : request = .listen
    · -- the session goes over to the events
      subst hlisten
      refine iff_of_true (answered_of_listen ?_ (not_goesOn_classified (.inr rfl) _ s)) rfl
      simp only [ClientFrame.request, hv, hm, hvalue, hrequest, Except.toOption]
    · obtain ⟨values, h⟩ := replies_request hx hc request hlisten
      exact answered_iff_of_replies h

theorem answered_plist (hx : ReadsPaired host.xml) (hc : outcomes.faults.client = none)
    {m : UsbMuxMsgType} (hv : f.version = some .plist) (hm : f.msgType = some m) :
    Answered host f s (clientTurn host outcomes s (f.bytes ++ rest)) ↔
      silentFrame host outcomes s f = false := by
  have hread := f.fromReader_known host.xml hv hm rest
  cases hvalue : host.xml.fromBytes f.payload with
  | error e =>
    -- the packet is refused, and the loop goes on without a word
    have hturn : clientTurn host outcomes s (f.bytes ++ rest) = (s, some rest) := by
      rw [clientTurn, hread]
      simp only [UsbMuxPayload.decode, hvalue]
      rfl
    have hsilent : silentFrame host outcomes s f = true := by
      simp only [silentFrame, hv, hvalue]
    rw [hturn, hsilent]
    refine ⟨fun h => ?_, (fun h => by cases h)⟩
    obtain ⟨b, hb, -⟩ := h.reply rfl
    rw [newPackets, List.drop_length] at hb
    cases hb
  | ok value =>
    have hdecode : UsbMuxPacket.fromReader host.xml (f.bytes ++ rest) =
        (.ok ⟨⟨f.raw.len, .plist, m, f.tag⟩, .plist value⟩, rest) := by
      rw [hread]
      simp only [UsbMuxPayload.decode, hvalue]
      rfl
    by_cases hplist : m = .messagePlist
    · subst hplist
      exact answered_message hx hc hv hm hvalue hdecode
    · have hsilent : silentFrame host outcomes s f = false := by
        simpa [silentFrame, hv, hm, hvalue] using fun h => absurd h hplist
      obtain ⟨values, h⟩ := replies_badCommand hc f.raw.len .plist hplist (.plist value)
      rw [clientTurn_of_read hdecode, hsilent]
      exact answered_iff_of_replies h

end

/-- A request that is a plist message with a known header is answered, but for
those that its frame, the host and the outcomes name as silent. -/
theorem answered_iff_not_silentFrame (host : HandlerHost) (hx : ReadsPaired host.xml)
    (outcomes : Outcomes) (hc : outcomes.faults.client = none) (s : RecordState)
    (f : ClientFrame) (hknown : f.known = true) (rest : Bytes) :
    Answered host f s (clientTurn host outcomes s (f.bytes ++ rest)) ↔
      silentFrame host outcomes s f = false := by
  simp only [ClientFrame.known, Bool.and_eq_true, Option.isSome_iff_exists] at hknown
  obtain ⟨⟨v, hv⟩, m, hm⟩ := hknown
  cases v with
  | binary => exact answered_binary hc hv hm
  | plist => exact answered_plist hx hc hv hm

set_option maxRecDepth 8000 in
/-- The two messages differ in the first letter of their type. -/
theorem refusingHost_readsPaired : ReadsPaired refusingHost.xml := by
  intro deviceId value h
  have hne : writeXml (pairedMessage deviceId) ≠ writeXml (resultValue .badCommand) := by
    intro heq
    have hpaired : (writeXml (pairedMessage deviceId))[204]? = some 80 := rfl
    have hresult : (writeXml (resultValue .badCommand))[204]? = some 82 := rfl
    rw [heq, hresult] at hpaired
    cases hpaired
  exact absurd h (by simp [refusingHost, plistCodec, hne])

/-- A message of type `Result`, whose payload is empty. -/
def resultFrame : ClientFrame where
  bytes := u32le 16 ++ u32le 0 ++ u32le 1 ++ u32le 5
  size_le := by decide
  len_eq := by decide

/-- A message that is none of the requests is answered. -/
theorem answered_iff_not_silentFrame_result :
    Answered refusingHost resultFrame ⟨.empty, []⟩
      (clientTurn refusingHost quietOutcomes ⟨.empty, []⟩ (resultFrame.bytes ++ [])) :=
  (answered_iff_not_silentFrame refusingHost refusingHost_readsPaired quietOutcomes rfl
    ⟨.empty, []⟩ resultFrame (by decide) []).mpr (by decide)

/-- A plist message whose payload is sent as binary. -/
def binaryMessage : ClientFrame where
  bytes := u32le 16 ++ u32le 0 ++ u32le 8 ++ u32le 2
  size_le := by decide
  len_eq := by decide

/-- It gets no reply, though the loop goes on to the next packet. -/
theorem not_answered_binaryMessage :
    ¬ ∀ (host : HandlerHost) (outcomes : Outcomes) (s : RecordState) (f : ClientFrame)
      (rest : Bytes), outcomes.faults.client = none → f.known = true →
      Answered host f s (clientTurn host outcomes s (f.bytes ++ rest)) := by
  intro h
  have hanswered := h refusingHost quietOutcomes ⟨.empty, []⟩ binaryMessage [] rfl (by decide)
  have hv : binaryMessage.version = some .binary := by decide
  have hm : binaryMessage.msgType = some .messagePlist := by decide
  have hloud := (answered_binary rfl hv hm).mp hanswered
  have hsilent : silentFrame refusingHost quietOutcomes ⟨.empty, []⟩ binaryMessage = true := by
    decide
  rw [hsilent] at hloud
  cases hloud

end Rusbmux
