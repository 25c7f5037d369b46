import Rusbmux.FirstMatch
import Rusbmux.IdPairing
import Rusbmux.RecordPaths

/-! `resolve_service` of src/watcher/network.rs: the UDID of the device behind an
mDNS service, found by the pairing files, and the requests that change the files. -/
namespace Rusbmux

/-- The fields of a pairing file that the watcher reads. -/
structure PairingFile where
  hostId : String
  wifiMacAddress : String
  deriving DecidableEq, Repr

/-- The idevice crate: the parser of pairing files, and the tags of a service. -/
structure PairingHost where
  readFromFile : Bytes → Option PairingFile
  decodeAuthTag : Bytes → Option Bytes
  deriveAuthTag : String → Bytes → Bytes

inductive IpAddr where
  | v4 (addr : UInt32)
  | v6 (addr : BitVec 128)
  deriving DecidableEq, Repr

inductive ScopedIp where
  | v4 (addr : UInt32) (interfaceIds : List UInt32)
  | v6 (addr : BitVec 128) (scopeId : UInt32)
  deriving DecidableEq, Repr

structure ResolvedService where
  addresses : List ScopedIp
  properties : List (String × Option Bytes)
  fullname : String
  deriving DecidableEq, Repr

structure ResolvedDevice where
  addr : IpAddr × Option IpAddr
  scopeId : UInt32
  macAddress : String
  serviceName : String
  udid : String
  deriving DecidableEq, Repr

/-- The name at its last dot. -/
def rsplitDot : List Char → Option (List Char × List Char)
  | [] => none
  | c :: cs => match rsplitDot cs with
    | some (stem, extension) => some (c :: stem, extension)
    | none => if c = '.' then some ([], cs) else none

/-- `Path::file_stem` of a directory entry. -/
def fileStem (name : String) : String :=
  match rsplitDot name.toList with
  | some (c :: stem, _) => String.ofList (c :: stem)
  -- also a name whose only dot is its first character
  | _ => name

namespace ResolvedService

variable (rs : ResolvedService)

/-- `get_property_val` of mdns_sd takes no notice of the case of a key. -/
def propertyVal (key : String) : Option Bytes :=
  (rs.properties.find? fun p => p.1.toLower == key.toLower).bind Prod.snd

def authTags : List Bytes :=
  (rs.properties.filter fun p =>
    p.1 == "authTag" || "authTag#".toList.isPrefixOf p.1.toList).filterMap Prod.snd

def ipv6 : Option (IpAddr × UInt32) := rs.addresses.findSome? fun
  | .v6 addr scopeId => some (.v6 addr, scopeId)
  | .v4 _ _ => none

def ipv4 : Option (IpAddr × UInt32) := rs.addresses.findSome? fun
  | .v4 addr interfaceIds => some (.v4 addr, interfaceIds.head?.getD 0)
  | .v6 _ _ => none

/-- The addresses that are tried, and the scope of the first; without any address
the code is at its `unreachable!()`. -/
def addrs : Option ((IpAddr × Option IpAddr) × UInt32) :=
  match rs.ipv6, rs.ipv4 with
  | some (v6, scope), some (v4, _) => some ((v6, some v4), scope)
  | some (v6, scope), none => some ((v6, none), scope)
  | none, some (v4, scope) => some ((v4, none), scope)
  | none, none => none

end ResolvedService

section

variable (host : PairingHost) (dir : List (String × Bytes)) (rs : ResolvedService)

/-- The files of the directory, in the order in which it lists them. -/
def getSavedPairingFiles : List (String × PairingFile) :=
  dir.filterMap fun entry => (host.readFromFile entry.2).map fun pf => (fileStem entry.1, pf)

def findUdidFromTxt (identifier : Bytes) (authTags : List Bytes) : Option String :=
  if authTags = [] then none
  else
    let decodedTags := authTags.filterMap host.decodeAuthTag
    if decodedTags = [] then none
    else (getSavedPairingFiles host dir).findSome? fun (udid, pf) =>
      if decodedTags.contains (host.deriveAuthTag pf.hostId identifier) then some udid else none

def getUdidFromMacAddr (macAddr : String) : Option String :=
  (getSavedPairingFiles host dir).findSome? fun (udid, pf) =>
    if macAddr = pf.wifiMacAddress then some udid else none

def udidOf : Option String :=
  match rs.propertyVal "identifier" with
  | some identifier =>
    if rs.authTags ≠ [] then findUdidFromTxt host dir identifier rs.authTags
    else getUdidFromMacAddr host dir (macAddressOf rs.fullname)
  | none => getUdidFromMacAddr host dir (macAddressOf rs.fullname)

/-- The outer `none` is the `unreachable!()` of a service without an address. -/
def resolveService : Option (Option ResolvedDevice) :=
  rs.addrs.map fun (addr, scopeId) => (udidOf host dir rs).map fun udid =>
    { addr := addr
      scopeId := scopeId
      macAddress := macAddressOf rs.fullname
      serviceName := rs.fullname
      udid := udid }

/-- The pairing file is that of the service's device: by the tags of its TXT record
if it has any, and by its MAC address if not. -/
def answers (pf : PairingFile) : Bool :=
  match rs.propertyVal "identifier", rs.authTags with
  | some identifier, tag :: tags =>
    ((tag :: tags).filterMap host.decodeAuthTag).contains (host.deriveAuthTag pf.hostId identifier)
  | _, _ => macAddressOf rs.fullname = pf.wifiMacAddress

/-- The UDID of an entry that answers to the service. -/
def hit (entry : String × Bytes) : Option String :=
  ((host.readFromFile entry.2).filter (answers host rs)).map fun _ => fileStem entry.1

end

section

variable {host : PairingHost} {dir : List (String × Bytes)} {rs : ResolvedService}

theorem findSome_savedPairingFiles (f : String × PairingFile → Option String) :
    (getSavedPairingFiles host dir).findSome? f = dir.findSome? fun entry =>
      (host.readFromFile entry.2).bind fun pf => f (fileStem entry.1, pf) := by
  unfold getSavedPairingFiles
  induction dir with
  | nil => rfl
  | cons entry dir ih =>
    rw [List.filterMap_cons, List.findSome?_cons]
    cases host.readFromFile entry.2 with
    | none => exact ih
    | some pf =>
      simp only [Option.map_some, List.findSome?_cons, Option.bind_some, ih]

theorem findUdidFromTxt_eq (identifier : Bytes) (authTags : List Bytes) :
    findUdidFromTxt host dir identifier authTags = dir.findSome? fun entry =>
      ((host.readFromFile entry.2).filter fun pf =>
        (authTags.filterMap host.decodeAuthTag).contains
          (host.deriveAuthTag pf.hostId identifier)).map fun _ => fileStem entry.1 := by
  have hempty (h : authTags.filterMap host.decodeAuthTag = []) : (none : Option String) =
      dir.findSome? fun entry => ((host.readFromFile entry.2).filter fun pf =>
        (authTags.filterMap host.decodeAuthTag).contains
          (host.deriveAuthTag pf.hostId identifier)).map fun _ => fileStem entry.1 := by
    symm
    apply List.findSome?_eq_none_iff.mpr
    intro entry _
    rw [h]
    cases host.readFromFile entry.2 <;> rfl
  unfold findUdidFromTxt
  by_cases htags : authTags = []
  · rw [if_pos htags]
    exact hempty (by rw [htags]; rfl)
  · rw [if_neg htags]
    by_cases hdecoded : authTags.filterMap host.decodeAuthTag = []
    · exact (if_pos hdecoded).trans (hempty hdecoded)
    · refine (if_neg hdecoded).trans ?_
      rw [findSome_savedPairingFiles]
      congr 1
      funext entry
      cases host.readFromFile entry.2 with
      | none => rfl
      | some pf =>
        rw [Option.bind_some, Option.filter_some]
        dsimp only
        split_ifs <;> rfl

theorem getUdidFromMacAddr_eq (macAddr : String) :
    getUdidFromMacAddr host dir macAddr = dir.findSome? fun entry =>
      ((host.readFromFile entry.2).filter fun pf => decide (macAddr = pf.wifiMacAddress)).map
        fun _ => fileStem entry.1 := by
  unfold getUdidFromMacAddr
  rw [findSome_savedPairingFiles]
  congr 1
  funext entry
  cases host.readFromFile entry.2 with
  | none => rfl
  | some pf =>
    rw [Option.bind_some, Option.filter_some]
    simp only [decide_eq_true_eq]
    split_ifs <;> rfl

/-- The UDID is that of the first file that answers. -/
theorem udidOf_eq : udidOf host dir rs = dir.findSome? (hit host rs) := by
  unfold udidOf hit answers
  cases rs.propertyVal "identifier" with
  | none => exact getUdidFromMacAddr_eq _
  | some identifier =>
    cases rs.authTags with
    | nil => exact getUdidFromMacAddr_eq _
    | cons tag tags => exact findUdidFromTxt_eq identifier (tag :: tags)

theorem addrs_eq_none_iff : rs.addrs = none ↔ rs.addresses = [] := by
  have hnone : rs.addrs = none ↔ rs.ipv6 = none ∧ rs.ipv4 = none := by
    unfold ResolvedService.addrs
    cases rs.ipv6 <;> cases rs.ipv4 <;> simp
  rw [hnone, ResolvedService.ipv6, ResolvedService.ipv4, List.findSome?_eq_none_iff,
    List.findSome?_eq_none_iff, List.eq_nil_iff_forall_not_mem]
  constructor
  · rintro ⟨h6, h4⟩ addr haddr
    cases addr with
    | v4 ip interfaceIds => cases h4 _ haddr
    | v6 ip scopeId => cases h6 _ haddr
  · intro h
    exact ⟨fun addr haddr => absurd haddr (h addr), fun addr haddr => absurd haddr (h addr)⟩

/-- Which device a service with an address resolves to is independent of the order
in which the directory lists its files just if all files that answer have one
UDID. -/
theorem resolveService_perm_iff (host : PairingHost) (dir : List (String × Bytes))
    (rs : ResolvedService) :
    (∀ dir' : List (String × Bytes), dir'.Perm dir →
      resolveService host dir' rs = resolveService host dir rs) ↔
        rs.addresses = [] ∨ FirstMatch.Agree (hit host rs) dir := by
  rw [← FirstMatch.perm_findSome_iff, ← addrs_eq_none_iff]
  unfold resolveService
  cases haddrs : rs.addrs with
  | none => simp only [Option.map_none, implies_true, true_or]
  | some addrs =>
    have hinj {x y : Option String}
        (h : (x.map fun udid => ResolvedDevice.mk addrs.1 addrs.2 (macAddressOf rs.fullname)
          rs.fullname udid) = y.map fun udid => ResolvedDevice.mk addrs.1 addrs.2
            (macAddressOf rs.fullname) rs.fullname udid) : x = y :=
      Option.map_injective (fun _ _ he => (ResolvedDevice.mk.inj he).2.2.2.2) h
    simp only [Option.map_some, Option.some.injEq, reduceCtorEq, false_or, udidOf_eq]
    constructor
    · exact fun h dir' hperm => hinj (h dir' hperm)
    · intro h dir' hperm
      rw [h dir' hperm]

end

/-- Every file that is there afterwards was there before, or holds a data value, or
what a write of one that failed has left. -/
def OnlyData (xml : PlistXml) (files files' : KeyTable String Bytes) : Prop :=
  ∀ path content, files'.get path = some content →
    files.get path = some content ∨ ∃ data, content <+: xml.toXml (.data data)

/-- The handler writes no files but such, whatever it comes to. -/
def Handler.WritesData {α : Type} (xml : PlistXml) (m : Handler α) : Prop :=
  ∀ s, OnlyData xml s.files (m s).2.files

namespace OnlyData

variable {xml : PlistXml} {files files' files'' : KeyTable String Bytes}

theorem refl (files : KeyTable String Bytes) : OnlyData xml files files := fun _ _ h => .inl h

theorem trans (h : OnlyData xml files files') (h' : OnlyData xml files' files'') :
    OnlyData xml files files'' := by
  intro path content hget
  rcases h' path content hget with hkept | hdata
  · exact h path content hkept
  · exact .inr hdata

end OnlyData

namespace Handler.WritesData

variable {α β : Type} {xml : PlistXml} {host : PairRecordHost} {faults : IoFaults}

theorem of_files {m : Handler α} (h : ∀ s, (m s).2.files = s.files) : WritesData xml m := by
  intro s
  rw [h s]
  exact .refl _

theorem bind {m : Handler α} {f : α → Handler β} (hm : WritesData xml m)
    (hf : ∀ a, WritesData xml (f a)) : WritesData xml (m >>= f) := by
  intro s
  have hfirst := hm s
  rcases hrun : m s with ⟨e | a, t⟩ <;> rw [hrun] at hfirst
  · rw [Handler.bind_of_error hrun]
    exact hfirst
  · rw [Handler.bind_of_ok hrun]
    exact hfirst.trans (hf a t)

theorem writeAll (packet : Bytes) : WritesData xml (writeAll faults packet) := by
  apply of_files
  intro s
  unfold Rusbmux.writeAll
  cases faults.client <;> rfl

theorem checkId (id : String) : WritesData xml (checkId id) := by
  apply of_files
  intro s
  unfold Rusbmux.checkId
  split_ifs <;> rfl

theorem fsRead (path : String) : WritesData xml (fsRead faults path) := by
  apply of_files
  intro s
  unfold Rusbmux.fsRead
  split <;> rfl

theorem fsWrite (path : String) (data : Bytes) :
    WritesData xml (fsWrite faults path (xml.toXml (.data data))) := by
  intro s path' content hget
  rcases fsWrite_get path (xml.toXml (.data data)) s path' with hkept | ⟨-, part, hpart, hcut⟩
  · exact .inl (hkept.symm.trans hget)
  · cases hcut.symm.trans hget
    exact .inr ⟨data, hpart⟩

theorem fsRemove (path : String) : WritesData xml (fsRemove faults path) := by
  intro s
  unfold Rusbmux.fsRemove
  split
  · exact .refl _
  · exact .refl _
  · intro path' content hget
    rw [KeyTable.get_remove] at hget
    split_ifs at hget
    exact .inl hget

theorem refuse (kinds : List IoErrorKind) (e : RusbmuxError) (tag : UInt32) :
    WritesData xml (refuse host faults kinds e tag) := by
  have hsend : WritesData xml (sendError host faults kinds e tag) := by
    unfold sendError
    split
    · exact writeAll _
    · split_ifs
      · exact writeAll _
      · exact of_files fun _ => rfl
    · exact of_files fun _ => rfl
  exact hsend.bind fun _ => of_files fun _ => rfl

theorem savePairRecord (id : String) (data : Bytes) (deviceId : Option UInt64) (tag : UInt32) :
    WritesData host.xml (savePairRecord host faults id data deviceId tag) := by
  refine (checkId id).bind fun _ => (fsWrite _ data).bind fun _ => ?_
  cases deviceId with
  | none => exact of_files fun _ => rfl
  | some deviceId => exact writeAll _

theorem readPairRecord (id : String) (tag : UInt32) :
    WritesData xml (readPairRecord host faults id tag) :=
  (checkId id).bind fun _ => (fsRead _).bind fun _ => writeAll _

theorem deletePairRecord (id : String) : WritesData xml (deletePairRecord host faults id) :=
  (checkId id).bind fun _ => fsRemove _

/-- A handler that answers what its inner function comes to. -/
theorem answered {m : Handler Unit} {ok : Handler Unit} {error : RusbmuxError → Handler Unit}
    (hm : WritesData xml m) (hok : WritesData xml ok) (herror : ∀ e, WritesData xml (error e)) :
    WritesData xml fun s => match m s with
      | (.ok (), s) => ok s
      | (.error e, s) => error e s := by
  intro s
  dsimp only
  have hfirst := hm s
  rcases hrun : m s with ⟨e | _, t⟩ <;> rw [hrun] at hfirst
  · exact hfirst.trans (herror e t)
  · exact hfirst.trans (hok t)

theorem handleRecord (tag : UInt32) (request : RecordRequest) :
    WritesData host.xml (handleRecord host faults tag request) := by
  cases request with
  | savePairRecord id data deviceId =>
    exact answered (savePairRecord id data deviceId tag) (writeAll _) fun e => refuse _ e tag
  | readPairRecord id =>
    exact answered (readPairRecord id tag) (of_files fun _ => rfl) fun e => refuse _ e tag
  | deletePairRecord id =>
    exact answered (deletePairRecord id) (writeAll _) fun e => refuse _ e tag

end Handler.WritesData

/-- A request with whatever it comes to. -/
def handles (host : PairRecordHost) (s : RecordState) (r : Served) : Option RecordState :=
  some (handleRecord host r.faults r.tag r.request s).2

/-- What a listing of the directory may give. -/
def ListsFiles (host : PairRecordHost) (s : RecordState) (dir : List (String × Bytes)) : Prop :=
  ∀ entry ∈ dir, s.files.get (host.lockdownPath ++ "/" ++ entry.1) = some entry.2

/-- A service resolves only to a device whose pairing file was there before, and
still is as it was. -/
def ResolvesOld (host : PairRecordHost) (pairing : PairingHost) (before s : RecordState) : Prop :=
  ∀ dir, ListsFiles host s dir → ∀ rs device, resolveService pairing dir rs = some (some device) →
    ∃ entry ∈ dir, hit pairing rs entry = some device.udid ∧
      before.files.get (host.lockdownPath ++ "/" ++ entry.1) = some entry.2

/-- The device is that of a file that answers. -/
theorem hit_of_resolveService {pairing : PairingHost} {dir : List (String × Bytes)}
    {rs : ResolvedService} {device : ResolvedDevice}
    (h : resolveService pairing dir rs = some (some device)) :
    ∃ entry ∈ dir, hit pairing rs entry = some device.udid := by
  obtain ⟨addrs, -, hudid⟩ := Option.map_eq_some_iff.mp h
  obtain ⟨udid, hfirst, rfl⟩ := Option.map_eq_some_iff.mp hudid
  rw [udidOf_eq] at hfirst
  exact FirstMatch.mem_of_findSome hfirst

/-- In every run of pair-record requests, whatever they come to, no device is ever
found on the network by a record that was saved in it: a saved record is a data
value, and neither it nor a part of it is a pairing file. -/
theorem resolvesOld_of_requests {host : PairRecordHost} {pairing : PairingHost}
    (hdata : ∀ data content, content <+: host.xml.toXml (.data data) →
      pairing.readFromFile content = none)
    (before : RecordState) (requests : List Served) :
    StepSystem.EveryState (handles host) (ResolvesOld host pairing before) before requests := by
  let Kept (s : RecordState) : Prop := OnlyData host.xml before.files s.files
  have hstep (s : RecordState) (r : Served) (t : RecordState) (h : Kept s) (_ : True)
      (hst : handles host s r = some t) : Kept t := by
    cases hst
    exact h.trans (Handler.WritesData.handleRecord r.tag r.request s)
  have hstart : Kept before := .refl before.files
  have hrun : StepSystem.EveryState (handles host) Kept before requests :=
    StepSystem.everyState_of_everyStep hstep hstart (StepSystem.everyStep_true before requests)
  refine hrun.mono fun s h dir hdir rs device hresolve => ?_
  obtain ⟨entry, hentry, hhit⟩ := hit_of_resolveService hresolve
  refine ⟨entry, hentry, hhit, ?_⟩
  rcases h _ _ (hdir entry hentry) with hold | ⟨data, hcontent⟩
  · exact hold
  · rw [hit, hdata data _ hcontent] at hhit
    cases hhit

/-- A pairing file with the fields that the watcher reads. -/
def pairedFile : Bytes := writeXml (.dictionary [("HostID", .string "H"),
  ("WiFiMACAddress", .string "aa:bb")])

/-- Reads that file, and no file with another value at its root. -/
def pairedHost : PairingHost where
  readFromFile := fun content => if content = pairedFile then some ⟨"H", "aa:bb"⟩ else none
  decodeAuthTag := some
  deriveAuthTag := fun _ _ => []

theorem ascii_data : ascii "<data>\n" = [60, 100, 97, 116, 97, 62, 10] := by decide

theorem ascii_dict : ascii "<dict>\n" = [60, 100, 105, 99, 116, 62, 10] := by decide

theorem plistDocument_prefix {a b : Bytes} (h : plistDocument a <+: plistDocument b) :
    a ++ ascii "</plist>" <+: b ++ ascii "</plist>" := by
  simp only [plistDocument, List.append_assoc, List.prefix_append_right_inj] at h
  exact h

/-- The third byte of the root's tag tells them apart. -/
theorem pairedFile_not_prefix (data : Bytes) : ¬ pairedFile <+: writeXml (.data data) := by
  intro h
  have hroot := plistDocument_prefix h
  simp only [element, dataElement, ascii_data, ascii_dict, List.nil_append, List.cons_append,
    List.append_assoc, List.cons_prefix_cons] at hroot
  exact absurd hroot.2.2.1 (by decide)

attribute [local irreducible] writeXml pairedFile

theorem pairedHost_refuses (data content : Bytes) (h : content <+: xmlHost.xml.toXml (.data data)) :
    pairedHost.readFromFile content = none := by
  refine if_neg ?_
  rintro rfl
  exact pairedFile_not_prefix data h

/-- A save of the record `B` that fails after 40 bytes. -/
def cutSave : Served := ⟨.savePairRecord "B" [7] none, 3, ⟨some .other, none, some 40⟩⟩

/-- One device is paired, and a client saves the record of another, and then the
device's own in part. -/
theorem resolvesOld_of_requests_byte : StepSystem.EveryState (handles xmlHost)
    (ResolvesOld xmlHost pairedHost
      ⟨KeyTable.empty.insert "/var/lib/lockdown/B.plist" pairedFile, []⟩)
    ⟨KeyTable.empty.insert "/var/lib/lockdown/B.plist" pairedFile, []⟩ [savedByte, cutSave] :=
  resolvesOld_of_requests pairedHost_refuses _ _

end Rusbmux
