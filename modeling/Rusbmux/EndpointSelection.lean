import Rusbmux.Errors
import Mathlib.Data.List.Basic
import Mathlib.Data.List.Induction

/-! The choice of the usbmux endpoints from a device's descriptors, in
src/usb_backend/rusb.rs and src/usb_backend/nusb.rs. -/
namespace Rusbmux

def APPLE_USBMUX_CLASS : UInt8 := 255

def APPLE_USBMUX_SUBCLASS : UInt8 := 254

def APPLE_USBMUX_PROTOCOL : UInt8 := 2

inductive Direction where
  | in
  | out
  deriving DecidableEq, Repr

inductive TransferType where
  | control
  | isochronous
  | bulk
  | interrupt
  deriving DecidableEq, Repr

structure EndpointDescriptor where
  address : UInt8
  transferType : TransferType
  maxPacketSize : UInt16
  deriving DecidableEq, Repr

/-- The top bit of the address. -/
def EndpointDescriptor.direction (ep : EndpointDescriptor) : Direction :=
  if ep.address &&& 0x80 = 0 then .out else .in

structure AltSetting where
  interfaceNumber : UInt8
  classCode : UInt8
  subClassCode : UInt8
  protocolCode : UInt8
  endpoints : List EndpointDescriptor
  deriving DecidableEq, Repr

def AltSetting.isUsbmux (alt : AltSetting) : Bool :=
  alt.classCode == APPLE_USBMUX_CLASS && alt.subClassCode == APPLE_USBMUX_SUBCLASS &&
    alt.protocolCode == APPLE_USBMUX_PROTOCOL

/-- A configuration, each interface with its alternate settings. -/
structure Configuration where
  number : UInt8
  interfaces : List (List AltSetting)
  deriving DecidableEq, Repr

/-- What a backend settles on. -/
structure EndpointSelection where
  config : UInt8
  interface : UInt8
  endIn : UInt8
  endOut : UInt8
  deriving DecidableEq, Repr

/-- The variables of the search in the rusb backend. -/
structure RusbScan where
  foundIntf : Option UInt8
  foundCfgNum : Option UInt8
  inAddr : Option UInt8
  outAddr : Option UInt8
  outMaxPacketSize : Option UInt16

namespace RusbScan

def start : RusbScan := ⟨none, none, none, none, none⟩

def endpoint (s : RusbScan) (ep : EndpointDescriptor) : RusbScan :=
  -- of any transfer type, and over what an earlier endpoint left
  match ep.direction with
  | .in => { s with inAddr := some ep.address }
  | .out => { s with outAddr := some ep.address, outMaxPacketSize := some ep.maxPacketSize }

def alt (s : RusbScan) (cfgNum : UInt8) (alt : AltSetting) : RusbScan :=
  alt.endpoints.foldl endpoint
    { s with foundIntf := some alt.interfaceNumber, foundCfgNum := some cfgNum }

/-- The loop over the alternate settings, with its `break`. -/
def interface (s : RusbScan) (cfgNum : UInt8) : List AltSetting → RusbScan
  | [] => s
  | a :: alts => if a.isUsbmux then s.alt cfgNum a else interface s cfgNum alts

def config (s : RusbScan) (cfg : Configuration) : RusbScan :=
  cfg.interfaces.foldl (fun s alts => s.interface cfg.number alts) s

end RusbScan

/-- `device_endpoints` of the rusb backend, up to where it has chosen, with the
packet size of the OUT endpoint. -/
def rusbDeviceEndpoints (cfgs : List Configuration) :
    Except RusbmuxError (EndpointSelection × UInt16) := do
  let s := cfgs.foldl RusbScan.config .start
  let intfNum ← s.foundIntf.elim (.error .usbmuxInterfaceNotFound) .ok
  -- set with the interface, so the default never comes to be used
  let cfgNum := s.foundCfgNum.getD 1
  let endIn ← s.inAddr.elim (.error .bulkInEndpointNotFound) .ok
  let endOut ← s.outAddr.elim (.error .bulkOutEndpointNotFound) .ok
  .ok (⟨cfgNum, intfNum, endIn, endOut⟩, s.outMaxPacketSize.getD 512)

/-- The first bulk endpoint of a direction. -/
def AltSetting.bulk (alt : AltSetting) (d : Direction) : Option EndpointDescriptor :=
  alt.endpoints.find? fun ep => ep.direction = d ∧ ep.transferType = .bulk

/-- `device_endpoints` of the nusb backend, up to where it has chosen. -/
def nusbDeviceEndpoints (cfgs : List Configuration) : Except RusbmuxError EndpointSelection := do
  -- from the last configuration on, and the first setting within it
  let (intf, cfgNum) ← (cfgs.reverse.findSome? fun cfg =>
    (cfg.interfaces.flatten.find? AltSetting.isUsbmux).map fun intf => (intf, cfg.number)).elim
      (.error .usbmuxInterfaceNotFound) .ok
  let endOut ← (intf.bulk .out).elim (.error .bulkOutEndpointNotFound) .ok
  let endIn ← (intf.bulk .in).elim (.error .bulkInEndpointNotFound) .ok
  .ok ⟨cfgNum, intf.interfaceNumber, endIn.address, endOut.address⟩

/-- A bulk endpoint of this address in the alternate setting. -/
def AltSetting.HasBulk (alt : AltSetting) (d : Direction) (address : UInt8) : Prop :=
  ∃ ep ∈ alt.endpoints, ep.direction = d ∧ ep.transferType = .bulk ∧ ep.address = address

/-- Both endpoints are bulk endpoints of one usbmux alternate setting of the
interface. -/
def EndpointSelection.OfOneSetting (cfgs : List Configuration) (c : EndpointSelection) : Prop :=
  ∃ cfg ∈ cfgs, cfg.number = c.config ∧ ∃ alts ∈ cfg.interfaces, ∃ alt ∈ alts,
    alt.isUsbmux = true ∧ alt.interfaceNumber = c.interface ∧
      alt.HasBulk .in c.endIn ∧ alt.HasBulk .out c.endOut

/-- The backends both fail, or choose the same endpoints, and proper ones. -/
inductive BackendsAgree (cfgs : List Configuration) : Prop
  | fail (e e' : RusbmuxError) (hrusb : rusbDeviceEndpoints cfgs = .error e)
      (hnusb : nusbDeviceEndpoints cfgs = .error e')
  | choose (c : EndpointSelection) (size : UInt16)
      (hrusb : rusbDeviceEndpoints cfgs = .ok (c, size))
      (hnusb : nusbDeviceEndpoints cfgs = .ok c) (proper : c.OfOneSetting cfgs)

/-- The usbmux alternate setting of each interface that has one. -/
def Configuration.usbmuxAlts (cfg : Configuration) : List AltSetting :=
  cfg.interfaces.filterMap fun alts => alts.find? AltSetting.isUsbmux

/-- The last configuration that has usbmux settings: its number, the first of
these settings, and the others. -/
def lastUsbmux (cfgs : List Configuration) : Option (UInt8 × AltSetting × List AltSetting) :=
  cfgs.reverse.findSome? fun cfg => match cfg.usbmuxAlts with
    | [] => none
    | first :: more => some (cfg.number, first, more)

/-- The last endpoint of a direction in these settings. -/
def lastEndpoint (alts : List AltSetting) (d : Direction) : Option EndpointDescriptor :=
  ((alts.flatMap AltSetting.endpoints).filter fun ep => ep.direction = d).getLast?

/-- Both searches miss an endpoint: the one in its setting, the other in all. -/
structure MissEndpoints (cfgs : List Configuration) (first : AltSetting) : Prop where
  bulk : ∃ d, first.bulk d = none
  last : ∃ d, lastEndpoint (cfgs.flatMap Configuration.usbmuxAlts) d = none

/-- The settings behind the first one overwrite nothing of it. -/
structure FirstStands (first : AltSetting) (more : List AltSetting) : Prop where
  interface : (more.getLast?.getD first).interfaceNumber = first.interfaceNumber
  endpoint : ∀ d, ∃ ep, first.bulk d = some ep ∧
    (lastEndpoint (first :: more) d).map EndpointDescriptor.address = some ep.address

/-- The descriptors leave the two searches no choice. -/
def Unambiguous (cfgs : List Configuration) : Prop :=
  ∀ cfgNum first more, lastUsbmux cfgs = some (cfgNum, first, more) →
    MissEndpoints cfgs first ∨ FirstStands first more

theorem lastEndpoint_append (as bs : List AltSetting) (d : Direction) :
    lastEndpoint (as ++ bs) d = (lastEndpoint bs d).or (lastEndpoint as d) := by
  simp only [lastEndpoint, List.flatMap_append, List.filter_append, List.getLast?_append]

/-- The usbmux settings with the numbers of their configurations, as the forward
search comes to them. -/
def seen (cfgs : List Configuration) : List (UInt8 × AltSetting) :=
  cfgs.flatMap fun cfg => cfg.usbmuxAlts.map fun alt => (cfg.number, alt)

theorem map_snd_seen (cfgs : List Configuration) :
    (seen cfgs).map Prod.snd = cfgs.flatMap Configuration.usbmuxAlts := by
  simp only [seen, List.map_flatMap, List.map_map, Function.comp_def, List.map_id']

namespace RusbScan

theorem foldl_interface (cfgNum : UInt8) (interfaces : List (List AltSetting)) (s : RusbScan) :
    interfaces.foldl (fun s alts => s.interface cfgNum alts) s =
      (interfaces.filterMap fun alts => alts.find? AltSetting.isUsbmux).foldl
        (fun s a => s.alt cfgNum a) s := by
  have hone (s : RusbScan) (alts : List AltSetting) : s.interface cfgNum alts =
      (alts.find? AltSetting.isUsbmux).elim s (s.alt cfgNum) := by
    induction alts with
    | nil => rfl
    | cons a alts ih =>
      rw [interface, List.find?_cons]
      cases ha : a.isUsbmux with
      | true => rfl
      | false => exact ih
  induction interfaces generalizing s with
  | nil => rfl
  | cons alts interfaces ih =>
    rw [List.foldl_cons, hone, List.filterMap_cons]
    cases alts.find? AltSetting.isUsbmux with
    | none => exact ih s
    | some a => exact ih (s.alt cfgNum a)

/-- The search goes by the usbmux settings alone. -/
theorem foldl_config (cfgs : List Configuration) (s : RusbScan) :
    cfgs.foldl config s = (seen cfgs).foldl (fun s p => s.alt p.1 p.2) s := by
  induction cfgs generalizing s with
  | nil => rfl
  | cons cfg cfgs ih =>
    have hcons : seen (cfg :: cfgs) =
        (cfg.usbmuxAlts.map fun alt => (cfg.number, alt)) ++ seen cfgs := List.flatMap_cons
    rw [List.foldl_cons, ih, hcons, List.foldl_append, List.foldl_map, config, foldl_interface]
    rfl

/-- What the endpoints of one setting do to the variables. -/
theorem foldl_endpoint (eps : List EndpointDescriptor) (s : RusbScan) :
    let last d := (eps.filter fun ep => ep.direction = d).getLast?
    eps.foldl endpoint s = ⟨s.foundIntf, s.foundCfgNum,
      ((last .in).map EndpointDescriptor.address).or s.inAddr,
      ((last .out).map EndpointDescriptor.address).or s.outAddr,
      ((last .out).map EndpointDescriptor.maxPacketSize).or s.outMaxPacketSize⟩ := by
  induction eps using List.reverseRecOn with
  | nil => rfl
  -- from the end, because the last endpoint of a direction is the one that stays
  | append_singleton eps ep ih =>
    simp only [List.foldl_append, List.foldl_cons, List.foldl_nil, ih, List.filter_append,
      List.getLast?_append]
    cases hd : ep.direction <;> simp [endpoint, hd]

/-- The variables behind the search. -/
theorem foldl_alt (alts : List (UInt8 × AltSetting)) :
    alts.foldl (fun s p => s.alt p.1 p.2) start =
      ⟨alts.getLast?.map fun p => p.2.interfaceNumber, alts.getLast?.map Prod.fst,
        (lastEndpoint (alts.map Prod.snd) .in).map EndpointDescriptor.address,
        (lastEndpoint (alts.map Prod.snd) .out).map EndpointDescriptor.address,
        (lastEndpoint (alts.map Prod.snd) .out).map EndpointDescriptor.maxPacketSize⟩ := by
  induction alts using List.reverseRecOn with
  | nil => rfl
  | append_singleton alts p ih =>
    have hone (d : Direction) : lastEndpoint [p.2] d =
        (p.2.endpoints.filter fun ep => ep.direction = d).getLast? := by
      rw [lastEndpoint, List.flatMap_singleton]
    rw [List.foldl_append, ih]
    simp only [List.foldl_cons, List.foldl_nil, alt, foldl_endpoint, List.map_append,
      List.map_cons, List.map_nil, lastEndpoint_append, hone, Option.map_or, List.getLast?_concat,
      Option.map_some]

end RusbScan

theorem seen_append (cfgs cfgs' : List Configuration) :
    seen (cfgs ++ cfgs') = seen cfgs ++ seen cfgs' := List.flatMap_append

theorem seen_singleton (cfg : Configuration) :
    seen [cfg] = cfg.usbmuxAlts.map fun alt => (cfg.number, alt) := List.flatMap_singleton _ _

theorem lastUsbmux_append (cfgs : List Configuration) (cfg : Configuration) :
    lastUsbmux (cfgs ++ [cfg]) = match cfg.usbmuxAlts with
      | [] => lastUsbmux cfgs
      | first :: more => some (cfg.number, first, more) := by
  rw [lastUsbmux, List.reverse_append, List.reverse_singleton, List.singleton_append,
    List.findSome?_cons]
  cases cfg.usbmuxAlts <;> rfl

theorem seen_of_lastUsbmux_none {cfgs : List Configuration} (h : lastUsbmux cfgs = none) :
    seen cfgs = [] := by
  induction cfgs using List.reverseRecOn with
  | nil => rfl
  | append_singleton cfgs cfg ih =>
    rw [lastUsbmux_append] at h
    rw [seen_append, seen_singleton]
    cases halts : cfg.usbmuxAlts with
    | nil =>
      rw [halts] at h
      rw [ih h]
      rfl
    | cons first more =>
      rw [halts] at h
      cases h

/-- The settings that the forward search comes to last. -/
theorem seen_of_lastUsbmux {cfgs : List Configuration} {cfgNum : UInt8} {first : AltSetting}
    {more : List AltSetting} (h : lastUsbmux cfgs = some (cfgNum, first, more)) :
    ∃ earlier, seen cfgs = earlier ++ (first :: more).map fun alt => (cfgNum, alt) := by
  induction cfgs using List.reverseRecOn with
  | nil => cases h
  | append_singleton cfgs cfg ih =>
    rw [lastUsbmux_append] at h
    rw [seen_append, seen_singleton]
    cases halts : cfg.usbmuxAlts with
    | nil =>
      rw [halts] at h
      obtain ⟨earlier, hearlier⟩ := ih h
      exact ⟨earlier, by rw [hearlier, List.map_nil, List.append_nil]⟩
    | cons =>
      rw [halts] at h
      cases h
      exact ⟨seen cfgs, rfl⟩

section Backends

variable {cfgs : List Configuration} {cfgNum : UInt8} {first : AltSetting} {more : List AltSetting}

theorem scan_eq (cfgs : List Configuration) : cfgs.foldl RusbScan.config .start =
    ⟨(seen cfgs).getLast?.map fun p => p.2.interfaceNumber, (seen cfgs).getLast?.map Prod.fst,
      (lastEndpoint (cfgs.flatMap Configuration.usbmuxAlts) .in).map EndpointDescriptor.address,
      (lastEndpoint (cfgs.flatMap Configuration.usbmuxAlts) .out).map EndpointDescriptor.address,
      (lastEndpoint (cfgs.flatMap Configuration.usbmuxAlts) .out).map
        EndpointDescriptor.maxPacketSize⟩ := by
  rw [RusbScan.foldl_config, RusbScan.foldl_alt, map_snd_seen]

theorem rusb_none (h : lastUsbmux cfgs = none) :
    rusbDeviceEndpoints cfgs = .error .usbmuxInterfaceNotFound := by
  rw [rusbDeviceEndpoints, scan_eq, seen_of_lastUsbmux_none h]
  rfl

theorem rusb_some (h : lastUsbmux cfgs = some (cfgNum, first, more)) :
    rusbDeviceEndpoints cfgs =
      match lastEndpoint (cfgs.flatMap Configuration.usbmuxAlts) .in,
        lastEndpoint (cfgs.flatMap Configuration.usbmuxAlts) .out with
      | some endIn, some endOut =>
        .ok (⟨cfgNum, (more.getLast?.getD first).interfaceNumber, endIn.address, endOut.address⟩,
          endOut.maxPacketSize)
      | none, _ => .error .bulkInEndpointNotFound
      | some _, none => .error .bulkOutEndpointNotFound := by
  obtain ⟨earlier, hseen⟩ := seen_of_lastUsbmux h
  have hlast : (seen cfgs).getLast? = some (cfgNum, more.getLast?.getD first) := by
    rw [hseen, List.getLast?_append, List.getLast?_map, List.getLast?_cons]
    rfl
  rw [rusbDeviceEndpoints, scan_eq, hlast]
  cases lastEndpoint (cfgs.flatMap Configuration.usbmuxAlts) .in with
  | none => rfl
  | some endIn => cases lastEndpoint (cfgs.flatMap Configuration.usbmuxAlts) .out <;> rfl

/-- The backward search finds the first of the last settings. -/
theorem nusb_eq (cfgs : List Configuration) :
    nusbDeviceEndpoints cfgs = match lastUsbmux cfgs with
      | none => .error .usbmuxInterfaceNotFound
      | some (cfgNum, first, _) => match first.bulk .out, first.bulk .in with
        | some endOut, some endIn =>
          .ok ⟨cfgNum, first.interfaceNumber, endIn.address, endOut.address⟩
        | none, _ => .error .bulkOutEndpointNotFound
        | some _, none => .error .bulkInEndpointNotFound := by
  -- a match in the flattened settings is the first match of the first interface with one
  have hfound : (cfgs.reverse.findSome? fun cfg =>
      (cfg.interfaces.flatten.find? AltSetting.isUsbmux).map fun intf => (intf, cfg.number)) =
      (lastUsbmux cfgs).map fun p => (p.2.1, p.1) := by
    rw [lastUsbmux, List.map_findSome?]
    congr 1
    funext cfg
    rw [List.find?_flatten, ← List.head?_filterMap, Function.comp_apply]
    unfold Configuration.usbmuxAlts
    cases cfg.interfaces.filterMap fun alts => alts.find? AltSetting.isUsbmux <;> rfl
  rw [nusbDeviceEndpoints, hfound]
  cases lastUsbmux cfgs with
  | none => rfl
  | some p =>
    obtain ⟨cfgNum, first, more⟩ := p
    simp only [Option.map_some, Option.elim_some, bind, Except.bind]
    cases first.bulk .out with
    | none => rfl
    | some endOut => cases first.bulk .in <;> rfl

theorem rusb_error_iff (h : lastUsbmux cfgs = some (cfgNum, first, more)) :
    (∃ e, rusbDeviceEndpoints cfgs = .error e) ↔
      ∃ d, lastEndpoint (cfgs.flatMap Configuration.usbmuxAlts) d = none := by
  rw [rusb_some h]
  cases hin : lastEndpoint (cfgs.flatMap Configuration.usbmuxAlts) .in with
  | none => exact iff_of_true ⟨_, rfl⟩ ⟨.in, hin⟩
  | some endIn =>
    cases hout : lastEndpoint (cfgs.flatMap Configuration.usbmuxAlts) .out with
    | none => exact iff_of_true ⟨_, rfl⟩ ⟨.out, hout⟩
    | some endOut =>
      refine iff_of_false nofun ?_
      rintro ⟨d, hd⟩
      cases d with
      | «in» => cases hin.symm.trans hd
      | out => cases hout.symm.trans hd

theorem rusb_ok_iff (h : lastUsbmux cfgs = some (cfgNum, first, more)) (c : EndpointSelection) :
    (∃ size, rusbDeviceEndpoints cfgs = .ok (c, size)) ↔
      c.config = cfgNum ∧ c.interface = (more.getLast?.getD first).interfaceNumber ∧
        (lastEndpoint (cfgs.flatMap Configuration.usbmuxAlts) .in).map EndpointDescriptor.address =
          some c.endIn ∧
        (lastEndpoint (cfgs.flatMap Configuration.usbmuxAlts) .out).map EndpointDescriptor.address =
          some c.endOut := by
  rw [rusb_some h]
  cases lastEndpoint (cfgs.flatMap Configuration.usbmuxAlts) .in with
  | none => exact iff_of_false nofun nofun
  | some endIn =>
    cases lastEndpoint (cfgs.flatMap Configuration.usbmuxAlts) .out with
    | none => exact iff_of_false nofun nofun
    | some endOut =>
      constructor
      · rintro ⟨_, heq⟩
        cases heq
        exact ⟨rfl, rfl, rfl, rfl⟩
      · intro hc
        obtain ⟨config, interface, inAddr, outAddr⟩ := c
        obtain ⟨rfl, rfl, hin, hout⟩ := hc
        cases hin
        cases hout
        exact ⟨_, rfl⟩

theorem nusb_error_iff (h : lastUsbmux cfgs = some (cfgNum, first, more)) :
    (∃ e, nusbDeviceEndpoints cfgs = .error e) ↔ ∃ d, first.bulk d = none := by
  rw [nusb_eq, h]
  dsimp only
  cases hout : first.bulk .out with
  | none => exact iff_of_true ⟨_, rfl⟩ ⟨.out, hout⟩
  | some endOut =>
    cases hin : first.bulk .in with
    | none => exact iff_of_true ⟨_, rfl⟩ ⟨.in, hin⟩
    | some endIn =>
      refine iff_of_false nofun ?_
      rintro ⟨d, hd⟩
      cases d with
      | «in» => cases hin.symm.trans hd
      | out => cases hout.symm.trans hd

theorem nusb_ok_iff (h : lastUsbmux cfgs = some (cfgNum, first, more)) (c : EndpointSelection) :
    nusbDeviceEndpoints cfgs = .ok c ↔
      c.config = cfgNum ∧ c.interface = first.interfaceNumber ∧
        (first.bulk .in).map EndpointDescriptor.address = some c.endIn ∧
        (first.bulk .out).map EndpointDescriptor.address = some c.endOut := by
  rw [nusb_eq, h]
  dsimp only
  cases first.bulk .out with
  | none => exact iff_of_false nofun nofun
  | some endOut =>
    cases first.bulk .in with
    | none => exact iff_of_false nofun nofun
    | some endIn =>
      constructor
      · intro heq
        cases heq
        exact ⟨rfl, rfl, rfl, rfl⟩
      · intro hc
        obtain ⟨config, interface, inAddr, outAddr⟩ := c
        obtain ⟨rfl, rfl, hin, hout⟩ := hc
        cases hin
        cases hout
        rfl

theorem usbmuxAlts_eq (h : lastUsbmux cfgs = some (cfgNum, first, more)) :
    ∃ earlier, cfgs.flatMap Configuration.usbmuxAlts = earlier ++ first :: more := by
  obtain ⟨earlier, hseen⟩ := seen_of_lastUsbmux h
  refine ⟨earlier.map Prod.snd, ?_⟩
  rw [← map_snd_seen, hseen, List.map_append, List.map_map]
  exact congrArg _ (List.map_id _)

/-- Where the first setting has an endpoint, no earlier configuration matters. -/
theorem lastEndpoint_eq (h : lastUsbmux cfgs = some (cfgNum, first, more)) {d : Direction}
    {ep : EndpointDescriptor} (hep : first.bulk d = some ep) :
    lastEndpoint (cfgs.flatMap Configuration.usbmuxAlts) d = lastEndpoint (first :: more) d := by
  obtain ⟨earlier, halts⟩ := usbmuxAlts_eq h
  -- the endpoint that nusb finds is one of those that rusb comes to
  have hmem : ep ∈ ((first :: more).flatMap AltSetting.endpoints).filter
      fun ep => ep.direction = d := by
    have hfound := List.find?_some hep
    rw [decide_eq_true_iff] at hfound
    rw [List.mem_filter, List.mem_flatMap]
    exact ⟨⟨first, List.mem_cons_self, List.mem_of_find?_eq_some hep⟩, decide_eq_true hfound.1⟩
  have hsome : lastEndpoint (first :: more) d ≠ none := by
    rw [lastEndpoint, Ne, List.getLast?_eq_none_iff]
    exact List.ne_nil_of_mem hmem
  obtain ⟨last, hlast⟩ := Option.ne_none_iff_exists'.mp hsome
  rw [halts, lastEndpoint_append, hlast, Option.some_or]

/-- The endpoints that nusb chooses belong to one usbmux setting. -/
theorem ofOneSetting_of_nusb {c : EndpointSelection} (h : nusbDeviceEndpoints cfgs = .ok c) :
    c.OfOneSetting cfgs := by
  cases hlast : lastUsbmux cfgs with
  | none =>
    rw [nusb_eq, hlast] at h
    cases h
  | some p =>
    obtain ⟨cfgNum, first, more⟩ := p
    obtain ⟨hcfg, hintf, hin, hout⟩ := (nusb_ok_iff hlast c).mp h
    obtain ⟨cfg, hmem, hcase⟩ := List.exists_of_findSome?_eq_some hlast
    have hbulk (d : Direction) (address : UInt8)
        (hd : (first.bulk d).map EndpointDescriptor.address = some address) :
        first.HasBulk d address := by
      obtain ⟨ep, hep, haddr⟩ := Option.map_eq_some_iff.mp hd
      have hfound := List.find?_some hep
      rw [decide_eq_true_iff] at hfound
      exact ⟨ep, List.mem_of_find?_eq_some hep, hfound.1, hfound.2, haddr⟩
    cases halts : cfg.usbmuxAlts with
    | nil =>
      rw [halts] at hcase
      cases hcase
    | cons a alts =>
      rw [halts] at hcase
      cases hcase
      have hfirst : first ∈ cfg.usbmuxAlts := halts ▸ List.mem_cons_self
      obtain ⟨settings, hsettings, hfind⟩ := List.mem_filterMap.mp hfirst
      exact ⟨cfg, List.mem_reverse.mp hmem, hcfg.symm, settings, hsettings, first,
        List.mem_of_find?_eq_some hfind, List.find?_some hfind, hintf.symm, hbulk _ _ hin,
        hbulk _ _ hout⟩

end Backends

/-- For every descriptor tree: the backends agree exactly where the descriptors
leave them no choice. -/
theorem backendsAgree_iff (cfgs : List Configuration) :
    BackendsAgree cfgs ↔ Unambiguous cfgs := by
  constructor
  · intro hagree cfgNum first more h
    cases hagree with
    | fail e e' hrusb hnusb =>
      exact Or.inl ⟨(nusb_error_iff h).mp ⟨e', hnusb⟩, (rusb_error_iff h).mp ⟨e, hrusb⟩⟩
    | choose c size hrusb hnusb proper =>
      -- the addresses of the one choice, as each search came by them
      obtain ⟨-, hintf, hin, hout⟩ := (rusb_ok_iff h c).mp ⟨size, hrusb⟩
      obtain ⟨-, hintf', hin', hout'⟩ := (nusb_ok_iff h c).mp hnusb
      refine Or.inr ⟨hintf.symm.trans hintf', fun d => ?_⟩
      cases d with
      | «in» =>
        obtain ⟨ep, hep, haddr⟩ := Option.map_eq_some_iff.mp hin'
        exact ⟨ep, hep, by rw [← lastEndpoint_eq h hep, hin, haddr]⟩
      | out =>
        obtain ⟨ep, hep, haddr⟩ := Option.map_eq_some_iff.mp hout'
        exact ⟨ep, hep, by rw [← lastEndpoint_eq h hep, hout, haddr]⟩
  · intro hone
    cases h : lastUsbmux cfgs with
    | none =>
      refine .fail .usbmuxInterfaceNotFound .usbmuxInterfaceNotFound (rusb_none h) ?_
      rw [nusb_eq, h]
    | some p =>
      obtain ⟨cfgNum, first, more⟩ := p
      rcases hone cfgNum first more h with hmiss | hstands
      · obtain ⟨e, hrusb⟩ := (rusb_error_iff h).mpr hmiss.last
        obtain ⟨e', hnusb⟩ := (nusb_error_iff h).mpr hmiss.bulk
        exact .fail e e' hrusb hnusb
      · -- what nusb chooses stands, so rusb ends up with it as well
        obtain ⟨endIn, hin, hlastIn⟩ := hstands.endpoint .in
        obtain ⟨endOut, hout, hlastOut⟩ := hstands.endpoint .out
        have hnusb : nusbDeviceEndpoints cfgs =
            .ok ⟨cfgNum, first.interfaceNumber, endIn.address, endOut.address⟩ :=
          (nusb_ok_iff h _).mpr ⟨rfl, rfl, by rw [hin]; rfl, by rw [hout]; rfl⟩
        obtain ⟨size, hrusb⟩ := (rusb_ok_iff h
          ⟨cfgNum, first.interfaceNumber, endIn.address, endOut.address⟩).mpr
            ⟨rfl, hstands.interface.symm, by rw [lastEndpoint_eq h hin, hlastIn],
              by rw [lastEndpoint_eq h hout, hlastOut]⟩
        exact .choose _ size hrusb hnusb (ofOneSetting_of_nusb hnusb)

/-- A device whose usbmux interface also has an interrupt endpoint for input. -/
theorem interruptEndpoint_not_agree : ¬ ∀ cfgs, BackendsAgree cfgs := by
  intro h
  have hagree := h [⟨1, [[⟨0, 255, 254, 2,
    [⟨0x81, .bulk, 512⟩, ⟨0x02, .bulk, 512⟩, ⟨0x83, .interrupt, 64⟩]⟩]]⟩]
  cases hagree with
  | fail e e' hrusb hnusb => cases hrusb
  | choose c size hrusb hnusb proper =>
    cases hrusb
    cases hnusb

/-- The device that both searches are made for: one usbmux setting with one
endpoint for each direction. -/
theorem unambiguous_of_single {cfgs : List Configuration} {alt : AltSetting}
    (h : cfgs.flatMap Configuration.usbmuxAlts = [alt])
    (hep : ∀ d, ∃ ep, alt.endpoints.filter (fun ep => ep.direction = d) = [ep] ∧
      ep.transferType = .bulk) : Unambiguous cfgs := by
  intro cfgNum first more hlast
  obtain ⟨earlier, halts⟩ := usbmuxAlts_eq hlast
  rw [h] at halts
  have hcons : first = alt ∧ more = [] := by
    rcases List.append_eq_singleton_iff.mp halts.symm with ⟨-, hcons⟩ | ⟨-, hnil⟩
    · exact List.cons.inj hcons
    · cases hnil
  obtain ⟨rfl, rfl⟩ := hcons
  refine Or.inr ⟨rfl, fun d => ?_⟩
  obtain ⟨ep, hfilter, hbulk⟩ := hep d
  refine ⟨ep, ?_, ?_⟩
  · have hfind : first.bulk d = (first.endpoints.filter fun ep => ep.direction = d).find?
        fun ep => ep.transferType = .bulk := by
      rw [List.find?_filter]
      simp only [AltSetting.bulk, decide_eq_true_eq]
    rw [hfind, hfilter]
    exact List.find?_cons_of_pos (decide_eq_true hbulk)
  · rw [lastEndpoint, List.flatMap_singleton, hfilter]
    rfl

end Rusbmux
