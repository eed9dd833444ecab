import Zebra.Ospfd.DrElection
import Zebra.Ospfd.Send

/-! The router-LSA of an area, of ospfd/ospf_lsa.c. The option for NSSA is off. -/
namespace Zebra.Ospfd.Originate
open Base Lib Packet Stream List

/-- What links and Hello packets need of `struct ospf_neighbor`. -/
structure SeenNeighbor where
  routerId : InAddr
  address : InAddr
  state : NsmState
  dRouter : InAddr := 0
  bdRouter : InAddr := 0
deriving DecidableEq

/-- What links need of `struct ospf_interface`; `routerId` is the one of the router. -/
structure LinkInterface where
  routerId : InAddr
  /-- `if_is_up (oi->ifp)` -/
  up : Bool := true
  type : IfType
  state : IsmState
  address : InAddr
  prefixlen : Nat
  /-- `oi->connected->destination` -/
  destination : Option InAddr := none
  outputCost : BitVec 32
  dr : InAddr := 0
  nbrs : List SeenNeighbor

structure LinkInfo where
  id : InAddr
  data : InAddr
  type : Octet
  tos : Octet
  cost : BitVec 16
deriving DecidableEq

/-- What the router-LSA needs of `struct ospf_area` and `struct ospf`. -/
structure OriginArea where
  routerId : InAddr
  flags : Octet
  fullVls : Nat := 0
  /-- `ospf->abr_type == OSPF_ABR_SHORTCUT` -/
  abrShortcut : Bool := false
  isBackbone : Bool := true
  /-- `ospf->backbone != NULL` -/
  hasBackbone : Bool := true
  shortcutConfigured : Nat := 0
  externalRouting : ExternalRouting := .default
  oiflist : List LinkInterface

def ospfMaxLsaSize : Nat := 1500

namespace LinkInterface
variable (oi : LinkInterface)

/-- `ospf_nbr_count` -/
def ospfNbrCount (state : NsmState) : Nat :=
  (oi.nbrs.filter fun nbr => nbr.routerId ≠ oi.routerId &&
    (state = .dependUpon || nbr.state = state)).length

/-- `ospf_nbr_lookup_ptop`: where no neighbour is full, the last one of the table. -/
def ospfNbrLookupPtop : Option SeenNeighbor :=
  (oi.nbrs.find? fun nbr => nbr.routerId ≠ oi.routerId && nbr.state = .full).or oi.nbrs.getLast?

/-- The network of the interface as a stub. -/
def stubLink : LinkInfo :=
  ⟨oi.address &&& masklen2ip oi.prefixlen, masklen2ip oi.prefixlen, 3, 0, oi.outputCost.setWidth 16⟩

/-! The links that each function sets, in their order; it returns their number. -/

def lsaLinkPtopSet : List LinkInfo :=
  (match oi.ospfNbrLookupPtop with
    | some nbr => if nbr.state = .full then
      [⟨nbr.routerId, oi.address, 1, 0, oi.outputCost.setWidth 16⟩] else []
    | none => []) ++
  match oi.destination with
    | some destination => [⟨destination, 0xffffffff, 3, 0, oi.outputCost.setWidth 16⟩]
    | none => [oi.stubLink]

def lsaLinkBroadcastSet : List LinkInfo :=
  if oi.state = .waiting then [oi.stubLink]
  else
    let dr := oi.nbrs.find? fun nbr => nbr.address = oi.dr
    if dr.any (fun dr => dr.state = .full || oi.address = oi.dr) ∧ 0 < oi.ospfNbrCount .full then
      [⟨oi.dr, oi.address, 2, 0, oi.outputCost.setWidth 16⟩]
    else [oi.stubLink]

def lsaLinkLoopbackSet : List LinkInfo :=
  if oi.state ≠ .loopback then [] else [⟨oi.address, 0xffffffff, 3, 0, oi.outputCost.setWidth 16⟩]

def lsaLinkVirtuallinkSet : List LinkInfo :=
  if oi.state = .pointToPoint then
    match oi.ospfNbrLookupPtop with
    | some nbr => if nbr.state = .full then
      [⟨nbr.routerId, oi.address, 4, 0, oi.outputCost.setWidth 16⟩] else []
    | none => []
  else []

def lsaLinkPtompSet : List LinkInfo :=
  ⟨oi.address, 0xffffffff, 3, 0, 0⟩ ::
    (oi.nbrs.filter fun nbr => nbr.routerId ≠ oi.routerId && nbr.state = .full).map fun nbr =>
      ⟨nbr.routerId, oi.address, 1, 0, oi.outputCost.setWidth 16⟩

/-- The links of an interface that is up. -/
def links : List LinkInfo :=
  if oi.up ∧ oi.state ≠ .down then
    match oi.type with
    | .pointopoint => oi.lsaLinkPtopSet
    | .broadcast => oi.lsaLinkBroadcastSet
    | .nbma => oi.lsaLinkBroadcastSet
    | .pointomultipoint => oi.lsaLinkPtompSet
    | .virtuallink => oi.lsaLinkVirtuallinkSet
    | .loopback => oi.lsaLinkLoopbackSet
  else []

end LinkInterface

def linkInfoSet (s : Stream) (link : LinkInfo) : Option Stream := do
  let s ← s.streamPutIpv4 link.id
  let s ← s.streamPutIpv4 link.data
  let s ← s.streamPutc link.type
  let s ← s.streamPutc link.tos
  s.streamPutw link.cost

namespace OriginArea
variable (area : OriginArea)

def routerLsaFlags : Octet :=
  let flags := if area.fullVls ≠ 0 then area.flags ||| 0x04 else area.flags &&& ~~~0x04
  let flags := flags &&& ~~~0x20
  let flags :=
    if area.abrShortcut ∧ ¬area.isBackbone ∧
      (area.shortcutConfigured = 0 ∧ ¬area.hasBackbone ∨ area.shortcutConfigured = 1) then
      flags ||| 0x20
    else flags
  if area.externalRouting = .stub then flags &&& ~~~0x02 else flags

/-- The stream, and how many links were set. -/
def routerLsaLinkSet (s : Stream) : Option (Stream × Nat) :=
  area.oiflist.foldlM (fun (s, links) oi => do
    let s ← oi.links.foldlM linkInfoSet s
    return (s, links + oi.links.length)) (s, 0)

def ospfRouterLsaBodySet (s : Stream) : Option Stream := do
  let s ← s.streamPutc area.routerLsaFlags
  let s ← s.streamPutc 0
  let putp := s.putp
  let s ← s.streamPutw 0
  let (s, cnt) ← area.routerLsaLinkSet s
  s.store putp (toOctets 2 (BitVec.ofNat 16 cnt).toNat)

/-- `LSA_OPTIONS_GET` -/
def lsaOptionsGet : Octet := if area.externalRouting = .default then 0x02 else 0

def lsaHeaderSet (s : Stream) (type : Octet) (id : InAddr) : Option Stream := do
  let s ← s.store 0 ([0, 0, area.lsaOptionsGet, type] ++ toOctets 4 id.toNat ++
    toOctets 4 area.routerId.toNat ++ [0x80, 0, 0, 1])
  return s.streamSetPutp (s.putp + ospfLsaHeaderSize)

/-- The octets of the new router-LSA. -/
def ospfRouterLsaNew : Option (List Octet) := do
  let s ← area.lsaHeaderSet (Stream.streamNew ospfMaxLsaSize) 1 area.routerId
  let s ← area.ospfRouterLsaBodySet s
  let length := s.endp
  let s ← s.store 18 (toOctets 2 (BitVec.ofNat 16 length).toNat)
  s.load 0 length

/-- The links of all interfaces. -/
def links : List LinkInfo := area.oiflist.flatMap LinkInterface.links

end OriginArea

/-- A link record. -/
def LinkInfo.octets (link : LinkInfo) : List Octet :=
  toOctets 4 link.id.toNat ++ toOctets 4 link.data.toNat ++ [link.type, link.tos] ++
    toOctets 2 link.cost.toNat

/-- A router-LSA with these links: their number and the length say what is there. -/
structure Describes (data : List Octet) (links : List LinkInfo) : Prop where
  records : data.drop 24 = links.flatMap LinkInfo.octets
  length : data.length = 24 + 12 * links.length
  lengthField : (field data 18 2).toNat = data.length
  linkCount : (field data 22 2).toNat = links.length

section Append
variable {s : Stream} {front room octets : List Octet}
variable (link : LinkInfo)

theorem linkInfoSet_room (fits : 12 ≤ room.length) :
    linkInfoSet (standing front room 0) link =
      some (standing (front ++ link.octets) (room.drop 12) 0) := by
  have four (value : BitVec 32) : (toOctets 4 value.toNat).length = 4 := length_toOctets ..
  have two : (toOctets 2 link.cost.toNat).length = 2 := length_toOctets ..
  rw [linkInfoSet, streamPutIpv4, putWhole_on (by rw [four]; omega)]
  refine bind_ran rfl (bind_ran (putWhole_on ?_) ?_)
  · rw [four, four, length_drop]
    omega
  refine bind_ran (putc_on ?_) ?_
  · rw [four, four, length_drop, length_drop]
    omega
  refine bind_ran (putc_on ?_) ?_
  · rw [four, four, length_drop, length_drop, length_drop]
    omega
  refine (putWhole_on ?_).trans ?_
  · rw [four, four, length_drop, length_drop, length_drop, length_drop]
    omega
  · simp only [two, four, drop_drop, LinkInfo.octets, append_assoc, cons_append, nil_append]

theorem linkInfoSet_full : linkInfoSet (standing front [] 0) link = some (standing front [] 0) := by
  have whole (octets : List Octet) (some_ : 0 < octets.length) :
      (standing front [] 0).putWhole octets = some (standing front [] 0) := by
    have inside : ¬ (standing front [] 0).size < (standing front [] 0).putp := by
      simp [size, standing]
    have short : (standing front [] 0).size - (standing front [] 0).putp < octets.length := by
      simpa [size, standing] using some_
    rw [putWhole, if_neg inside, if_pos short]
  have single (c : Octet) : (standing front [] 0).streamPutc c = some (standing front [] 0) := by
    rw [streamPutc, if_pos (by simp [size, standing])]
  rw [linkInfoSet, streamPutIpv4, whole _ (by rw [length_toOctets]; decide)]
  refine bind_ran rfl (bind_ran (whole _ (by rw [length_toOctets]; decide)) ?_)
  refine bind_ran (single _) ?_
  refine bind_ran (single _) ?_
  exact whole _ (by rw [length_toOctets]; decide)

theorem LinkInfo.length_octets : link.octets.length = 12 := by
  simp [LinkInfo.octets]

theorem length_flatMap_octets (links : List LinkInfo) :
    (links.flatMap LinkInfo.octets).length = 12 * links.length := by
  induction links with
  | nil => rfl
  | cons link links ih =>
    rw [flatMap_cons, length_append, link.length_octets, length_cons]
    omega

theorem foldlM_linkInfoSet {slots} (whole : room.length = 12 * slots) (links : List LinkInfo) :
    ∃ left, links.foldlM linkInfoSet (standing front room 0) =
      some (standing (front ++ (links.take slots).flatMap LinkInfo.octets) left 0) := by
  induction links generalizing front room slots with
  | nil => exact ⟨room, by simp⟩
  | cons link links ih =>
    cases slots with
    | zero =>
      obtain rfl : room = [] := eq_nil_of_length_eq_zero whole
      obtain ⟨left, written⟩ := @ih front [] 0 rfl
      refine ⟨left, ?_⟩
      rw [foldlM_cons, linkInfoSet_full]
      exact written
    | succ slots =>
      obtain ⟨left, written⟩ :=
        @ih (front ++ link.octets) (room.drop 12) slots (by rw [length_drop]; omega)
      refine ⟨left, ?_⟩
      rw [foldlM_cons, linkInfoSet_room link (by omega), take_succ_cons,
        flatMap_cons, ← append_assoc]
      exact written

theorem foldlM_links (ois : List LinkInterface) (count : Nat) (s : Stream) :
    ois.foldlM (fun (s, links) oi => do
      let s ← oi.links.foldlM linkInfoSet s
      return (s, links + oi.links.length)) (s, count) =
      ((ois.flatMap LinkInterface.links).foldlM linkInfoSet s).map
        (·, count + (ois.flatMap LinkInterface.links).length) := by
  induction ois generalizing s count with
  | nil => rfl
  | cons oi ois ih =>
    rw [foldlM_cons, flatMap_cons, foldlM_append]
    dsimp only
    cases oi.links.foldlM linkInfoSet s with
    | none => rfl
    | some next =>
      refine (ih (count + oi.links.length) next).trans ?_
      rw [length_append, add_assoc]
      rfl

end Append

namespace OriginArea
variable (area : OriginArea)

/-- How many links there is room for. -/
def linkSlots : Nat := 123

/-- The router-LSA has the links that fit, and the number of all of them. -/
theorem ospfRouterLsaNew_eq :
    ∃ data, area.ospfRouterLsaNew = some data ∧
      data.length = 24 + 12 * (area.links.take linkSlots).length ∧
      data.drop 24 = (area.links.take linkSlots).flatMap LinkInfo.octets ∧
      (field data 18 2).toNat = data.length ∧
      (field data 22 2).toNat = area.links.length % 65536 := by
  obtain ⟨room, split, roomLength⟩ :
      ∃ room, (streamNew ospfMaxLsaSize).data = replicate 20 0 ++ room ∧
      room.length = 1480 :=
    ⟨replicate 1480 0, by rw [replicate_append_replicate]; rfl, length_replicate⟩
  obtain ⟨fields, isFields⟩ :=
    @exists_eq _ ([0, 0, area.lsaOptionsGet, 1] ++ toOctets 4 area.routerId.toNat ++
    toOctets 4 area.routerId.toNat ++ [0x80, 0, 0, 1])
  have sixteen : fields.length = 16 := by
    rw [isFields]
    simp
  obtain ⟨header, isHeader⟩ := @exists_eq _ (overwrite (replicate 20 0) 0 fields)
  have size : header.length = 20 := by rw [isHeader, length_overwrite, length_replicate]
  have headed : area.lsaHeaderSet (streamNew ospfMaxLsaSize) 1 area.routerId =
      some { data := header ++ room, putp := 20, endp := 0 } := by
    rw [lsaHeaderSet, ← isFields,
      store_front split (by rw [sixteen, length_replicate]; decide), ← isHeader]
    rfl
  -- flags, zero and the number of links
  have flags := @putc_standing {
    data := header ++ room, putp := 20, endp := 0 } header room area.routerLsaFlags rfl size.symm
    (by rw [roomLength]; decide)
  have zero := @putc_on (header ++ [area.routerLsaFlags])
    (room.drop 1) 0 0 (by rw [length_drop, roomLength]; decide)
  obtain ⟨front, isFront⟩ := @exists_eq _ (header ++ [area.routerLsaFlags] ++ [0])
  have frontLength : front.length = 22 := by
    rw [isFront, length_append, length_append, size]
    rfl
  rw [← isFront, drop_drop] at zero
  have counted := @putWhole_on front (toOctets 2 (0 : BitVec 16).toNat) (room.drop 2) 0
    (by rw [length_toOctets, length_drop, roomLength]; decide)
  rw [drop_drop] at counted
  -- the links
  have slots : (room.drop 4).length = 12 * linkSlots + 4 - 4 := by
    rw [length_drop, roomLength, linkSlots]
  obtain ⟨left, written⟩ := @foldlM_linkInfoSet (front ++ toOctets 2 (0 : BitVec 16).toNat)
    (room.drop 4) linkSlots slots area.links
  obtain ⟨records, isRecords⟩ := @exists_eq _ ((area.links.take linkSlots).flatMap LinkInfo.octets)
  rw [← isRecords] at written
  have recordsLength : records.length = 12 * (area.links.take linkSlots).length := by
    rw [isRecords, length_flatMap_octets]
  obtain ⟨cnt, isCnt⟩ := @exists_eq _ (toOctets 2 (BitVec.ofNat 16 area.links.length).toNat)
  have cntLength : cnt.length = 2 := by rw [isCnt, length_toOctets]
  have linked :
      area.routerLsaLinkSet (standing (front ++ toOctets 2 (0 : BitVec 16).toNat) (room.drop 4) 0) =
      some (standing (front ++ toOctets 2 (0 : BitVec 16).toNat ++ records) left 0,
        area.links.length) := by
    rw [routerLsaLinkSet, foldlM_links]
    refine (congrArg (Option.map _) written).trans ?_
    rw [zero_add]
    rfl
  have stored : (standing (front ++ toOctets 2 (0 : BitVec 16).toNat ++ records) left 0).store
      front.length cnt =
      some { standing (front ++ toOctets 2 (0 : BitVec 16).toNat ++ records) left 0 with
        data := front ++ cnt ++ (records ++ left) } := by
    refine @store_middle _ front (toOctets 2 (0 : BitVec 16).toNat)
      (records ++ left) cnt ?_ (by rw [length_toOctets, cntLength])
    simp only [standing, append_assoc]
  have body : area.ospfRouterLsaBodySet { data := header ++ room, putp := 20, endp := 0 } =
      some { standing (front ++ toOctets 2 (0 : BitVec 16).toNat ++ records) left 0 with
        data := front ++ cnt ++ (records ++ left) } := by
    refine bind_ran flags ?_
    refine bind_ran zero ?_
    refine bind_ran counted ?_
    refine bind_ran linked ?_
    dsimp only
    rw [← isCnt]
    exact stored
  have endp : (front ++ toOctets 2 (0 : BitVec 16).toNat ++ records).length =
      24 + records.length := by
    rw [length_append, length_append, frontLength, length_toOctets]
  have few : (area.links.take linkSlots).length ≤ 123 := length_take_le ..
  obtain ⟨length, isLength⟩ := @exists_eq _ (BitVec.ofNat 16 (24 + records.length))
  have exact_ : length.toNat = 24 + records.length := by
    rw [isLength, BitVec.toNat_ofNat, Nat.mod_eq_of_lt (by omega)]
  obtain ⟨sized, isSized⟩ := @exists_eq _ (overwrite front 18 (toOctets 2 length.toNat))
  have sizedLength : sized.length = 22 := by rw [isSized, length_overwrite, frontLength]
  have whole : (sized ++ cnt ++ records).length = 24 + records.length := by
    rw [length_append, length_append, sizedLength, cntLength]
  refine ⟨sized ++ cnt ++ records, ?_, by rw [whole, recordsLength], ?_, ?_, ?_⟩
  · rw [ospfRouterLsaNew, headed]
    refine bind_ran rfl (bind_ran body ?_)
    have fill :
        ({ data := front ++ cnt ++ (records ++ left), putp := 24 + records.length,
           endp := 24 + records.length } : Stream).store 18
        (toOctets 2 length.toNat) =
        some { data := sized ++ (cnt ++ (records ++ left)), putp := 24 + records.length,
               endp := 24 + records.length } := by
      rw [isSized]
      exact store_front (append_assoc ..) (by rw [length_toOctets, frontLength]; decide)
    dsimp only [Option.bind_some, standing]
    rw [Nat.zero_max, endp, ← isLength]
    refine bind_ran fill ?_
    have there : sized ++ (cnt ++ (records ++ left)) = sized ++ cnt ++ records ++ left := by
      simp only [append_assoc]
    have inside : 0 + (24 + records.length) ≤ (sized ++ cnt ++ records ++ left).length := by
      rw [length_append]
      omega
    rw [there, Stream.load, Stream.size, if_pos inside, ← whole, slice_whole]
  · rw [append_assoc, ← append_assoc, drop_left' (by rw [length_append, sizedLength, cntLength]),
      isRecords]
  · have own : field sized 18 2 = length := by
      rw [isSized]
      exact field_overwrite_same (by rw [frontLength]; decide)
    rw [whole, append_assoc, field_front (by rw [sizedLength]; decide), own, exact_]
  · have at_ := field_middle sized records (BitVec.ofNat 16 area.links.length)
    rw [← isCnt, sizedLength] at at_
    rw [at_, BitVec.toNat_ofNat]

/-- The router-LSA describes its links exactly when there is room for all of them, but for numbers
that the count does not tell from 123. -/
theorem routerLsa_describes_iff :
    (∃ data links, area.ospfRouterLsaNew = some data ∧ Describes data links) ↔
      area.links.length ≤ 123 ∨ area.links.length % 65536 = 123 := by
  obtain ⟨data, made, length, records, lengthField, linkCount⟩ := area.ospfRouterLsaNew_eq
  have taken : (area.links.take linkSlots).length = min 123 area.links.length := length_take
  constructor
  · rintro ⟨other, links, made', describes⟩
    obtain rfl : data = other := Option.some.inj (made.symm.trans made')
    have same := describes.length
    have count := describes.linkCount
    omega
  · intro room
    refine ⟨data, area.links.take linkSlots, made, records, length, lengthField, ?_⟩
    omega

end OriginArea
end Zebra.Ospfd.Originate
