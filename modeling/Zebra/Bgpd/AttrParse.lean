import Zebra.Base.Reader
import Zebra.Bgpd.Peer
import Mathlib.Data.List.Sort

/-! Parsing the path attributes of an UPDATE, `bgp_attr_parse` of bgpd/bgp_attr.c. -/
namespace Zebra.Bgpd
open Base

inductive UpdateError where
  | malAttr
  | unrecAttr
  | missAttr
  | attrFlag
  | attrLeng
  | invalOrigin
  | invalNetwork
  | malAsPath
deriving DecidableEq

/-- Why a parser gave up: the subcode of the UPDATE error that is sent, if one is,
with its data. -/
structure Failure where
  subcode : Option UpdateError
  data : List Octet := []
deriving DecidableEq

/-- The objects that are kept in hashes and counted. -/
inductive Ref where
  | aspath (aspath : Aspath)
  | community (community : Community)
  | ecommunity (ecommunity : Ecommunity)
  | cluster (cluster : ClusterList)
  | transit (transit : Transit)
deriving DecidableEq

/-- The reference counts of all objects. -/
abbrev Refs := Ref → Int

def Refs.add (refs : Refs) (ref : Ref) (amount : Int) : Refs :=
  fun other => if other = ref then refs other + amount else refs other

/-- An AS path is in its hash as long as something refers to it. -/
def Refs.stored (refs : Refs) (aspath : Aspath) : Bool :=
  0 < refs (.aspath aspath)

abbrev AttrReader := Reader Refs Failure

def intern (ref : Ref) : AttrReader Unit :=
  Reader.change fun refs => refs.add ref 1

def unintern (ref : Ref) : AttrReader Unit :=
  Reader.change fun refs => refs.add ref (-1)

def attrFlagOptional : Octet := 0x80
def attrFlagTrans : Octet := 0x40
def attrFlagPartial : Octet := 0x20
def attrFlagExtlen : Octet := 0x10

def checkFlag (flag bits : Octet) : Bool := flag &&& bits ≠ 0

/-- Flag, type and length of an attribute, and where it starts. -/
structure AttrHeader where
  flag : Octet
  type : Octet
  length : Nat
  startp : Nat

/-- The octets of an attribute before its value. -/
def headerLength (flag : Octet) : Nat :=
  if checkFlag flag attrFlagExtlen then 4 else 3

def AttrHeader.total (header : AttrHeader) : Nat :=
  header.length + headerLength header.flag

/-- Where the value starts. -/
def AttrHeader.value (header : AttrHeader) : Nat :=
  header.startp + headerLength header.flag

section Notify
variable {Value : Type}

def notify (subcode : UpdateError) : AttrReader Value :=
  Reader.fail { subcode := some subcode }

/-- `bgp_notify_send_with_data` with the whole attribute. -/
def notifyWithData (subcode : UpdateError) (header : AttrHeader) : AttrReader Value := do
  let data ← Reader.peek header.startp header.total
  Reader.fail { subcode := some subcode, data := data }

end Notify

def words (width : Nat) : Nat → List Octet → List (BitVec (8 * width))
  | 0, _ => []
  | count + 1, octets =>
    BitVec.ofNat _ (ofOctets (octets.take width)) :: words width count (octets.drop width)

/-- `community_uniq_sort`. -/
def communityUniqSort (val : List (BitVec 32)) : List (BitVec 32) :=
  (val.foldl (fun new value => if value ∈ new then new else new ++ [value]) []).insertionSort
    (· ≤ ·)

/-- `community_parse` without the reference it takes. -/
def communityParse (octets : List Octet) : Option Community :=
  if octets.length % 4 ≠ 0 then none
    else some ⟨communityUniqSort (words 4 (octets.length / 4) octets)⟩

/-- `ecommunity_add_val`. -/
def ecommunityAddVal : List (BitVec 64) → BitVec 64 → List (BitVec 64)
  | [], eval => [eval]
  | first :: rest, eval =>
    if first = eval then first :: rest
    else if eval < first then eval :: first :: rest
    else first :: ecommunityAddVal rest eval

def ecommunityUniqSort (val : List (BitVec 64)) : List (BitVec 64) :=
  val.foldl ecommunityAddVal []

/-- `ecommunity_parse` without the reference it takes. -/
def ecommunityParse (octets : List Octet) : Option Ecommunity :=
  if octets.length % 8 ≠ 0 then none
    else some ⟨ecommunityUniqSort (words 8 (octets.length / 8) octets)⟩

/-- `cluster_parse` without the reference it takes. -/
def clusterParse (octets : List Octet) : ClusterList :=
  ⟨words 4 (octets.length / 4) octets⟩

/-- `struct bgp_nlri`; `length` is a sixteen bit number. -/
structure Nlri where
  afi : BitVec 16 := 0
  safi : Octet := 0
  nlri : Nat := 0
  length : Nat := 0
deriving DecidableEq

def afiIp : BitVec 16 := 1
def afiIp6 : BitVec 16 := 2
def safiUnicast : Octet := 1
def safiMulticast : Octet := 2
def bgpSafiVpnv4 : Octet := 128

def psize (prefixlen : Nat) : Nat := (prefixlen + 7) / 8

/-- The prefix lengths that an address family has room for; of other families
nothing is known. -/
def prefixlenFits (afi : BitVec 16) (prefixlen : Nat) : Bool :=
  !(afi = afiIp && decide (32 < prefixlen)) && !(afi = afiIp6 && decide (128 < prefixlen))

def nlriSanityLoop (afi : BitVec 16) (stop : Nat) : Nat → Nat → AttrReader Unit
  | 0, _ => pure ()
  | fuel + 1, pnt =>
    if pnt < stop then do
      let octets ← Reader.peek pnt 1
      let prefixlen := ofOctets octets
      if !prefixlenFits afi prefixlen then notify .invalNetwork
      else if stop < pnt + 1 + psize prefixlen then notify .invalNetwork
      else nlriSanityLoop afi stop fuel (pnt + 1 + psize prefixlen)
    else pure ()

/-- `bgp_nlri_sanity_check`: every round takes an octet at least. The pointer cannot
end behind the octets. -/
def bgpNlriSanityCheck (afi : BitVec 16) (pnt length : Nat) : AttrReader Unit :=
  nlriSanityLoop afi (pnt + length) length pnt

section Attributes
variable (bgp : Bgp) (peer : Peer) (header : AttrHeader) (attr : Attr)

def bgpAttrOrigin : AttrReader Attr :=
  if header.flag ≠ attrFlagTrans then notifyWithData .attrFlag header
  else if header.length ≠ 1 then notifyWithData .attrLeng header
  else do
    let origin ← Reader.number 1
    if 2 < origin then notifyWithData .invalOrigin header
    else pure ({ attr with origin := origin }.mark .origin)

/-- The flags of a well-known attribute. -/
def wellKnown (flag : Octet) : Bool :=
  !checkFlag flag attrFlagOptional && checkFlag flag attrFlagTrans

/-- `aspath_firstas_check` looks at the type of the first segment and, in a
sequence, at its first AS number, whatever length the segment has. -/
def firstasCheck (aspath : Aspath) : AttrReader Bool := do
  let start ← Reader.getp
  match aspath.data with
  | [] => pure false
  | type :: _ =>
    let _ ← Reader.peek start 1
    if type = asSequence then
      let _ ← Reader.peek (start + 2) 2
      pure (aspathFirstasCheck aspath peer.as)
    else pure false

/-- The local-as prepend of `bgp_attr_aspath`. -/
def localAsPrepend (aspath : Aspath) : AttrReader Aspath :=
  if peer.changeLocalAs ≠ 0 ∧ !peer.localAsNoPrepend then do
    let prepended := aspathAddSeq aspath peer.changeLocalAs
    unintern (.aspath aspath)
    intern (.aspath prepended)
    pure prepended
  else pure aspath

/-- First AS check for EBGP. -/
def firstasEnforce (aspath : Aspath) : AttrReader Bool :=
  if bgp.noEnforceFirstAs = false ∧ peerSort bgp peer = .ebgp then firstasCheck peer aspath
    else pure true

/-- `bgp_attr_aspath` after the first AS check. -/
def aspathStore (aspath : Aspath) (first : Bool) : AttrReader Attr :=
  if !first then notify .malAsPath
  else do
    let aspath ← localAsPrepend peer aspath
    Reader.forward header.length
    pure ({ attr with aspath := some aspath }.mark .asPath)

def bgpAttrAspath : AttrReader Attr :=
  if !wellKnown header.flag then notifyWithData .attrFlag header
  else do
    let start ← Reader.getp
    let octets ← Reader.peek start header.length
    let refs ← Reader.look
    match aspathParse refs.stored octets with
    | none => notify .malAsPath
    | some aspath =>
      intern (.aspath aspath)
      let first ← firstasEnforce bgp peer aspath
      aspathStore peer header attr aspath first

def bgpAttrNexthop : AttrReader Attr :=
  if !wellKnown header.flag then notifyWithData .attrFlag header
  else if header.length ≠ 4 then notifyWithData .attrLeng header
  else do
    let nexthop ← Reader.number 4
    pure ({ attr with nexthop := nexthop }.mark .nextHop)

def bgpAttrMed : AttrReader Attr :=
  if header.length ≠ 4 then notifyWithData .attrLeng header
  else do
    let med ← Reader.number 4
    pure ({ attr with med := med }.mark .multiExitDisc)

def bgpAttrLocalPref : AttrReader Attr :=
  if peerSort bgp peer = .ebgp then do
    Reader.forward header.length
    pure attr
  else if header.length = 4 then do
    let localPref ← Reader.number 4
    pure ({ attr with localPref := localPref }.mark .localPref)
  else pure ({ attr with localPref := 0 }.mark .localPref)

def bgpAttrAtomic : AttrReader Attr :=
  if header.length ≠ 0 then notify .attrLeng else pure (attr.mark .atomicAggregate)

def bgpAttrAggregator : AttrReader Attr :=
  if header.length ≠ 6 then notify .attrLeng
  else do
    let aggregatorAs ← Reader.number 2
    let aggregatorAddr ← Reader.number 4
    pure ({ attr with
      aggregatorAs := aggregatorAs, aggregatorAddr := aggregatorAddr }.mark .aggregator)

/-- An attribute whose value is an object: nothing if it is empty, and a length that
is no multiple of the width leaves none either. -/
def objectAttr {Object : Type} (width : Nat) (parse : List Octet → Option Object)
    (ref : Object → Ref) (store : Option Object → Attr) : AttrReader Attr :=
  if header.length = 0 then pure (store none)
  else if header.length % width ≠ 0 then do
    Reader.forward header.length
    pure (store none)
  else do
    let octets ← Reader.take header.length
    match parse octets with
    | none => pure (store none)
    | some object =>
      intern (ref object)
      pure (store (some object))

def bgpAttrCommunity : AttrReader Attr :=
  objectAttr header 4 communityParse .community fun community =>
    { attr with community := community }.mark .communities

def bgpAttrExtCommunities : AttrReader Attr :=
  objectAttr header 8 ecommunityParse .ecommunity fun ecommunity =>
    { attr with ecommunity := ecommunity }.mark .extCommunities

def bgpAttrOriginatorId : AttrReader Attr :=
  if header.length ≠ 4 then notify .attrLeng
  else do
    let originatorId ← Reader.number 4
    pure ({ attr with originatorId := originatorId }.mark .originatorId)

def bgpAttrClusterList : AttrReader Attr :=
  if header.length % 4 ≠ 0 then notify .attrLeng
  else do
    let octets ← Reader.take header.length
    intern (.cluster (clusterParse octets))
    pure ({ attr with cluster := some (clusterParse octets) }.mark .clusterList)

/-- The attribute as it is passed on, with the Partial bit set. -/
def markPartial : List Octet → List Octet
  | [] => []
  | flag :: rest => (flag ||| attrFlagPartial) :: rest

def bgpAttrUnknown : AttrReader Attr := do
  Reader.forward header.length
  if !checkFlag header.flag attrFlagOptional then notifyWithData .unrecAttr header
  else if !checkFlag header.flag attrFlagTrans then pure attr
  else
    let octets ← Reader.peek header.startp header.total
    let before := (attr.transit.map Transit.val).getD []
    pure { attr with transit := some ⟨before ++ markPartial octets⟩ }

end Attributes

/-- `IN6_IS_ADDR_LINKLOCAL`: fe80::/10. -/
def linkLocal (addr : Ipv6) : Bool := addr.extractLsb' 118 10 = 0x3fa

def readNexthop (attr : Attr) (nexthopLen : Octet) : AttrReader Attr :=
  if nexthopLen = 4 then do
    let globalIn ← Reader.number 4
    pure { attr with mpNexthopLen := nexthopLen, mpNexthopGlobalIn := globalIn }
  else if nexthopLen = 12 then do
    let _ ← Reader.number 4
    let _ ← Reader.number 4
    let globalIn ← Reader.number 4
    pure { attr with mpNexthopLen := nexthopLen, mpNexthopGlobalIn := globalIn }
  else if nexthopLen = 16 then do
    let addr ← Reader.number 16
    pure { attr with mpNexthopLen := nexthopLen, mpNexthopGlobal := addr }
  else if nexthopLen = 32 then do
    let addr ← Reader.number 16
    let second ← Reader.number 16
    pure { attr with
      mpNexthopLen := if linkLocal second then nexthopLen else 16
      mpNexthopGlobal := addr
      mpNexthopLocal := second }
  else Reader.fail { subcode := none }

/-- The SNPAs, whose lengths count half octets. -/
def skipSnpas : Nat → AttrReader Unit
  | 0 => pure ()
  | count + 1 => do
    let snpaLen ← Reader.number 1
    Reader.forward ((snpaLen.toNat + 1) / 2)
    skipSnpas count

/-- The check of multiprotocol NLRI; VPNv4 prefixes are not checked here. -/
def mpNlriCheck (afi : BitVec 16) (safi : Octet) (pnt length : Nat) : AttrReader Unit :=
  if safi ≠ bgpSafiVpnv4 then bgpNlriSanityCheck afi pnt length else pure ()

/-- What is left of an attribute is its NLRI: a difference of pointers, kept in
sixteen bits. Handing it on counts as an access to it. -/
def takeNlri (lim : Nat) (afi : BitVec 16) (safi : Octet) : AttrReader Nlri := do
  let pnt ← Reader.getp
  let length := (((lim : Int) - pnt) % 2 ^ 16).toNat
  mpNlriCheck afi safi pnt length
  let _ ← Reader.peek pnt length
  Reader.forward length
  pure { afi := afi, safi := safi, nlri := pnt, length := length }

def bgpMpReachParse (header : AttrHeader) (attr : Attr) : AttrReader (Attr × Nlri) := do
  let start ← Reader.getp
  let afi ← Reader.number 2
  let safi ← Reader.number 1
  let nexthopLen ← Reader.number 1
  let attr ← readNexthop attr nexthopLen
  let snpaNum ← Reader.number 1
  skipSnpas snpaNum.toNat
  let nlri ← takeNlri (start + header.length) afi safi
  pure (attr, nlri)

def bgpMpUnreachParse (header : AttrHeader) : AttrReader Nlri := do
  let start ← Reader.getp
  let afi ← Reader.number 2
  let safi ← Reader.number 1
  takeNlri (start + header.length) afi safi

def AttrType.ofCode (type : Octet) : Option AttrType :=
  match type.toNat with
  | 1 => some .origin
  | 2 => some .asPath
  | 3 => some .nextHop
  | 4 => some .multiExitDisc
  | 5 => some .localPref
  | 6 => some .atomicAggregate
  | 7 => some .aggregator
  | 8 => some .communities
  | 9 => some .originatorId
  | 10 => some .clusterList
  | 14 => some .mpReachNlri
  | 15 => some .mpUnreachNlri
  | 16 => some .extCommunities
  | _ => none

/-- What the loop carries from attribute to attribute; `seen` is the bitmap of the
types so far. -/
structure Parsed where
  attr : Attr := {}
  mpUpdate : Nlri := {}
  mpWithdraw : Nlri := {}
  seen : List Octet := []
deriving DecidableEq

section Loop
variable (bgp : Bgp) (peer : Peer)

/-- The switch over the attribute types. -/
def parseValue (header : AttrHeader) (parsed : Parsed) : AttrReader Parsed :=
  let attr := parsed.attr
  let keep (reader : AttrReader Attr) : AttrReader Parsed := do
    let attr ← reader
    pure { parsed with attr := attr }
  match AttrType.ofCode header.type with
  | some .origin => keep (bgpAttrOrigin header attr)
  | some .asPath => keep (bgpAttrAspath bgp peer header attr)
  | some .nextHop => keep (bgpAttrNexthop header attr)
  | some .multiExitDisc => keep (bgpAttrMed header attr)
  | some .localPref => keep (bgpAttrLocalPref bgp peer header attr)
  | some .atomicAggregate => keep (bgpAttrAtomic header attr)
  | some .aggregator => keep (bgpAttrAggregator header attr)
  | some .communities => keep (bgpAttrCommunity header attr)
  | some .originatorId => keep (bgpAttrOriginatorId header attr)
  | some .clusterList => keep (bgpAttrClusterList header attr)
  | some .mpReachNlri => do
    let (attr, mpUpdate) ← bgpMpReachParse header attr
    pure { parsed with attr := attr, mpUpdate := mpUpdate }
  | some .mpUnreachNlri => do
    let mpWithdraw ← bgpMpUnreachParse header
    pure { parsed with mpWithdraw := mpWithdraw }
  | some .extCommunities => keep (bgpAttrExtCommunities header attr)
  | none => keep (bgpAttrUnknown header attr)

/-- The length, in one octet or two. -/
def readLength (flag : Octet) : AttrReader Nat :=
  if checkFlag flag attrFlagExtlen then do
    let length ← Reader.number 2
    pure length.toNat
  else do
    let length ← Reader.number 1
    pure length.toNat

def readHeader : AttrReader AttrHeader := do
  let startp ← Reader.getp
  let flag ← Reader.number 1
  let type ← Reader.number 1
  let length ← readLength flag
  pure { flag := flag, type := type, length := length, startp := startp }

def attrMinLen : Nat := 2

/-- The end of a round: the value has to end where its length says. -/
def finishAttr (start endp : Nat) (header : AttrHeader) (parsed : Parsed) : AttrReader Parsed := do
  let getp ← Reader.getp
  if getp ≠ header.value + header.length then notify .attrLeng
  else
    Reader.within start endp
    pure parsed

/-- A round after the header: no type twice, no value behind the end. -/
def attrRound (start endp : Nat) (parsed : Parsed) (header : AttrHeader) : AttrReader Parsed :=
  if header.type ∈ parsed.seen then notify .malAttr
  else if endp < header.value + header.length then notify .attrLeng
  else do
    Reader.within header.startp (header.value + header.length)
    let parsed ← parseValue bgp peer header { parsed with seen := header.type :: parsed.seen }
    finishAttr start endp header parsed

/-- One round of the loop of `bgp_attr_parse`. -/
def parseAttr (start endp : Nat) (parsed : Parsed) : AttrReader Parsed := do
  let startp ← Reader.getp
  if endp - startp < attrMinLen then notify .attrLeng
  else
    let header ← readHeader
    attrRound bgp peer start endp parsed header

/-- The loop; every round takes three octets at least. -/
def parseLoop (start endp : Nat) : Nat → Parsed → AttrReader Parsed
  | 0, parsed => pure parsed
  | fuel + 1, parsed => do
    let getp ← Reader.getp
    if getp < endp then
      let parsed ← parseAttr bgp peer start endp parsed
      parseLoop start endp fuel parsed
    else pure parsed

/-- After the loop: unknown attributes are interned last. -/
def finishBlock (endp : Nat) (parsed : Parsed) : AttrReader Parsed := do
  let getp ← Reader.getp
  if getp ≠ endp then notify .attrLeng
  else
    match parsed.attr.transit with
    | none => pure parsed
    | some transit =>
      intern (.transit transit)
      pure parsed

/-- `bgp_attr_parse` on the `size` octets at the read pointer. -/
def bgpAttrParse (size : Nat) : AttrReader Parsed := do
  let start ← Reader.getp
  Reader.within start (start + size)
  let parsed ← parseLoop bgp peer start (start + size) size {}
  finishBlock (start + size) parsed

/-- `bgp_attr_check`: the last missing attribute is reported. -/
def missingAttr (attr : Attr) : Option AttrType :=
  let type := if attr.has .origin then none else some AttrType.origin
  let type := if attr.has .asPath then type else some .asPath
  let type := if attr.has .nextHop then type else some .nextHop
  if peerSort bgp peer = .ibgp ∧ !attr.has .localPref then some .localPref else type

end Loop
end Zebra.Bgpd
