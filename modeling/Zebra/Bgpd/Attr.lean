import Zebra.Bgpd.Aspath

/-! `struct attr` of bgpd/bgp_attr.h with the objects it points to. Interned objects are their
contents: two pointers into a hash are equal exactly when the contents are. -/
namespace Zebra.Bgpd
open Base

abbrev Ipv4 := BitVec 32
abbrev Ipv6 := BitVec 128

/-- The attribute types that `bgp_attr_parse` knows. -/
inductive AttrType where
  | origin
  | asPath
  | nextHop
  | multiExitDisc
  | localPref
  | atomicAggregate
  | aggregator
  | communities
  | originatorId
  | clusterList
  | mpReachNlri
  | mpUnreachNlri
  | extCommunities
deriving DecidableEq

def AttrType.code : AttrType → Nat
  | .origin => 1
  | .asPath => 2
  | .nextHop => 3
  | .multiExitDisc => 4
  | .localPref => 5
  | .atomicAggregate => 6
  | .aggregator => 7
  | .communities => 8
  | .originatorId => 9
  | .clusterList => 10
  | .mpReachNlri => 14
  | .mpUnreachNlri => 15
  | .extCommunities => 16

/-- `struct community`: the values, in host order. -/
structure Community where
  val : List (BitVec 32)
deriving DecidableEq

/-- `struct ecommunity`: the eight octet values. -/
structure Ecommunity where
  val : List (BitVec 64)
deriving DecidableEq

structure ClusterList where
  list : List Ipv4
deriving DecidableEq

structure Transit where
  val : List Octet
deriving DecidableEq

/-- All fields start from zero, as after `memset`. -/
structure Attr where
  flag : BitVec 32 := 0
  origin : Octet := 0
  nexthop : Ipv4 := 0
  med : BitVec 32 := 0
  localPref : BitVec 32 := 0
  aggregatorAs : As := 0
  aggregatorAddr : Ipv4 := 0
  weight : BitVec 32 := 0
  originatorId : Ipv4 := 0
  cluster : Option ClusterList := none
  mpNexthopLen : Octet := 0
  mpNexthopGlobal : Ipv6 := 0
  mpNexthopLocal : Ipv6 := 0
  mpNexthopGlobalIn : Ipv4 := 0
  aspath : Option Aspath := none
  community : Option Community := none
  ecommunity : Option Ecommunity := none
  transit : Option Transit := none
deriving DecidableEq

/-- `ATTR_FLAG_BIT`. -/
def AttrType.flagBit (type : AttrType) : BitVec 32 :=
  1#32 <<< (type.code - 1)

namespace Attr

def has (attr : Attr) (type : AttrType) : Bool :=
  attr.flag.getLsbD (type.code - 1)

def mark (attr : Attr) (type : AttrType) : Attr :=
  { attr with flag := attr.flag ||| type.flagBit }

@[simp] theorem has_mark (attr : Attr) (type other : AttrType) :
    (attr.mark type).has other = (attr.has other || decide (type = other)) := by
  simp only [has, mark, AttrType.flagBit, BitVec.getLsbD_or]
  congr 1
  cases type <;> cases other <;> decide

/-- `attrhash_cmp`, which does not look at the originator. -/
def hashCmp (attr1 attr2 : Attr) : Bool :=
  attr1.flag = attr2.flag && attr1.origin = attr2.origin && attr1.nexthop = attr2.nexthop &&
    attr1.med = attr2.med && attr1.localPref = attr2.localPref &&
    attr1.aggregatorAs = attr2.aggregatorAs && attr1.aggregatorAddr = attr2.aggregatorAddr &&
    attr1.weight = attr2.weight && attr1.mpNexthopLen = attr2.mpNexthopLen &&
    attr1.mpNexthopGlobal = attr2.mpNexthopGlobal && attr1.mpNexthopLocal = attr2.mpNexthopLocal &&
    attr1.mpNexthopGlobalIn = attr2.mpNexthopGlobalIn && attr1.aspath = attr2.aspath &&
    attr1.community = attr2.community && attr1.ecommunity = attr2.ecommunity &&
    attr1.cluster = attr2.cluster && attr1.transit = attr2.transit

end Attr

/-- `struct ecommunity_cost`, as the comparison overlays it on a value. -/
structure EcommunityCost where
  type : BitVec 16
  poi : Octet
  id : Octet
  val : BitVec 32

def ecommunityCost (value : BitVec 64) : EcommunityCost where
  type := value.extractLsb' 48 16
  poi := value.extractLsb' 40 8
  id := value.extractLsb' 32 8
  val := value.extractLsb' 0 32

def costCommunityType : BitVec 16 := 0x4301
def costPoiIgp : Octet := 129
def costCommunityDefaultCost : BitVec 32 := 0x7FFFFFFF

/-- The cost communities at one point of insertion, in order. -/
def costsAt (poi : Octet) (ecom : Option Ecommunity) : List EcommunityCost :=
  match ecom with
  | none => []
  | some ecom => (ecom.val.map ecommunityCost).filter fun ecost =>
      ecost.type = costCommunityType && ecost.poi = poi

/-- The loop of `ecommunity_cost_cmp` over the matching entries of both sides: a
side that runs out counts as the default cost. -/
def costCmpLoop : List EcommunityCost → List EcommunityCost → Int
  | [], [] => 0
  | cost1 :: _, [] =>
    if cost1.val < costCommunityDefaultCost then 1
    else if costCommunityDefaultCost < cost1.val then -1 else 0
  | [], cost2 :: _ =>
    if costCommunityDefaultCost < cost2.val then 1
    else if cost2.val < costCommunityDefaultCost then -1 else 0
  | cost1 :: rest1, cost2 :: rest2 =>
    if cost1.id = cost2.id ∧ cost1.val = cost2.val then costCmpLoop rest1 rest2
    else if cost1.id < cost2.id then 1
    else if cost2.id < cost1.id then -1
    else if cost1.val < cost2.val then 1
    else if cost2.val < cost1.val then -1
    else 0

def ecommunityCostCmp (ecom1 ecom2 : Option Ecommunity) (poi : Octet) : Int :=
  costCmpLoop (costsAt poi ecom1) (costsAt poi ecom2)

theorem costCmpLoop_neg (costs1 costs2 : List EcommunityCost) :
    costCmpLoop costs2 costs1 = -costCmpLoop costs1 costs2 := by
  fun_induction costCmpLoop costs1 costs2 <;> simp only [costCmpLoop] <;> grind

theorem ecommunityCostCmp_neg (ecom1 ecom2 : Option Ecommunity) (poi : Octet) :
    ecommunityCostCmp ecom2 ecom1 poi = -ecommunityCostCmp ecom1 ecom2 poi :=
  costCmpLoop_neg _ _

end Zebra.Bgpd
