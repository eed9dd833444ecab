import Zebra.Bgpd.AttrParse
import Zebra.Lib.InetText

namespace Zebra.Bgpd.MplsVpn
open Base

def rdTypeAs : BitVec 16 := 0
def rdTypeIp : BitVec 16 := 1

def decodeRdType (data : List Octet) (pnt : Nat) : BitVec 16 := field data pnt 2

structure RdAs where
  as : BitVec 16
  val : BitVec 32

structure RdIp where
  ip : BitVec 32
  val : BitVec 16

def decodeRdAs (data : List Octet) (pnt : Nat) : RdAs :=
  { as := field data pnt 2, val := field data (pnt + 2) 4 }

def decodeRdIp (data : List Octet) (pnt : Nat) : RdIp :=
  { ip := field data pnt 4, val := field data (pnt + 4) 2 }

structure PrefixRd where
  family : Nat
  prefixlen : Nat
  val : Vector Octet 8
deriving DecidableEq

def afUnspec : Nat := 0

/-- `memcpy (prd->val, s->data, 8)`. -/
def rdOctets (data : List Octet) : Vector Octet 8 := Vector.ofFn fun i => data.getD i 0

/-- `str2prefix_rd`: what it answers, and what is in the structure then. A `long` is cut to the
  field it is put in. -/
def str2prefixRd (inetAton : Word → Option (BitVec 32)) (str : Word) (prd : PrefixRd) :
    Bool × PrefixRd :=
  let prd := { prd with family := afUnspec, prefixlen := 64 }
  let half := str.takeWhile (· ≠ ':')
  match str.dropWhile (· ≠ ':') with
  | [] => (false, prd)
  | _ :: number =>
    let val := (strtol number).1
    if !digits number then (false, prd)
    else if '.' ∉ str then
      if !digits half then (false, prd)
      else (true, { prd with val := rdOctets (toOctets 2 rdTypeAs.toNat ++
        toOctets 2 (BitVec.ofInt 16 (atoi half)).toNat ++ toOctets 4 (BitVec.ofInt 32 val).toNat) })
    else
      match inetAton half with
      | none => (false, prd)
      | some addr => (true, { prd with val := rdOctets (toOctets 2 rdTypeIp.toNat ++
        toOctets 4 addr.toNat ++ toOctets 2 (BitVec.ofInt 16 val).toNat) })

def rdAddrstrlen : Nat := 28

/-- `prefix_rd2str`; an unsigned number is printed as an `int`. -/
def prefixRd2str (prd : PrefixRd) (size : Nat) : Option Word :=
  let pnt := prd.val.toList
  let type := decodeRdType pnt 0
  if size < rdAddrstrlen then none
  else if type = rdTypeAs then
    let rdAs := decodeRdAs pnt 2
    some (snprintf size (printInt rdAs.as.toNat ++ ':' :: printInt rdAs.val.toInt))
  else if type = rdTypeIp then
    let rdIp := decodeRdIp pnt 2
    some (snprintf size (inetNtoa rdIp.ip ++ ':' :: printInt rdIp.val.toNat))
  else none

/-- A call of `bgp_update` or `bgp_withdraw`. -/
structure VpnRoute where
  prefixlen : Nat
  octets : List Octet
  rd : List Octet
  tag : List Octet
deriving DecidableEq

/-- What the parser reads, position and number of octets, how many octets it copies into the prefix,
  and its calls. -/
structure VpnParse where
  reads : List (Nat × Nat) := []
  copied : List Nat := []
  calls : List VpnRoute := []
deriving DecidableEq

def VpnParse.followedBy (first second : VpnParse) : VpnParse where
  reads := first.reads ++ second.reads
  copied := first.copied ++ second.copied
  calls := first.calls ++ second.calls

/-- The rounds of `bgp_nlri_parse_vpnv4`. The route is read whole before it is compared with the
  end. -/
def nlriRounds (data : List Octet) (lim pnt : Nat) : Int × VpnParse :=
  if pnt < lim then
    let prefixlen := ofOctets (slice data pnt 1)
    let psize := psize prefixlen
    let next := pnt + 1
    if prefixlen < 88 then (-1, { reads := [(pnt, 1)] })
    else
      let type := decodeRdType data (next + 3)
      let header := [(pnt, 1), (next, 3), (next + 3, 8), (next + 3, 2)]
      if type = rdTypeAs ∨ type = rdTypeIp then
        let reads := header ++ [(next + 5, 6), (next + 11, psize - 11)]
        if lim < next + psize then (-1, { reads, copied := [psize - 11] })
        else
          let route := {
            prefixlen := prefixlen - 88
            octets := slice data (next + 11) (psize - 11)
            rd := slice data (next + 3) 8
            tag := slice data next 3 }
          let (ret, later) := nlriRounds data lim (next + psize)
          (ret, VpnParse.followedBy { reads, copied := [psize - 11], calls := [route] } later)
      else (-1, { reads := header })
  else (if pnt ≠ lim then -1 else 0, {})
termination_by lim - pnt

/-- `bgp_nlri_parse_vpnv4`, for a block of so many octets at a position. -/
def bgpNlriParseVpnv4 (established : Bool) (data : List Octet) (nlri length : Nat) :
    Int × VpnParse :=
  if !established then (0, {}) else nlriRounds data (nlri + length) nlri

end Zebra.Bgpd.MplsVpn
