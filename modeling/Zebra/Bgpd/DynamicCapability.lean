import Zebra.Bgpd.AttrParse

/-! Dynamic CAPABILITY messages, `bgp_capability_msg_parse` of bgpd/bgp_packet.c. -/
namespace Zebra.Bgpd.Dynamic
open Base

def capabilityActionSet : Octet := 0
def capabilityActionUnset : Octet := 1
def capabilityCodeMp : Octet := 1
def safiMplsVpn : Octet := 4

/-- `sizeof (struct capability)`. -/
def capabilitySize : Nat := 6

/-- The action, and `struct capability` as it is copied from behind it. -/
structure Capability where
  action : Octet
  code : Octet
  length : Octet
  afi : BitVec 16
  safi : Octet

def capabilityAt (data : List Octet) (pnt : Nat) : Capability where
  action := field data pnt 1
  code := field data (pnt + 1) 1
  length := field data (pnt + 2) 1
  afi := field data (pnt + 3) 2
  safi := field data (pnt + 6) 1

inductive Effect where
  | announceRoute (afi : BitVec 16) (safi : Octet)
  | clearRoute (afi : BitVec 16) (safi : Octet)
  | stop

/-- What a message changes of a peer, and what else it brings about. -/
structure Families where
  afc : BitVec 16 → Octet → Bool
  afcRecv : BitVec 16 → Octet → Bool
  afcNego : BitVec 16 → Octet → Bool
  effects : List Effect

def put (flags : BitVec 16 → Octet → Bool) (afi : BitVec 16) (safi : Octet) (value : Bool) :
    BitVec 16 → Octet → Bool :=
  fun otherAfi otherSafi => if otherAfi = afi ∧ otherSafi = safi then value
    else flags otherAfi otherSafi

namespace Families
variable (peer : Families) (afi : BitVec 16) (safi : Octet)

def peerActiveNego : Bool :=
  peer.afcNego afiIp safiUnicast || peer.afcNego afiIp safiMulticast ||
    peer.afcNego afiIp safiMplsVpn ||
    peer.afcNego afiIp6 safiUnicast || peer.afcNego afiIp6 safiMulticast

def set : Families :=
  let peer := { peer with afcRecv := put peer.afcRecv afi safi true }
  if peer.afc afi safi then
    { peer with afcNego := put peer.afcNego afi safi true,
                effects := peer.effects ++ [.announceRoute afi safi] }
  else peer

def unset : Families :=
  let peer := { peer with
    afcRecv := put peer.afcRecv afi safi false, afcNego := put peer.afcNego afi safi false }
  if peer.peerActiveNego then { peer with effects := peer.effects ++ [.clearRoute afi safi] }
  else { peer with effects := peer.effects ++ [.stop] }

/-- What is done with a tuple: other codes and families are ignored. -/
def process (cap : Capability) : Families :=
  if cap.code = capabilityCodeMp ∧ (cap.afi = afiIp ∨ cap.afi = afiIp6) ∧
      (cap.safi = safiUnicast ∨ cap.safi = safiMulticast ∨ cap.safi = bgpSafiVpnv4) then
    let safi := if cap.safi = bgpSafiVpnv4 then safiMplsVpn else cap.safi
    if cap.action = capabilityActionSet then peer.set cap.afi safi else peer.unset cap.afi safi
  else peer

end Families

/-- How the parser returns: the peer, whether every read was inside the body, and whether it returns
  0. -/
structure Outcome where
  peer : Families
  inside : Bool
  ok : Bool

section
variable (overrideCapability : Bool) (data : List Octet) (endp : Nat)

/-- The loop of `bgp_capability_msg_parse`; a multiprotocol capability that is overridden leaves the
  pointer where it is. -/
def capabilityMsgLoop : Nat → Nat → Families → Bool → Option Outcome
  | 0, _, _, _ => none
  | fuel + 1, pnt, peer, inside =>
    if endp ≤ pnt then some ⟨peer, inside, true⟩
    else if endp < pnt + 3 then some ⟨peer, inside, false⟩
    else
      let cap := capabilityAt data pnt
      let inside := inside && decide (pnt + 1 + capabilitySize ≤ endp)
      if cap.action ≠ capabilityActionSet ∧ cap.action ≠ capabilityActionUnset then
        some ⟨peer, inside, false⟩
      else if endp < pnt + (cap.length.toNat + 3) then some ⟨peer, inside, false⟩
      else if cap.code = capabilityCodeMp ∧ overrideCapability then
        capabilityMsgLoop fuel pnt peer inside
      else capabilityMsgLoop fuel (pnt + (cap.length.toNat + 3)) (peer.process cap) inside

/-- A tuple that is well formed: its action is known, and it ends inside the body. -/
def Formed (pnt : Nat) : Prop :=
  pnt + 3 ≤ endp ∧ ((capabilityAt data pnt).action = capabilityActionSet ∨
    (capabilityAt data pnt).action = capabilityActionUnset) ∧
    pnt + ((capabilityAt data pnt).length.toNat + 3) ≤ endp

instance (pnt : Nat) : Decidable (Formed data endp pnt) := inferInstanceAs (Decidable (_ ∧ _ ∧ _))

/-- The tuples of a body, up to the first one that is not well formed. -/
def tuples : Nat → Nat → List Capability
  | 0, _ => []
  | fuel + 1, pnt =>
    if Formed data endp pnt then capabilityAt data pnt :: tuples fuel
      (pnt + ((capabilityAt data pnt).length.toNat + 3)) else []

/-- Wherever there are the three octets of a header there are seven, and no multiprotocol tuple is
  overridden. -/
def Parsable : Nat → Nat → Prop
  | 0, _ => True
  | fuel + 1, pnt =>
    (pnt + 3 ≤ endp → pnt + 1 + capabilitySize ≤ endp) ∧
      (Formed data endp pnt →
        ¬((capabilityAt data pnt).code = capabilityCodeMp ∧ overrideCapability = true) ∧
        Parsable fuel (pnt + ((capabilityAt data pnt).length.toNat + 3)))

/-- The parser returns, has read inside the body only, and has processed every tuple once and in
  order. -/
def Parses (start : Nat) (peer : Families) : Prop :=
  ∃ fuel outcome, capabilityMsgLoop overrideCapability data endp fuel start peer true =
    some outcome ∧
    outcome.inside = true ∧ outcome.peer =
      (tuples data endp (endp - start) start).foldl Families.process peer

end

section
variable {overrideCapability : Bool} {data : List Octet} {endp pnt fuel : Nat} {peer : Families}
  {inside : Bool} {outcome : Outcome}

theorem loop_short (short : endp < pnt + 3) :
    ∃ ok, capabilityMsgLoop overrideCapability data endp (fuel + 1) pnt peer inside =
      some ⟨peer, inside, ok⟩ := by
  by_cases ended : endp ≤ pnt
  · exact ⟨true, if_pos ended⟩
  · exact ⟨false, (if_neg ended).trans (if_pos short)⟩

/-- A round that has a header to read. -/
theorem loop_header (header : pnt + 3 ≤ endp) :
    capabilityMsgLoop overrideCapability data endp (fuel + 1) pnt peer inside =
    let inside := inside && decide (pnt + 1 + capabilitySize ≤ endp)
    if Formed data endp pnt then
      if (capabilityAt data pnt).code = capabilityCodeMp ∧ overrideCapability = true then
        capabilityMsgLoop overrideCapability data endp fuel pnt peer inside
      else capabilityMsgLoop overrideCapability data endp fuel
        (pnt + ((capabilityAt data pnt).length.toNat + 3))
        (peer.process (capabilityAt data pnt)) inside
    else some ⟨peer, inside, false⟩ := by
  rw [capabilityMsgLoop, if_neg (by omega), if_neg (not_lt.mpr header)]
  dsimp only
  by_cases formed : Formed data endp pnt
  · rw [if_pos formed, if_neg (fun both => formed.2.1.elim both.1 both.2),
      if_neg (not_lt.mpr formed.2.2)]
  · rw [if_neg formed]
    split
    · rfl
    · rename_i known
      exact if_pos (not_le.mp fun fits =>
        formed ⟨header, (not_and_or.mp known).imp not_not.mp not_not.mp, fits⟩)

/-- Once a read was outside, it stays noted. -/
theorem loop_outside
    (ran : capabilityMsgLoop overrideCapability data endp fuel pnt peer false = some outcome) :
    outcome.inside = false := by
  induction fuel generalizing pnt peer with
  | zero => cases ran
  | succ fuel ih =>
    by_cases header : pnt + 3 ≤ endp
    · rw [loop_header header] at ran
      split at ran
      · split at ran <;> exact ih ran
      · cases ran
        rfl
    · obtain ⟨ok, done⟩ :=
        @loop_short overrideCapability data endp pnt fuel peer false (not_le.mp header)
      cases done.symm.trans ran
      rfl

theorem loop_overridden (formed : Formed data endp pnt)
    (overridden : (capabilityAt data pnt).code = capabilityCodeMp ∧ overrideCapability = true) :
    capabilityMsgLoop overrideCapability data endp fuel pnt peer inside = none := by
  induction fuel generalizing inside with
  | zero => rfl
  | succ fuel ih =>
    rw [loop_header formed.1]
    rw [if_pos formed, if_pos overridden, ih]

theorem parses_iff (rounds : Nat) (enough : endp ≤ pnt + rounds) :
    (∃ fuel outcome, capabilityMsgLoop overrideCapability data endp fuel pnt peer true =
      some outcome ∧
      outcome.inside = true ∧ outcome.peer =
        (tuples data endp rounds pnt).foldl Families.process peer) ↔
      Parsable overrideCapability data endp rounds pnt := by
  induction rounds generalizing pnt peer with
  | zero =>
    obtain ⟨ok, done⟩ := @loop_short overrideCapability data endp pnt 0 peer true (by omega)
    exact iff_of_true ⟨1, _, done, rfl, rfl⟩ trivial
  | succ rounds ih =>
    rw [tuples, Parsable]
    by_cases header : pnt + 3 ≤ endp
    · rw [imp_iff_right header]
      by_cases wide : pnt + 1 + capabilitySize ≤ endp
      · have round (fuel : Nat) :=
          @loop_header overrideCapability data endp pnt fuel peer true header
        simp only [decide_eq_true wide, Bool.and_true] at round
        by_cases formed : Formed data endp pnt
        · simp only [if_pos formed] at round
          rw [if_pos formed, List.foldl_cons, imp_iff_right formed, and_iff_right wide]
          by_cases overridden : (capabilityAt data pnt).code = capabilityCodeMp ∧
            overrideCapability = true
          · refine iff_of_false ?_ fun both => both.1 overridden
            rintro ⟨fuel, outcome, ran, -⟩
            cases (loop_overridden formed overridden).symm.trans ran
          · simp only [if_neg overridden] at round
            rw [and_iff_right overridden, ← ih (by omega)]
            constructor
            · rintro ⟨fuel, outcome, ran, rest⟩
              cases fuel with
              | zero => cases ran
              | succ fuel => exact ⟨fuel, outcome, (round fuel).symm.trans ran, rest⟩
            · rintro ⟨fuel, outcome, ran, rest⟩
              exact ⟨fuel + 1, outcome, (round fuel).trans ran, rest⟩
        · rw [if_neg formed]
          exact iff_of_true ⟨1, _, (round 0).trans (if_neg formed), rfl, rfl⟩
            ⟨wide, fun some => absurd some formed⟩
      · refine iff_of_false ?_ fun both => wide both.1
        rintro ⟨fuel, outcome, ran, inside, -⟩
        refine absurd inside (Bool.eq_false_iff.mp ?_)
        cases fuel with
        | zero => cases ran
        | succ fuel =>
          rw [loop_header header, decide_eq_false wide] at ran
          split at ran
          · split at ran <;> exact loop_outside ran
          · cases ran
            rfl
    · obtain ⟨ok, done⟩ :=
        @loop_short overrideCapability data endp pnt 0 peer true (not_le.mp header)
      have unformed : ¬Formed data endp pnt := fun formed => header formed.1
      rw [if_neg unformed]
      exact iff_of_true ⟨1, _, done, rfl, rfl⟩
        ⟨fun more => absurd more header, fun formed => absurd formed unformed⟩

end

/-- The loop ends, stays inside the message and takes up every capability exactly if each of them is
  whole. -/
theorem capability_msg_parse_exact (overrideCapability : Bool) (data : List Octet)
    (start endp : Nat) (peer : Families) :
    Parses overrideCapability data endp start peer ↔
    Parsable overrideCapability data endp (endp - start) start :=
  parses_iff (endp - start) (by omega)

def nobody : Families := ⟨fun _ _ => false, fun _ _ => false, fun _ _ => false, []⟩

/-- The route refresh capability alone: the copied structure ends behind the body. -/
theorem capability_msg_parse_refresh : ¬Parses false [0, 2, 0] 3 0 nobody :=
  fun parses => absurd ((parses_iff 3 (by decide)).mp parses).1 (by decide)

end Zebra.Bgpd.Dynamic
