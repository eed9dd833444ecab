import Zebra.Ospfd.LsUpdQueue

namespace Zebra.Ospfd.Packet
open Base Lib Option List OutInterface BitVec Nat
namespace OutInterface
variable {oi : OutInterface} {delta : Nat} {s s' : Stream} {update rest : List OutLsa}
  {addr : InAddr} {op : OspfPacket}

/-- The octets of a list of LSAs. -/
abbrev octets (lsas : List OutLsa) : Nat := load (fun lsa => lsa.data.length) lsas

theorem lsUpdLoop_taken {n count count' length'}
    (ran : oi.lsUpdLoop delta update (BitVec.ofNat 16 n) count s =
      some (rest, length', count', s')) :
    ∃ taken, update = taken ++ rest ∧ length' = BitVec.ofNat 16 (n + octets taken) ∧
      (taken ≠ [] → n + octets taken < 65536 → n + octets taken + delta ≤ oi.packetLimit) ∧
      ∀ lsa ∈ rest.head?, oi.packetLimit < n + octets taken + delta + lsa.data.length := by
  induction update generalizing n count s with
  | nil =>
    obtain ⟨rfl, rfl, rfl, rfl⟩ : [] = rest ∧ BitVec.ofNat 16 n = length' ∧ count = count' ∧
        s = s' := by
      simpa [lsUpdLoop] using ran
    exact ⟨[], rfl, rfl, fun impossible => absurd rfl impossible, by simp⟩
  | cons lsa update ih =>
    have below : (BitVec.ofNat 16 n).toNat ≤ n := by
      exact mod_le ..
    rw [lsUpdLoop, OutLsa.toNat_length] at ran
    split at ran
    · obtain ⟨rfl, rfl, -, -⟩ : lsa :: update = rest ∧ BitVec.ofNat 16 n = length' ∧
          count = count' ∧ s = s' := by
        simpa using ran
      refine ⟨[], rfl, rfl, fun impossible => absurd rfl impossible, fun next is => ?_⟩
      obtain rfl : lsa = next := by simpa using is
      omega
    · obtain ⟨copied, -, ran⟩ := bind_eq_some_iff.mp ran
      obtain ⟨stored, -, ran⟩ := bind_eq_some_iff.mp ran
      have length : BitVec.ofNat 16 n + lsa.length = BitVec.ofNat 16 (n + lsa.data.length) := by
        refine eq_of_toNat_eq ?_
        rw [toNat_add, OutLsa.toNat_length, toNat_ofNat, toNat_ofNat, mod_add_mod]
      rw [length] at ran
      obtain ⟨taken, rfl, isLength, within, full⟩ := ih ran
      simp only [octets] at isLength within full
      refine ⟨lsa :: taken, rfl, by rw [octets, load_cons, isLength, add_assoc], fun _ small => ?_,
        fun next is => ?_⟩
      · rw [octets, load_cons] at small ⊢
        by_cases last : taken = []
        · rw [last, load_nil, add_zero] at small ⊢
          have exact_ : (BitVec.ofNat 16 n).toNat = n := by
            rw [toNat_ofNat, mod_eq_of_lt (by omega)]
          omega
        · have fits := within last (by omega)
          omega
      · have beyond := full next is
        rw [octets, load_cons]
        omega

/-- What a packet takes. -/
structure Took (oi : OutInterface) (addr : InAddr) (taken rest : List OutLsa) (op : OspfPacket) :
    Prop where
  dst : op.dst = addr
  length : op.length = BitVec.ofNat 16 (28 + octets taken)
  within : taken ≠ [] → 28 + octets taken ≤ 65535 → 28 + octets taken ≤ oi.packetLimit
  full : ∀ lsa ∈ rest.head?, oi.packetLimit < 28 + octets taken + lsa.data.length

theorem ospfLsUpdQueueSend_took (ran : oi.ospfLsUpdQueueSend update addr = some (op, rest)) :
    ∃ taken, update = taken ++ rest ∧ oi.Took addr taken rest op := by
  obtain ⟨headed, made, ran⟩ := bind_eq_some_iff.mp ran
  obtain ⟨⟨left, length, filled⟩, body, ran⟩ := bind_eq_some_iff.mp ran
  obtain ⟨sent, -, ran⟩ := bind_eq_some_iff.mp ran
  obtain ⟨rfl, rfl⟩ :
      ({ s := sent, dst := addr, length := BitVec.ofNat 16 ospfHeaderSize + length } : OspfPacket) =
      op ∧ left = rest := by
    simpa using ran
  have here := oi.ospfMakeHeader_putp made
  obtain ⟨⟨left', length', count, looped⟩, loop, body⟩ := bind_eq_some_iff.mp body
  obtain ⟨counted, -, body⟩ := bind_eq_some_iff.mp body
  obtain ⟨rfl, rfl, -⟩ : left' = left ∧ length' = length ∧
    counted.streamSetPutp counted.endp = filled := by simpa using body
  obtain ⟨taken, split, isLength, within, full⟩ := lsUpdLoop_taken loop
  rw [ospfLsUpdMinSize] at isLength within full
  refine ⟨taken, split, rfl, ?_, fun some_ small => ?_, fun lsa is => ?_⟩
  · rw [isLength, ospfHeaderSize, ← ofNat_add, ← add_assoc]
  · have room := within some_ (by omega)
    omega
  · have beyond := full lsa is
    omega

/-- Where the packets carry all LSAs, no length wrapped. -/
theorem drained_exact {groups carried packets} (drained : Drained (oi.Took addr) groups packets)
    (carries : List.Forall₂ (fun group op => op.dst = addr ∧ oi.Carries group op) carried packets)
    (same : groups.flatten = carried.flatten) :
    ∀ taken ∈ groups, 28 + octets taken ≤ min 65535 oi.mtu := by
  have reduced : List.Forall₂ (fun group length => length = (28 + octets group) % 65536) groups
      (packets.map fun op => op.length.toNat) :=
    forall₂_map_right_iff.mpr (drained.forall₂ fun taken rest op took =>
      (congrArg BitVec.toNat took.length).trans (toNat_ofNat ..))
  have exact_ : List.Forall₂
      (fun group length => length = 28 + octets group ∧ length ≤ min 65535 oi.mtu) carried
      (packets.map fun op => op.length.toNat) := by
    refine forall₂_map_right_iff.mpr (carries.imp fun group op carry => ⟨carry.2.length, ?_⟩)
    have within := carry.2.within
    omega
  exact (load_exact reduced exact_).2 (same ▸ le_rfl)

/-- The LSAs of one destination are sent exactly when they can be packed. -/
theorem sent_iff_packs (addr : InAddr) (lsas : List OutLsa) :
    (∃ rounds packets, drain (oi.ospfLsUpdQueueSend · addr) rounds lsas = some packets ∧
      oi.Sent (addr, lsas) packets) ↔
      Packs (fun lsa : OutLsa => lsa.data.length) 28 oi.packetLimit (min 65535 oi.mtu) lsas := by
  constructor
  · rintro ⟨rounds, packets, ran, carried, whole, carries⟩
    obtain ⟨groups, same, drained⟩ := drain_drained (fun _ _ _ => ospfLsUpdQueueSend_took) ran
    have short := drained_exact drained carries (same.trans whole.symm)
    refine ⟨groups, same, drained.packed (fun taken rest op took some_ small => ?_)
      (fun taken rest op took => took.full) short⟩
    exact took.within some_ (small.trans (min_le_left ..))
  · rintro ⟨groups, rfl, packed⟩
    obtain ⟨packets, drained, carries⟩ := @drain_packed _ _ (oi.ospfLsUpdQueueSend · addr) _ _ _ _ _
      (fun group op => op.dst = addr ∧ oi.Carries group op)
        (fun group rest some_ within most full =>
        oi.ospfLsUpdQueueSend_group addr some_ (most.trans (min_le_left ..))
          (most.trans (min_le_right ..)) within full) packed
    exact ⟨groups.length, packets, drained, groups, rfl, carries⟩

theorem drainable_iff_packs (lsas : List OutLsa) :
    oi.Drainable lsas ↔
    Packs (fun lsa : OutLsa => lsa.data.length) 28 oi.packetLimit (min 65535 oi.mtu) lsas := by
  have short (lsa : OutLsa) : lsa.data.length ≤ 65535 := by
    have bound := lsa.length.isLt
    rw [lsa.toNat_length] at bound
    omega
  rw [Drainable]
  rcases oi.packetLimit_eq with ⟨notNegative, same, inside⟩ | ⟨negative, small, huge⟩
  · rw [if_neg (Int.not_lt.mpr notNegative)]
    split
    · rw [packs_iff fun group fits => by omega]
      refine forall₂_congr fun lsa member => ?_
      omega
    · refine exists_congr fun groups => and_congr_right fun _ =>
        ⟨fun ⟨each, chain⟩ => ?_, fun packed => ⟨?_, ?_⟩⟩
      · refine ⟨fun group member => (each group member).1, fun group member => ?_,
          chain.imp fun group next beyond lsa is => ?_⟩
        · have fits := (each group member).2
          omega
        · have more := beyond lsa is
          omega
      · intro group member
        exact ⟨packed.some_ group member, (packed.fits group member).2.trans (min_le_left ..)⟩
      · refine packed.full.imp fun group next beyond lsa is => ?_
        have more := beyond lsa is
        omega
  · rw [if_pos negative, packs_one (fun lsa _ => by have bound := short lsa; omega) (by omega),
      Nat.min_eq_right (by omega)]

theorem sendQueueEvent_some {rounds queue sent} :
    oi.ospfLsUpdSendQueueEvent rounds queue = some sent ↔
      Forall₂ (fun entry packets => drain (oi.ospfLsUpdQueueSend · entry.1) rounds entry.2 =
        some packets) queue sent := by
  rw [ospfLsUpdSendQueueEvent]
  induction queue generalizing sent with
  | nil =>
    rw [mapM_nil, forall₂_nil_left_iff]
    exact ⟨fun same => (some.inj same).symm, fun same => congrArg some same.symm⟩
  | cons entry queue ih =>
    rw [mapM_cons, forall₂_cons_left_iff]
    constructor
    · intro ran
      obtain ⟨packets, drained, ran⟩ := bind_eq_some_iff.mp ran
      obtain ⟨later, more, same⟩ := bind_eq_some_iff.mp ran
      exact ⟨packets, later, drained, ih.mp more, (some.inj same).symm⟩
    · rintro ⟨packets, later, drained, more, rfl⟩
      rw [drained]
      exact (congrArg (bind · _) (ih.mpr more)).trans rfl

/-- The event ends with packets that hold every LSA once, exactly when the LSAs of every destination
  fit. -/
theorem ls_upd_queue_drains (oi : OutInterface) (queue : List (InAddr × List OutLsa)) :
    (∃ rounds sent, oi.ospfLsUpdSendQueueEvent rounds queue = some sent ∧
      Forall₂ oi.Sent queue sent) ↔
      ∀ entry ∈ queue, oi.Drainable entry.2 := by
  have each (entry : InAddr × List OutLsa) : oi.Drainable entry.2 ↔
      ∃ rounds packets, drain (oi.ospfLsUpdQueueSend · entry.1) rounds entry.2 = some packets ∧
        oi.Sent entry packets := by
    rw [drainable_iff_packs, ← sent_iff_packs entry.1]
  constructor
  · rintro ⟨rounds, sent, ran, carried⟩ entry member
    have drained := sendQueueEvent_some.mp ran
    obtain ⟨index, bound, rfl⟩ := getElem_of_mem member
    have bound' : index < sent.length := drained.length_eq ▸ bound
    exact (each _).mpr ⟨rounds, sent[index], drained.get bound bound', carried.get bound bound'⟩
  · intro fits
    induction queue with
    | nil => exact ⟨0, [], rfl, .nil⟩
    | cons entry queue ih =>
      obtain ⟨first, later⟩ := forall_mem_cons.mp fits
      obtain ⟨rounds, packets, drained, carried⟩ := (each entry).mp first
      obtain ⟨rounds', sent, ran, carried'⟩ := ih later
      refine ⟨max rounds rounds', packets :: sent, sendQueueEvent_some.mpr (.cons ?_ ?_),
        .cons carried carried'⟩
      · exact drain_mono drained (le_max_left ..)
      · exact (sendQueueEvent_some.mp ran).imp fun _ _ done => drain_mono done (le_max_right ..)

end OutInterface

/-- An Ethernet interface. -/
def ethernet : OutInterface where
  routerId := 0x01010101
  areaId := 0
  authType := .null
  authSimple := Vector.replicate 8 0
  authCrypt := []
  mtu := 1500
  mtuInt := ethernet_mtu
  transmitDelay := 1

/-- A router-LSA with 114 links. -/
def manyLinks : OutLsa where
  data := [0, 1, 2, 1, 1, 1, 1, 1, 1, 1, 1, 1, 0x80, 0, 0, 1, 0, 0, 5, 0x70, 0, 0, 0, 114] ++
    (List.replicate 114 [10, 0, 0, 0, 255, 255, 255, 0, 3, 0, 0, 10]).flatten
  age := 1
  header := by decide +kernel
  framed := by decide +kernel

/-- It is behind the limit: packets without an LSA are made for ever. -/
theorem ls_upd_queue_stuck :
    ¬∃ rounds sent, ethernet.ospfLsUpdSendQueueEvent rounds [(0xe0000005, [manyLinks])] =
      some sent ∧
      Forall₂ ethernet.Sent [(0xe0000005, [manyLinks])] sent := by
  rintro ⟨rounds, sent, ran, carried⟩
  obtain ⟨packets, later, drained, -, same⟩ := forall₂_cons_left_iff.mp (sendQueueEvent_some.mp ran)
  rw [same] at carried
  have one := (forall₂_cons.mp carried).1
  have fits :=
    (drainable_iff_packs [manyLinks]).mpr ((sent_iff_packs _ _).mp ⟨rounds, packets, drained, one⟩)
  have length : manyLinks.data.length = 1392 := by decide +kernel
  have alone : (28 + manyLinks.data.length : Int) ≤ ethernet.ospfPacketMax :=
    fits manyLinks mem_cons_self
  rw [length] at alone
  exact nomatch alone

end Zebra.Ospfd.Packet
