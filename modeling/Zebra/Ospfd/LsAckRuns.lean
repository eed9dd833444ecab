import Zebra.Ospfd.LsAck

namespace Zebra.Ospfd.Packet
open Base Lib BitVec Option List Prod OutInterface AckLists AckOp Nat AckInterface
namespace OutInterface
variable {oi : OutInterface} {s s' : Stream} {rest ack : List OutLsa} {dst : InAddr}
  {op : OspfPacket}

theorem lsAckLoop_taken {n taken length'}
    (ran : oi.lsAckLoop 48 ack (BitVec.ofNat 16 n) s = some (taken, length', s')) :
    ∃ rest, ack = taken ++ rest ∧ length' = BitVec.ofNat 16 (n + 20 * taken.length) ∧
      (taken ≠ [] → n + 20 * taken.length < 65556 → n + 20 * taken.length + 28 ≤ oi.packetLimit) ∧
      (rest ≠ [] → oi.packetLimit < n + 20 * taken.length + 48) := by
  induction ack generalizing n s taken with
  | nil =>
    obtain ⟨rfl, rfl, rfl⟩ : [] = taken ∧ BitVec.ofNat 16 n = length' ∧ s = s' := by
      simpa [lsAckLoop] using ran
    exact ⟨[], rfl, rfl, fun impossible => absurd rfl impossible,
      fun impossible => absurd rfl impossible⟩
  | cons lsa ack ih =>
    rw [lsAckLoop] at ran
    split at ran
    · obtain ⟨rfl, rfl, -⟩ : [] = taken ∧ BitVec.ofNat 16 n = length' ∧ s = s' := by simpa using ran
      have below : (BitVec.ofNat 16 n).toNat ≤ n := by
        exact mod_le ..
      refine ⟨lsa :: ack, rfl, rfl, fun impossible => absurd rfl impossible, fun _ => ?_⟩
      omega
    · obtain ⟨copied, -, ran⟩ := bind_eq_some_iff.mp ran
      obtain ⟨⟨later, length, left⟩, loop, ran⟩ := bind_eq_some_iff.mp ran
      obtain ⟨rfl, rfl, rfl⟩ : lsa :: later = taken ∧ length = length' ∧ left = s' := by
        simpa using ran
      have step : BitVec.ofNat 16 n + BitVec.ofNat 16 ospfLsaHeaderSize =
          BitVec.ofNat 16 (n + 20) := by
        rw [ospfLsaHeaderSize, ofNat_add]
      rw [step] at loop
      obtain ⟨rest, rfl, rfl, within, full⟩ := ih loop
      refine ⟨rest, rfl, by rw [length_cons, Nat.mul_succ, add_assoc n, add_comm 20],
        fun _ small => ?_, fun more => ?_⟩
      · rw [length_cons] at small ⊢
        by_cases last : later = []
        · rw [last, length_nil] at small ⊢
          have exact_ : (BitVec.ofNat 16 n).toNat = n := by
            rw [toNat_ofNat, mod_eq_of_lt (by omega)]
          omega
        · have fits := within last (by omega)
          omega
      · have stop := full more
        rw [length_cons]
        omega

/-- What a packet takes. -/
structure TookAcks (oi : OutInterface) (dst : InAddr) (taken rest : List OutLsa) (op : OspfPacket) :
    Prop where
  dst : op.dst = dst
  length : op.length = BitVec.ofNat 16 (24 + 20 * taken.length)
  within : taken ≠ [] → 28 + 20 * taken.length ≤ 65528 → 28 + 20 * taken.length ≤ oi.packetLimit
  full : rest ≠ [] → oi.packetLimit < 48 + 20 * taken.length

theorem ospfLsAckSendList_took (ran : oi.ospfLsAckSendList ack dst = some (op, rest)) :
    ∃ taken, ack = taken ++ rest ∧ oi.TookAcks dst taken rest op := by
  obtain ⟨headed, made, ran⟩ := bind_eq_some_iff.mp ran
  obtain ⟨⟨left, length, put⟩, body, ran⟩ := bind_eq_some_iff.mp ran
  obtain ⟨sent, -, ran⟩ := bind_eq_some_iff.mp ran
  obtain ⟨rfl, rfl⟩ :
      ({ s := sent, dst := dst, length := BitVec.ofNat 16 ospfHeaderSize + length } : OspfPacket) =
      op ∧ left = rest := by
    simpa using ran
  have here := oi.ospfMakeHeader_putp made
  rw [ospfMakeLsAck, here] at body
  obtain ⟨⟨taken, length', put'⟩, loop, body⟩ := bind_eq_some_iff.mp body
  obtain ⟨rfl, rfl, -⟩ : taken.foldl List.erase ack = left ∧ length' = length ∧ put' = put := by
    simpa using body
  obtain ⟨rest, rfl, rfl, within, full⟩ := lsAckLoop_taken (n := 0) loop
  rw [foldl_erase]
  refine ⟨taken, rfl, rfl, ?_, fun some_ small => ?_, fun more => ?_⟩
  · rw [zero_add, ospfHeaderSize, ofNat_add]
  · have room := within some_ (by omega)
    omega
  · have stop := full more
    omega

theorem acks_packs_iff (some_ : ack ≠ []) :
    Packs (fun _ : OutLsa => 20) 28 oi.packetLimit (min 65528 (oi.mtu + 4)) ack ↔
    oi.AcksFit ack.length := by
  rw [AcksFit, ospfHeaderSize, ospfLsaHeaderSize]
  rcases oi.packetLimit_eq with ⟨notNegative, same, inside⟩ | ⟨negative, small, huge⟩
  · rw [if_neg (Int.not_lt.mpr notNegative)]
    by_cases narrow : oi.ospfPacketMax ≤ 65547
    · rw [packs_iff fun group fits => by rw [load_const] at fits ⊢; omega]
      obtain ⟨lsa, later, rfl⟩ := exists_cons_of_ne_nil some_
      exact ⟨fun all => ⟨by have first := all lsa mem_cons_self; omega, .inl narrow⟩,
        fun fits lsa _ => by omega⟩
    · rw [packs_one (fun lsa _ => by omega) (by omega), load_const]
      refine ⟨fun one => ⟨by omega, .inr ?_⟩, fun fits => .inr ?_⟩
      · have most := one.resolve_left some_
        omega
      · omega
  · rw [if_pos negative, packs_one (fun lsa _ => by omega) (by omega), load_const]
    exact ⟨fun one => by have most := one.resolve_left some_; omega, fun fits => .inr (by omega)⟩

/-- Packets that hold as many headers as the list has LSAs show that they fit. -/
theorem acks_fit_of_sent {rounds packets carried} (some_ : ack ≠ [])
    (ran : oi.sendAcks dst rounds ack = some packets) (whole : carried.flatten.length = ack.length)
    (carries : Forall₂ oi.Acknowledges carried packets) : oi.AcksFit ack.length := by
  obtain ⟨groups, same, drained⟩ := drain_drained (fun _ _ _ => ospfLsAckSendList_took) ran
  have reduced :
      Forall₂ (fun group length => length = (24 + load (fun _ => 20) group) % 65536) groups
      (packets.map fun op => op.length.toNat) :=
    forall₂_map_right_iff.mpr (drained.forall₂ fun taken rest op took => by
      rw [took.length, load_const, toNat_ofNat])
  have exact_ : Forall₂ (fun group length => length = 24 + load (fun _ => 20) group ∧
      length ≤ min 65535 oi.mtu) carried
      (packets.map fun op => op.length.toNat) := by
    refine forall₂_map_right_iff.mpr (carries.imp fun group op carry => ⟨?_, ?_⟩)
    · rw [load_const]
      exact carry.length
    · have within := carry.within
      omega
  have short := (load_exact reduced exact_).2 (by rw [load_const, load_const, same, whole])
  refine (acks_packs_iff some_).mp ⟨groups, same,
    drained.packed (fun taken rest op took => ?_) (fun taken rest op took lsa is => ?_)
    fun taken member => ?_⟩
  · rw [load_const]
    exact fun some_ small => took.within some_ (by omega)
  · have stop := took.full (by rintro rfl; cases is)
    rw [load_const]
    omega
  · have most := short taken member
    rw [load_const] at most ⊢
    omega

theorem acks_sent (dst : InAddr) (fits : ack = [] ∨ oi.AcksFit ack.length) :
    ∃ rounds packets, oi.sendAcks dst rounds ack = some packets ∧ ∃ groups, groups.flatten = ack ∧
      Forall₂ (fun group op => op.dst = dst ∧ oi.Acknowledges group op) groups packets := by
  by_cases empty : ack = []
  · subst empty
    exact ⟨0, [], rfl, [], rfl, .nil⟩
  obtain ⟨groups, rfl, packed⟩ := (acks_packs_iff empty).mpr (fits.resolve_left empty)
  obtain ⟨packets, drained, carries⟩ := @drain_packed _ _ (oi.ospfLsAckSendList · dst) _ _ _ _ _
    (fun group op => op.dst = dst ∧ oi.Acknowledges group op)
      (fun group rest some_ within most full => by
      rw [load_const] at within most
      refine @ospfLsAckSendList_group oi group rest dst (by omega) (by omega) within fun more => ?_
      obtain ⟨lsa, later, rfl⟩ := exists_cons_of_ne_nil more
      have stop := full lsa rfl
      rw [load_const] at stop
      omega) packed
  exact ⟨groups.length, packets, drained, groups, rfl, carries⟩

theorem sendAcks_dst {rounds packets} (ran : oi.sendAcks dst rounds ack = some packets) :
    ∀ op ∈ packets, op.dst = dst := by
  obtain ⟨groups, -, drained⟩ := drain_drained (fun _ _ _ => ospfLsAckSendList_took) ran
  intro op member
  have all := drained.forall₂ fun taken rest op took => took.dst
  obtain ⟨index, bound, rfl⟩ := getElem_of_mem member
  exact all.get (all.length_eq ▸ bound) bound

end OutInterface

namespace AckLists
variable {lists : AckLists}

/-- What is received for acknowledgement at once, in its order. -/
def received (batch : List AckOp) : List (InAddr × OutLsa) := batch.filterMap AckOp.received

theorem foldl_direct (batch : List AckOp) (lists : AckLists) :
    (batch.foldl step lists).direct = lists.direct ++ (received batch).map snd := by
  induction batch generalizing lists with
  | nil => simp [received]
  | cons op batch ih =>
    rw [foldl_cons, ih]
    cases op with
    | direct nbr lsa => simp [step, ospfLsAckSend, received, AckOp.received]
    | delayed lsa => rfl

theorem foldl_dst (batch : List AckOp) (lists : AckLists) :
    (batch.foldl step lists).dst = if lists.direct = [] then
      (received batch).head?.elim lists.dst fst else lists.dst := by
  induction batch generalizing lists with
  | nil => simp [received]
  | cons op batch ih =>
    rw [foldl_cons, ih]
    cases op with
    | direct nbr lsa => simp [step, ospfLsAckSend, received, AckOp.received]
    | delayed lsa => rfl

end AckLists

namespace AckInterface
variable {oi : AckInterface}

/-- The list of one destination reaches every neighbour that it is for, when there is only one. -/
theorem acked_iff (entries : List (InAddr × OutLsa)) (dst : InAddr)
    (first : ∀ entry ∈ entries.head?, entry.1 = dst) :
    (∃ rounds packets, oi.out.sendAcks dst rounds (entries.map snd) = some packets ∧
      oi.out.Acked entries packets) ↔
      entries = [] ∨ (∀ entry ∈ entries, entry.1 = dst) ∧ oi.out.AcksFit entries.length := by
  by_cases empty : entries = []
  · subst empty
    exact iff_of_true ⟨0, [], rfl, [], by simp, .nil⟩ (.inl rfl)
  rw [or_iff_right empty]
  constructor
  · rintro ⟨rounds, packets, ran, groups, whole, carries⟩
    refine ⟨fun entry member => ?_, ?_⟩
    · obtain ⟨group, inside, there⟩ := mem_flatten.mp (whole.mem_iff.mpr member)
      obtain ⟨index, bound, rfl⟩ := getElem_of_mem inside
      have bound' : index < packets.length := carries.length_eq ▸ bound
      have own := (carries.get bound bound').1 entry there
      exact own.trans (sendAcks_dst ran _ (getElem_mem bound'))
    · have fits := acks_fit_of_sent (by simpa using empty) ran
        (by rw [← map_flatten, length_map, length_map, whole.length_eq])
        (forall₂_map_left_iff.mpr (carries.imp fun group op carry => carry.2))
      rwa [length_map] at fits
  · rintro ⟨same, room⟩
    obtain ⟨rounds, packets, ran, groups, whole, carries⟩ := @acks_sent oi.out (entries.map snd) dst
      (.inr (by rwa [length_map]))
    refine ⟨rounds, packets, ran, groups.map (map fun lsa => (dst, lsa)), ?_, ?_⟩
    · rw [← List.map_flatten, whole, List.map_map]
      refine List.Perm.of_eq ((map_congr_left fun entry member => ?_).trans (map_id _))
      exact Prod.ext (same entry member).symm rfl
    · refine forall₂_map_left_iff.mpr
        (carries.imp fun group op carry => ⟨fun entry member => ?_, ?_⟩)
      · obtain ⟨lsa, -, rfl⟩ := mem_map.mp member
        exact carry.1.symm
      · rw [List.map_map]
        exact (map_id group).symm ▸ carry.2

/-- The neighbours that a delayed acknowledgement is for. -/
def adjacents (oi : AckInterface) : List AckNeighbor := oi.nbrs.filter adjacent

theorem sendEach_nil (rounds : Nat) (nbrs : List AckNeighbor) :
    oi.sendEach rounds nbrs [] = some ([], []) := by
  induction nbrs with
  | nil => rfl
  | cons nbr nbrs ih =>
    rw [sendEach, ih]
    split
    · rw [sendAcks, drain_nil]
      rfl
    · rfl

theorem sendEach_eq (rounds : Nat) (nbrs : List AckNeighbor) (ack : List OutLsa) :
    oi.sendEach rounds nbrs ack =
      (nbrs.filter adjacent).head?.elim (some ([], ack)) fun nbr =>
        (oi.out.sendAcks nbr.address rounds ack).map (·, []) := by
  induction nbrs with
  | nil => rfl
  | cons nbr nbrs ih =>
    rw [sendEach, filter_cons]
    split
    · rw [sendEach_nil, head?_cons, elim_some]
      cases oi.out.sendAcks nbr.address rounds ack with
      | none => rfl
      | some packets => exact congrArg (fun packets => some (packets, [])) (append_nil packets)
    · exact ih

/-- Every adjacent neighbour is sent the delayed acknowledgements when there is at most one. -/
theorem reached_iff (nbma : oi.type = .nbma) (lists : AckLists) :
    (∃ rounds packets lists', oi.ospfLsAckTimer rounds lists = some (packets, lists') ∧
      ∀ nbr ∈ oi.adjacents, oi.out.Reaches lists.delayed nbr.address packets) ↔
    lists.delayed = [] ∨ oi.adjacents = [] ∨ oi.adjacents.length = 1 ∧
    oi.out.AcksFit lists.delayed.length := by
  by_cases empty : lists.delayed = []
  · refine iff_of_true ⟨0, [], lists, ?_, fun nbr _ => ⟨[], by simp [empty], .nil⟩⟩ (.inl empty)
    rw [ospfLsAckTimer, empty]
    rfl
  rw [or_iff_right empty]
  have timer (rounds : Nat) : oi.ospfLsAckTimer rounds lists =
      ((oi.adjacents.head?.elim (some ([], lists.delayed)) fun nbr =>
        (oi.out.sendAcks nbr.address rounds lists.delayed).map (·, [])).map fun sent =>
          (sent.1, { lists with delayed := sent.2 })) := by
    rw [ospfLsAckTimer, if_pos (length_pos_iff.mpr empty), ospfLsAckSendDelayed, if_pos nbma,
      sendEach_eq]
    exact map_eq_bind.symm
  have distinct : (oi.adjacents.map AckNeighbor.address).Nodup :=
    oi.addresses.sublist (filter_sublist.map _)
  cases adjacents : oi.adjacents with
  | nil =>
    refine iff_of_true ⟨0, [], lists, ?_, fun nbr member => nomatch member⟩ (.inl rfl)
    rw [timer, adjacents]
    rfl
  | cons first others =>
    rw [adjacents] at distinct
    rw [or_iff_right nofun]
    constructor
    · rintro ⟨rounds, packets, lists', ran, reaches⟩
      rw [timer, adjacents] at ran
      obtain ⟨sent, ran, same⟩ := map_eq_some_iff.mp ran
      obtain ⟨packets', done, rfl⟩ := map_eq_some_iff.mp ran
      obtain rfl : packets' = packets := congrArg fst same
      have toFirst := sendAcks_dst done
      have alone : others = [] := by
        refine eq_nil_iff_forall_not_mem.mpr fun nbr member => empty ?_
        obtain ⟨groups, whole, carries⟩ := reaches nbr (.tail _ member)
        have apart : nbr.address ≠ first.address := fun is =>
          (nodup_cons.mp distinct).1 (mem_map.mpr ⟨nbr, member, is⟩)
        have nothing : packets'.filter (fun op => op.dst = nbr.address) = [] :=
          filter_eq_nil_iff.mpr fun op inside => by simpa [toFirst op inside] using apart.symm
        rw [nothing, forall₂_nil_right_iff] at carries
        rw [carries] at whole
        exact whole.nil_eq.symm
      obtain ⟨groups, whole, carries⟩ := reaches first mem_cons_self
      have all := filter_eq_self.mpr fun op inside => decide_eq_true (toFirst op inside)
      rw [all] at carries
      exact ⟨by rw [alone]; rfl, acks_fit_of_sent empty done whole.length_eq carries⟩
    · rintro ⟨one, room⟩
      obtain rfl : others = [] := eq_nil_of_length_eq_zero (succ.inj one)
      obtain ⟨rounds, packets, ran, groups, whole, carries⟩ :=
        @acks_sent oi.out lists.delayed first.address (.inr room)
      refine ⟨rounds, packets, { lists with delayed := [] }, ?_, fun nbr member => ?_⟩
      · rw [timer, adjacents]
        exact congrArg (Option.map _) (congrArg (Option.map _) ran)
      · obtain rfl := mem_singleton.mp member
        have all := filter_eq_self.mpr fun op inside => decide_eq_true (sendAcks_dst ran op inside)
        refine ⟨groups, List.Perm.of_eq whole, ?_⟩
        rw [all]
        exact carries.imp fun group op carry => carry.2

theorem event_iff (lists : AckLists) (Good : List OspfPacket → Prop) :
    (∃ rounds packets lists', oi.ospfLsAckSendEvent rounds lists = some (packets, lists') ∧
      Good packets) ↔
      ∃ rounds packets, oi.out.sendAcks lists.dst rounds lists.direct = some packets ∧
        Good packets := by
  have event (rounds : Nat) : oi.ospfLsAckSendEvent rounds lists =
      (oi.out.sendAcks lists.dst rounds lists.direct).map
        (·, { lists with direct := [], scheduled := false }) :=
    map_eq_bind.symm
  constructor
  · rintro ⟨rounds, packets, lists', ran, good⟩
    rw [event] at ran
    obtain ⟨packets', done, same⟩ := map_eq_some_iff.mp ran
    obtain rfl : packets' = packets := congrArg fst same
    exact ⟨rounds, packets', done, good⟩
  · rintro ⟨rounds, packets, ran, good⟩
    refine ⟨rounds, packets, { lists with direct := [], scheduled := false }, ?_, good⟩
    rw [event, ran]
    rfl

/-- The event acknowledges all that was received to its neighbours when it is from one neighbour. -/
theorem event_acked_iff (dst : InAddr) (delayed : List OutLsa) (batch : List AckOp) :
    (∃ rounds packets lists', oi.ospfLsAckSendEvent rounds (batch.foldl step { dst, delayed }) =
      some (packets, lists') ∧
        oi.out.Acked (AckLists.received batch) packets) ↔
      AckLists.received batch = [] ∨
        (∀ entry ∈ AckLists.received batch, ∀ other ∈ AckLists.received batch, entry.1 = other.1) ∧
          oi.out.AcksFit (AckLists.received batch).length := by
  obtain ⟨lists, isLists⟩ := @exists_eq _ (batch.foldl step { dst, delayed })
  have direct : lists.direct = (AckLists.received batch).map snd := by
    rw [isLists, foldl_direct]
    rfl
  have start : lists.dst = (AckLists.received batch).head?.elim dst fst := by
    rw [isLists, foldl_dst, if_pos rfl]
  rw [← isLists, event_iff, direct, acked_iff]
  · refine or_congr_right' fun some_ => and_congr_left' ?_
    obtain ⟨first, others, isBatch⟩ := exists_cons_of_ne_nil some_
    rw [isBatch] at start ⊢
    rw [start]
    exact ⟨fun same entry member other member' =>
      (same entry member).trans (same other member').symm,
      fun same entry member => same entry member first mem_cons_self⟩
  · intro entry is
    rw [start, is]
    rfl

/-- After any sequence of received LSAs: the event acknowledges all of them to their neighbours
exactly when they are from one neighbour and fit, and on an NBMA network the timer reaches all
adjacent neighbours exactly when there is nothing to send or at most one of them, for which it
fits. -/
theorem acknowledgements_reach (oi : AckInterface) (dst : InAddr) (delayed : List OutLsa)
    (batch : List AckOp) :
    ((∃ rounds packets lists', oi.ospfLsAckSendEvent rounds
      (batch.foldl AckLists.step { dst, delayed }) = some (packets, lists') ∧
        oi.out.Acked (AckLists.received batch) packets) ↔
      AckLists.received batch = [] ∨
        (∀ entry ∈ AckLists.received batch, ∀ other ∈ AckLists.received batch, entry.1 = other.1) ∧
          oi.out.AcksFit (AckLists.received batch).length) ∧
    (oi.type = .nbma →
      ((∃ rounds packets lists', oi.ospfLsAckTimer rounds
        (batch.foldl AckLists.step { dst, delayed }) = some (packets, lists') ∧
        ∀ nbr ∈ oi.nbrs, adjacent nbr = true →
          oi.out.Reaches (batch.foldl AckLists.step { dst, delayed }).delayed nbr.address packets) ↔
      (batch.foldl AckLists.step { dst, delayed }).delayed = [] ∨
      (oi.nbrs.filter adjacent).length = 0 ∨
        (oi.nbrs.filter adjacent).length = 1 ∧
        oi.out.AcksFit (batch.foldl AckLists.step { dst, delayed }).delayed.length)) := by
  refine ⟨event_acked_iff dst delayed batch, fun nbma => ?_⟩
  have each (packets : List OspfPacket) : (∀ nbr ∈ oi.nbrs, adjacent nbr = true →
        oi.out.Reaches (batch.foldl step { dst, delayed }).delayed nbr.address packets) ↔
      ∀ nbr ∈ oi.adjacents,
        oi.out.Reaches (batch.foldl step { dst, delayed }).delayed nbr.address packets := by
    simp only [adjacents, mem_filter, and_imp]
  simp only [each]
  rw [reached_iff nbma, adjacents, length_eq_zero_iff]

end AckInterface

/-- An NBMA network with one adjacent neighbour. -/
def twoRouters : AckInterface where
  out := { routerId := 0x01010101, areaId := 0, authType := .null,
           authSimple := Vector.replicate 8 0, authCrypt := []
           mtu := 1500, mtuInt := by decide, transmitDelay := 1 }
  type := .nbma
  state := .drOther
  peerAddr := 0
  nbrs := [⟨0x0a000001, true, .twoWay⟩, ⟨0x0a000002, false, .full⟩]
  addresses := by decide

/-- A network-LSA. -/
def acknowledged : OutLsa where
  data := [0, 1, 2, 2, 10, 0, 0, 1, 1, 1, 1, 1, 0x80, 0, 0, 1, 0, 0, 0, 28, 255, 255, 255,
    0, 1, 1, 1, 1]
  age := 1
  header := by decide
  framed := by decide

/-- Two acknowledgements for the neighbour are sent at once, and two others when the timer runs
  out. -/
def sampleBatch : List AckOp :=
  [.direct 0x0a000002 acknowledged, .delayed acknowledged, .direct 0x0a000002 acknowledged,
    .delayed acknowledged]

theorem acknowledgements_one_neighbour :
    (∃ rounds packets lists', twoRouters.ospfLsAckSendEvent rounds
      (sampleBatch.foldl AckLists.step { dst := 0, delayed := [] }) =
        some (packets, lists') ∧
        twoRouters.out.Acked [(0x0a000002, acknowledged), (0x0a000002, acknowledged)] packets) ∧
    ∃ rounds packets lists', twoRouters.ospfLsAckTimer rounds
      (sampleBatch.foldl AckLists.step { dst := 0, delayed := [] }) =
        some (packets, lists') ∧
      ∀ nbr ∈ twoRouters.nbrs, AckInterface.adjacent nbr = true →
        twoRouters.out.Reaches [acknowledged, acknowledged] nbr.address packets := by
  have fits : twoRouters.out.AcksFit 2 := by
    rw [OutInterface.AcksFit]
    decide
  have reach := twoRouters.acknowledgements_reach 0 [] sampleBatch
  have received : AckLists.received sampleBatch =
    [(0x0a000002, acknowledged), (0x0a000002, acknowledged)] := rfl
  exact ⟨received ▸ reach.1.mpr (.inr ⟨by simp [received], fits⟩),
    (reach.2 rfl).mpr (.inr (.inr ⟨rfl, fits⟩))⟩

/-- A broadcast network with two adjacent neighbours. -/
def threeRouters : AckInterface where
  out := twoRouters.out
  type := .broadcast
  state := .drOther
  peerAddr := 0
  nbrs := [⟨0x0a000001, true, .twoWay⟩, ⟨0x0a000002, false, .full⟩, ⟨0x0a000003, false, .full⟩]
  addresses := by decide

/-- The second neighbour gets no acknowledgement: all of them go to the first one. -/
theorem acknowledgement_goes_elsewhere :
    ¬∃ rounds packets lists', threeRouters.ospfLsAckSendEvent rounds
        ([direct 0x0a000002 acknowledged, direct 0x0a000003 acknowledged].foldl step {
          dst := 0, delayed := [] }) =
        some (packets, lists') ∧
      threeRouters.out.Acked [(0x0a000002, acknowledged), (0x0a000003, acknowledged)] packets := by
  intro acked
  rcases (event_acked_iff 0 [] _).mp acked with nothing | ⟨same, -⟩
  · cases nothing
  · have one := same (0x0a000002, acknowledged) (.head _) (0x0a000003, acknowledged)
      (.tail _ (.head _))
    exact nomatch one

end Zebra.Ospfd.Packet
