import Zebra.Zebrad.Reception

namespace Zebra.Reception
open Base Zebrad Follows Steady List Zserv Nat Socket MessageNexthop

/-- Every structure holds what is copied into it. -/
def Few (copies : Copies) : Prop := ∀ copy ∈ copies, copy.1 ≤ copy.2

/-- The prefix as the readers leave it. -/
def asSent {count : Nat} (p : RoutePrefix count) : SentPrefix count :=
  ⟨BitVec.ofNat 8 p.prefixlen, p.addr⟩

def messageCall (message : RouteMessage) : RouteCall :=
  .ribAddIpv4Multipath (asSent message.p.route) message.type message.flags message.nexthops
    message.distance message.metric

/-- What the message of a command says, where it is about a route. -/
def routeDecoder (table : Int) (command : Octet) : Option (Decoder RouteCall) :=
  if command = 7 then some (do let message ← zreadIpv4AddMessage; pure (messageCall message))
  else if command = 8 then
    some (do let read ← Zebrad.zreadIpv4Delete
             pure (.ribDeleteIpv4 read.type read.flags
               (asSent read.p) read.nexthop read.ifindex table))
  else if command = 9 then
    some (do let read ← Zebrad.zreadIpv6Add
             pure (.ribAddIpv6 read.type read.flags
               (asSent read.p) (specified read.nexthop) read.ifindex))
  else if command = 10 then
    some (do let read ← Zebrad.zreadIpv6Delete
             pure (.ribDeleteIpv6 read.type read.flags
               (asSent read.p) (specified read.nexthop) read.ifindex))
  else none

section Readers
variable {count : Nat} {Hop Met : Type}

/-- A parser follows a decoder of the same values. -/
def Same (reader : ApiReader Hop) (decoder : Decoder Hop) : Prop :=
  Follows Few (fun first second => first = second) reader decoder

theorem same_getc : Same streamGetc Decoder.octet := octet

theorem same_getl : Same streamGetl Decoder.long := number 4

theorem steady_get (size holds : Nat) : Steady Few (streamGet size holds) :=
  (change fun _ few => (forall_mem_cons.mp few).2).bind fun _ => take size

theorem follows_get {size holds Agrees} (room : size ≤ holds) (value : List Octet → Hop)
    (result : List Octet → Met)
    (agree : ∀ octets, octets.length = size → Agrees (value octets) (result octets)) :
    Follows Few Agrees (do let octets ← streamGet size holds; pure (value octets))
      (do let octets ← Decoder.take size; pure (result octets)) :=
  of_move value result ((steady_get size holds).bind fun _ => pure _) (fun _ _ => ⟨rfl, rfl⟩)
    (fun _ _ low inside kept => ⟨forall_mem_cons.mpr ⟨⟨low, inside⟩, kept.inside⟩, inside,
      forall_mem_cons.mpr ⟨room, kept.world⟩⟩) agree

theorem follows_get_failure {size holds} {Agrees : Hop → Met → Prop} (beyond : holds < size)
    (value : List Octet → Hop) :
    Follows Few Agrees (do let octets ← streamGet size holds; pure (value octets)) failure := by
  refine ⟨(steady_get size holds).bind fun _ => pure _, ?_, ?_⟩
  · intro data cursor _ _ _ result rest done
    cases done
  · intro data cursor _ _ _ _ kept
    have few : size ≤ holds := (forall_mem_cons.mp kept.world).1
    exact Nat.not_le_of_lt beyond few

theorem psize_le (prefixlen : Nat) : Zebrad.psize prefixlen ≤ count ↔
    prefixlen < 8 * count + 1 := by
  rw [Zebrad.psize]
  omega

theorem steady_prefix : Steady Few (readPrefix count) :=
  octet.bind fun _ => (steady_get _ _).bind fun _ => pure _

theorem follows_prefix : Follows Few (fun first second => first = asSent second)
    (readPrefix count) RoutePrefix.read := by
  refine octet.bind (fun prefixlen => (steady_get _ _).bind fun _ => pure _)
    fun prefixlen result same => ?_
  subst same
  by_cases fits : prefixlen.toNat < 8 * count + 1
  · rw [dif_pos fits]
    refine follows_get ((psize_le _).mpr fits) _ _ fun octets size => ?_
    have whole : octets.take count = octets := take_of_length_le (size ▸ (psize_le _).mpr fits)
    rw [whole, asSent, BitVec.ofNat_toNat, BitVec.setWidth_eq]
  · rw [dif_neg fits]
    exact follows_get_failure (Nat.lt_of_not_le fun room => fits ((psize_le _).mp room)) _

theorem same_nexthop : Same readNexthop readMessageNexthop := by
  refine octet.bind (fun type => ?_) fun type result same => ?_
  · exact Steady.ite ((Steady.number 4).bind fun _ => Steady.pure _)
      (Steady.ite (octet.bind fun _ => (Steady.forward _).bind fun _ => Steady.pure _)
      (Steady.ite ((Steady.number 4).bind fun _ => Steady.pure _)
      (Steady.ite ((Steady.forward _).bind fun _ => Steady.pure _)
        (Steady.ite (Steady.pure _) (Steady.pure _)))))
  · subst same
    refine Follows.ite ((Follows.number 4).map fun _ _ same => congrArg ifindex same)
      (Follows.ite ?_
      (Follows.ite ((Follows.number 4).map fun _ _ same => congrArg ipv4 same)
      (ite ?_ (ite (pure rfl) (pure rfl)))))
    · refine octet.bind (fun _ => (Steady.forward _).bind fun _ => Steady.pure _)
        fun first second same => ?_
      subst same
      exact forward rfl _
    · exact Follows.forward rfl _

theorem same_nexthop6 : Same readNexthop6 readLastHop6 := by
  refine octet.bind (fun type => ?_) fun type result same => ?_
  · exact Steady.ite ((steady_get 16 16).bind fun _ => Steady.pure _)
      (Steady.ite ((Steady.number 4).bind fun _ => Steady.pure _) (Steady.pure _))
  · subst same
    refine Follows.ite ?_ (Follows.ite
      ((Follows.number 4).map fun _ _ same => congrArg LastHop.ifindex same) (Follows.pure rfl))
    have gate : (do let gate ← Decoder.number 16; pure (LastHop.nexthop gate)) =
        (do
          let octets ← Decoder.take 16
          pure (LastHop.nexthop (BitVec.ofNat (8 * 16) (ofOctets octets)))) := by
      simp only [Decoder.number, bind_assoc, pure_bind]
    rw [gate]
    exact follows_get (le_refl 16) _ _ fun _ _ => rfl

section
variable {readHop : ApiReader Hop} {decoder : Decoder Hop} (same : Same readHop decoder)
include same

theorem follows_hops :
    Follows Few (fun hops result => hops = result.1) (readHops readHop)
    (Zebrad.readHops decoder) := by
  refine octet.bind (fun _ => same.steady.repeated _) fun num result equal => ?_
  subst equal
  exact (same.repeated num.toNat).map_right _ fun _ _ equal => equal

/-- What was read of a route, and what was to be read. -/
def ReadSame (read : StreamRead count Hop) (result : ZapiRead count Hop) : Prop :=
  read.type = result.type ∧ read.flags = result.flags ∧ read.p = asSent result.p ∧
    read.hops = result.hops.1 ∧
    read.distance = result.distance ∧ read.metric = result.metric

theorem follows_zread : Follows Few ReadSame (zread count readHop) (Zebrad.zread decoder) := by
  have hopsSteady (message : Octet) :
      Steady Few (Reader.optional (has message .nexthop) (readHops readHop) []) :=
    optional (octet.bind fun _ => same.steady.repeated _)
  have metricSteady (message : Octet) :
      Steady Few (Reader.optional (has message .metric) streamGetl 0) :=
    optional (number 4)
  have distanceSteady (message : Octet) :
      Steady Few (Reader.optional (has message .distance) streamGetc 0) :=
    optional octet
  refine same_getc.bind
      (fun type => octet.bind fun flags => octet.bind fun message => steady_prefix.bind fun p =>
    (hopsSteady message).bind fun hops => (distanceSteady message).bind fun distance =>
      (metricSteady message).bind fun metric =>
      pure _) ?_
  rintro type _ rfl
  refine same_getc.bind (fun flags => octet.bind fun message => steady_prefix.bind fun p =>
    (hopsSteady message).bind fun hops => (distanceSteady message).bind fun distance =>
      (metricSteady message).bind fun metric =>
      pure _) ?_
  rintro flags _ rfl
  refine same_getc.bind
      (fun message => steady_prefix.bind fun p => (hopsSteady message).bind fun hops =>
    (distanceSteady message).bind fun distance =>
      (metricSteady message).bind fun metric => pure _) ?_
  rintro message _ rfl
  refine follows_prefix.bind
      (fun p => (hopsSteady message).bind fun hops => (distanceSteady message).bind fun distance =>
    (metricSteady message).bind fun metric => pure _) ?_
  rintro _ p rfl
  have hopsFollow : Follows Few (fun hops result => hops = result.1)
      (Reader.optional (has message .nexthop) (readHops readHop) [])
      (Decoder.optional (has message .nexthop) (Zebrad.readHops decoder) ⟨[], zero_lt_succ 255⟩) :=
    (follows_hops same).optional rfl
  refine hopsFollow.bind (fun hops => (distanceSteady message).bind fun distance =>
    (metricSteady message).bind fun metric => pure _) ?_
  rintro hops result same
  refine (same_getc.optional rfl).bind
    (fun distance => (metricSteady message).bind fun metric => pure _) ?_
  rintro distance _ rfl
  refine (same_getl.optional rfl).map ?_
  rintro metric _ rfl
  exact ⟨rfl, rfl, rfl, same, rfl, rfl⟩

end

theorem same_ipv4Add :
    Same zreadIpv4Add (do let message ← zreadIpv4AddMessage; pure (messageCall message)) := by
  rw [zreadIpv4AddMessage, bind_assoc]
  refine (follows_zread same_nexthop).bind (fun _ => Steady.pure _) fun read result same => ?_
  obtain ⟨type, flags, p, hops, distance, metric⟩ := same
  refine Follows.pure ?_
  rw [type, flags, p, hops, distance, metric]
  rfl

theorem same_last {readHop decoder} (same : Same readHop decoder)
    (call : Octet → Octet → SentPrefix count → BitVec (8 * count) → BitVec 32 → RouteCall) :
    Same (do let read ← zread count readHop
             pure (call read.type read.flags read.p (lastHops read.hops).1 (lastHops read.hops).2))
      (do let read ← zreadLast decoder
          pure (call read.type read.flags (asSent read.p) read.nexthop read.ifindex)) := by
  rw [zreadLast, bind_assoc]
  refine (follows_zread same).bind (fun _ => Steady.pure _) fun read result same => ?_
  obtain ⟨type, flags, p, hops, -, -⟩ := same
  refine Follows.pure ?_
  rw [type, flags, p, hops]
  rfl

theorem same_lastHop4 : Same (do let hop ← readNexthop; pure hop.last) readLastHop4 :=
  same_nexthop.map fun _ _ same => congrArg last same

end Readers

theorem routeReader_same (table : Int) (command : Octet) :
    (routeReader table command = none ∧ routeDecoder table command = none) ∨
    ∃ reader decoder, routeReader table command = some reader ∧
      routeDecoder table command = some decoder ∧ Same reader decoder := by
  rw [routeReader, routeDecoder]
  split
  · exact .inr ⟨_, _, rfl, rfl, same_ipv4Add⟩
  · split
    · exact .inr ⟨_, _, rfl, rfl, same_last same_lastHop4 fun type flags p gate ifindex =>
        .ribDeleteIpv4 type flags p gate ifindex table⟩
    · split
      · exact .inr ⟨_, _, rfl, rfl, same_last same_nexthop6 fun type flags p gate ifindex =>
          .ribAddIpv6 type flags p (specified gate) ifindex⟩
      · split
        · exact .inr ⟨_, _, rfl, rfl,
            same_last same_nexthop6 fun type flags p gate ifindex =>
              .ribDeleteIpv6 type flags p (specified gate) ifindex⟩
        · exact .inl ⟨rfl, rfl⟩

theorem routeDecoder_nil {table command decoder}
    (about : routeDecoder table command = some decoder) : decoder [] = none := by
  rw [routeDecoder] at about
  split at about
  · cases about
    rfl
  · split at about
    · cases about
      rfl
    · split at about
      · cases about
        rfl
      · split at about
        · cases about
          rfl
        · cases about

/-- The socket gives octets, and no error. -/
def Socket.Gives (sock : Socket) (nbytes : Nat) : Prop := 0 < sock.readn nbytes

namespace Zserv

/-- What the header says: the octets that come, and behind them those that were there. -/
def header (client : Zserv) : Nat × Octet := (client.ibuf.read client.sock 3).header

section
variable (client : Zserv)

/-- The octets of the message that come behind the header. -/
def body : List Octet := (client.sock.rest 3).octets.take (client.header.1 - 3)

/-- The header is there, and has a length. -/
def Accepted : Prop := client.sock.Gives 3 ∧ 3 ≤ client.header.1

def Served : Prop :=
  client.Accepted ∧ (client.header.1 = 3 ∨ (client.sock.rest 3).Gives (client.header.1 - 3))

/-- A message about a route that does not end where it should, or has too long a prefix. -/
def Malformed : Prop :=
  ∃ decoder, routeDecoder client.rtmTable client.header.2 = some decoder ∧
    decoder client.body = none

/-- The message has room in the buffer, and zebra serves no malformed one. -/
def Fits : Prop :=
  client.Accepted → 3 + client.body.length ≤ zebraMaxPacketSiz ∧ (client.Served → ¬client.Malformed)

end

/-- The call stores no more than the stream holds, the length does not wrap, the reader stays in the
message and in its structures, and a malformed message changes no route. -/
structure Sound (client : Zserv) : Prop where
  room : ∀ store ∈ (zebraClientRead client).2.stored, store.1 ≤ store.2
  exact : (zebraClientRead client).2.wrapped = false
  inside : ∀ cursor ∈ (zebraClientRead client).2.reading, Kept Few cursor
  unchanged : client.Malformed → (zebraClientRead client).2.route = none

/-- The client between two calls. -/
structure Ready (client : Zserv) : Prop where
  size : client.ibuf.size = zebraMaxPacketSiz
  getp : client.ibuf.getp = 0
  putp : client.ibuf.putp = 0
  endp : client.ibuf.endp = 0

end Zserv

section Streams
variable {s : Stream} {sock : Socket} {size : Nat}

theorem Socket.Gives.toNat (gives : sock.Gives size) :
    (sock.readn size).toNat = (sock.octets.take size).length := by
  rw [Gives] at gives
  rw [readn] at gives ⊢
  rw [length_take]
  split
  · omega
  · split
    · rename_i broken
      rw [if_pos broken] at gives
      omega
    · omega

theorem Socket.Gives.nonempty (gives : sock.Gives size) : sock.octets ≠ [] ∧ 0 < size := by
  rw [Gives, readn] at gives
  split at gives
  · have some_ : 0 < sock.octets.length := by omega
    exact ⟨length_pos_iff.mp some_, by omega⟩
  · split at gives
    · omega
    · have some_ : 0 < sock.octets.length := by omega
      exact ⟨length_pos_iff.mp some_, by omega⟩

@[simp] theorem size_read : (s.read sock size).size = s.size := by
  rw [Stream.read]
  split
  · exact length_overwrite ..
  · exact length_overwrite ..

@[simp] theorem getp_read : (s.read sock size).getp = s.getp := by
  rw [Stream.read]
  split
  · rfl
  · rfl

theorem read_gives (gives : sock.Gives size) : s.read sock size =
    { data := overwrite s.data s.putp (sock.octets.take size), getp := s.getp,
      putp := s.putp + (sock.octets.take size).length, endp :=
        s.endp + (sock.octets.take size).length } := by
  have positive : 0 < sock.readn size := gives
  rw [Stream.read, if_pos positive, gives.toNat]

theorem overwrite_left {data octets pos} (room : pos + octets.length ≤ data.length) :
    ((overwrite data pos octets).take (pos + octets.length)).drop pos = octets := by
  refine ext_getElem? fun index => ?_
  rw [getElem?_drop]
  by_cases small : index < octets.length
  · rw [getElem?_take_of_lt (Nat.add_lt_add_left small pos), overwrite, getElem?_mapIdx,
      getElem?_eq_getElem (by omega), Option.map_some,
        if_pos ⟨Nat.le_add_right .., Nat.add_lt_add_left small pos⟩,
      Nat.add_sub_cancel_left, getD_eq_getElem?_getD, getElem?_eq_getElem small, Option.getD_some]
  · rw [getElem?_eq_none (Nat.le_of_not_lt small), getElem?_eq_none]
    rw [length_take]
    omega

theorem slice_overwritten {data octets pos start count} (room : pos + octets.length ≤ data.length)
    (inside : start + count ≤ octets.length) :
    slice (overwrite data pos octets) (pos + start) count = slice octets start count := by
  refine map_congr_left fun index member => ?_
  have small := mem_range.mp member
  rw [getD_eq_getElem?_getD, overwrite, getElem?_mapIdx, getElem?_eq_getElem (by omega),
    Option.map_some, if_pos (by omega), Option.getD_some]
  congr 1
  omega

theorem header_read (getp : s.getp = 0) (putp : s.putp = 0) (room : 3 ≤ s.data.length)
    (whole : 3 ≤ sock.octets.length) :
    (s.read sock 3).header =
      ((field (sock.octets.take 3) 0 2).toNat, field (sock.octets.take 3) 2 1) := by
  have gives : sock.Gives 3 := by
    rw [Gives, readn, if_pos whole]
    decide
  have three : (sock.octets.take 3).length = 3 := length_take_of_le whole
  have fits : 0 + (sock.octets.take 3).length ≤ s.data.length := by omega
  have length := @slice_overwritten _ _ 0 0 2 fits (by omega)
  have command := @slice_overwritten _ _ 0 2 1 fits (by omega)
  rw [read_gives gives, Stream.header]
  rw [getp, putp, field, field, length, command]
  rfl

end Streams

namespace Zserv
variable {client : Zserv}

/-- The reader of a command stays inside if and only if the message says what it should. -/
theorem serve_inside (command : Octet) (stored : List (Nat × Nat))
    (held : client.ibuf.endp ≤ client.ibuf.data.length) :
    (∀ cursor ∈ (client.serve command stored).reading, Kept Few cursor) ↔
      ∀ decoder, routeDecoder client.rtmTable command = some decoder →
        client.ibuf.getp ≤ client.ibuf.endp ∧
        (decoder ((client.ibuf.data.take client.ibuf.endp).drop client.ibuf.getp)).isSome := by
  rw [serve]
  obtain ⟨none_, silent⟩ | ⟨reader, decoder, here, there, same⟩ :=
    routeReader_same client.rtmTable command
  · rw [none_, silent]
    exact ⟨fun _ _ impossible => (nomatch impossible), fun _ _ impossible => (nomatch impossible)⟩
  · rw [here, there]
    have start :
        Kept Few ({ getp := client.ibuf.getp, lo := 0, hi := client.ibuf.endp,
                    world := [] } : Cursor Copies) ↔
        client.ibuf.getp ≤ client.ibuf.endp :=
      ⟨Kept.ends, fun ends => ⟨nofun, ends, nofun⟩⟩
    constructor
    · intro inside other found
      cases found
      have after := inside _ rfl
      have ends := start.mp (same.steady.worsens _ _ after)
      exact ⟨ends, (same.kept_iff (zero_le _) held (start.mpr ends)).mp after⟩
    · intro decodes cursor reading
      obtain ⟨ends, decoded⟩ := decodes decoder rfl
      cases reading
      exact (same.kept_iff (zero_le _) held (start.mpr ends)).mpr decoded

/-- The client when the header is taken off. -/
def headed (client : Zserv) : Zserv :=
  let ibuf := client.ibuf.read client.sock 3
  { client with ibuf := { ibuf with getp := ibuf.getp + 3 }, sock := client.sock.rest 3 }

/-- The client when the message is there. -/
def filled (client : Zserv) : Zserv :=
  { client.headed with
    ibuf := client.headed.ibuf.read client.headed.sock (client.header.1 - 3)
    sock := client.headed.sock.rest (client.header.1 - 3) }

/-- What was stored of the header, and of the rest. -/
def stored (client : Zserv) : List (Nat × Nat) := [client.ibuf.stores client.sock 3]

def storedAll (client : Zserv) : List (Nat × Nat) :=
  client.headed.ibuf.stores client.headed.sock (client.header.1 - 3) :: client.stored

theorem read_eq : zebraClientRead client = if client.sock.readn 3 ≤ 0 then
    (none, { stored := client.stored })
    else if client.header.1 < 3 then (none, { stored := client.stored })
    else if client.header.1 - 3 = 0 then
      (some { client.headed with ibuf := client.headed.ibuf.reset },
        client.headed.serve client.header.2 client.stored)
    else if (client.sock.rest 3).readn (client.header.1 - 3) ≤ 0 then
      (none, { stored := client.storedAll })
    else (some { client.filled with ibuf := client.filled.ibuf.reset },
      client.filled.serve client.header.2 client.storedAll) :=
  rfl

theorem read_rejected (not : ¬client.Accepted) :
    zebraClientRead client = (none, { stored := client.stored }) := by
  rw [read_eq]
  by_cases gives : client.sock.Gives 3
  · rw [if_neg (not_le.mpr gives), if_pos (Nat.lt_of_not_le fun long => not ⟨gives, long⟩)]
  · rw [if_pos (not_lt.mp gives)]

theorem read_short (accepted : client.Accepted) (short : client.header.1 = 3) :
    zebraClientRead client =
    (some { client.headed with ibuf := client.headed.ibuf.reset },
      client.headed.serve client.header.2 client.stored) := by
  rw [read_eq, if_neg (not_le.mpr accepted.1), if_neg (Nat.not_lt_of_le accepted.2),
    if_pos (Nat.sub_eq_zero_of_le (le_of_eq short))]

theorem read_lost (accepted : client.Accepted) (long : 3 < client.header.1)
    (lost : ¬(client.sock.rest 3).Gives (client.header.1 - 3)) :
    zebraClientRead client = (none, { stored := client.storedAll }) := by
  rw [read_eq, if_neg (not_le.mpr accepted.1), if_neg (Nat.not_lt_of_le accepted.2),
    if_neg (Nat.sub_ne_zero_of_lt long), if_pos (not_lt.mp lost)]

theorem read_whole (accepted : client.Accepted) (long : 3 < client.header.1)
    (gives : (client.sock.rest 3).Gives (client.header.1 - 3)) : zebraClientRead client =
    (some { client.filled with ibuf := client.filled.ibuf.reset },
      client.filled.serve client.header.2 client.storedAll) := by
  rw [read_eq, if_neg (not_le.mpr accepted.1), if_neg (Nat.not_lt_of_le accepted.2),
    if_neg (Nat.sub_ne_zero_of_lt long), if_neg (not_le.mpr gives)]

section
variable (ready : client.Ready)
include ready

theorem headed_size : client.headed.ibuf.data.length = zebraMaxPacketSiz :=
  (size_read (s := client.ibuf)).trans ready.size

theorem stored_room : ∀ store ∈ client.stored, store.1 ≤ store.2 := by
  intro store member
  obtain rfl := mem_singleton.mp member
  have few : (client.sock.octets.take 3).length ≤ 3 := length_take_le ..
  show client.ibuf.putp + (client.sock.octets.take 3).length ≤ client.ibuf.size
  rw [ready.putp, ready.size, zebraMaxPacketSiz]
  omega

theorem headed_getp : client.headed.ibuf.getp = 3 := by
  have same : (client.ibuf.read client.sock 3).getp = 0 := getp_read.trans ready.getp
  rw [headed]
  rw [same]

section
variable (accepted : client.Accepted)
include accepted

theorem headed_putp (more : (client.sock.rest 3).octets ≠ []) :
    client.headed.ibuf.putp = 3 ∧ client.headed.ibuf.endp = 3 := by
  have longer : 3 < client.sock.octets.length := by
    have some_ := length_pos_iff.mpr more
    rw [rest, length_drop] at some_
    omega
  have three : (client.sock.octets.take 3).length = 3 := length_take_of_le (le_of_lt longer)
  have read := read_gives (s := client.ibuf) accepted.1
  rw [headed]
  rw [read, three, ready.putp, ready.endp]
  exact ⟨rfl, rfl⟩

theorem storedAll_room :
    (∀ store ∈ client.storedAll, store.1 ≤ store.2) ↔
      3 + client.body.length ≤ zebraMaxPacketSiz := by
  have here : (client.headed.ibuf.stores client.headed.sock (client.header.1 - 3)) =
      (client.headed.ibuf.putp + client.body.length, zebraMaxPacketSiz) :=
    Prod.ext rfl (headed_size ready)
  have room : client.headed.ibuf.putp + client.body.length ≤ zebraMaxPacketSiz ↔
      3 + client.body.length ≤ zebraMaxPacketSiz := by
    by_cases more : (client.sock.rest 3).octets = []
    · have none_ : client.body = [] := by rw [body, more, take_nil]
      have read := read_gives (s := client.ibuf) accepted.1
      have few : (client.sock.octets.take 3).length ≤ 3 := length_take_le ..
      have putp : client.headed.ibuf.putp ≤ 3 := by
        rw [headed]
        rw [read, ready.putp, zero_add]
        exact few
      rw [none_, zebraMaxPacketSiz, length_nil]
      omega
    · rw [(headed_putp ready accepted more).1]
  rw [← room]
  constructor
  · intro all
    have first := all _ mem_cons_self
    rwa [here] at first
  · intro fits store member
    rcases mem_cons.mp member with rfl | member
    · rw [here]
      exact fits
    · exact stored_room ready store member

theorem short_inside (short : client.header.1 = 3) :
    (∀ cursor ∈ (client.headed.serve client.header.2 client.stored).reading, Kept Few cursor) ↔
      ¬client.Malformed := by
  have few : (client.sock.octets.take 3).length ≤ 3 := length_take_le ..
  have endp : client.headed.ibuf.endp = (client.sock.octets.take 3).length := by
    rw [headed]
    rw [read_gives accepted.1, ready.endp, zero_add]
  have held : client.headed.ibuf.endp ≤ client.headed.ibuf.data.length := by
    rw [headed_size ready, zebraMaxPacketSiz]
    omega
  have none_ :
      (client.headed.ibuf.data.take client.headed.ibuf.endp).drop client.headed.ibuf.getp = [] := by
    rw [headed_getp ready, endp]
    exact drop_eq_nil_of_le (le_trans (length_take_le ..) few)
  have body : client.body = [] := by rw [body, short, Nat.sub_self, take_zero]
  rw [serve_inside _ _ held, none_]
  constructor
  · rintro inside ⟨decoder, about, -⟩
    have decoded := (inside decoder about).2
    rw [routeDecoder_nil about] at decoded
    cases decoded
  · intro well decoder about
    exact absurd ⟨decoder, about, body ▸ routeDecoder_nil about⟩ well

theorem whole_inside (gives : (client.sock.rest 3).Gives (client.header.1 - 3))
    (room : 3 + client.body.length ≤ zebraMaxPacketSiz) :
    (∀ cursor ∈ (client.filled.serve client.header.2 client.storedAll).reading, Kept Few cursor) ↔
      ¬client.Malformed := by
  obtain ⟨putp, endp⟩ := headed_putp ready accepted gives.nonempty.1
  have read : client.filled.ibuf =
      { data := overwrite client.headed.ibuf.data 3 client.body, getp := 3,
        putp := 3 + client.body.length, endp := 3 + client.body.length } := by
    have same := read_gives (s := client.headed.ibuf) gives
    rw [putp, endp, headed_getp ready] at same
    exact same
  have size : (overwrite client.headed.ibuf.data 3 client.body).length = zebraMaxPacketSiz :=
    (length_overwrite ..).trans (headed_size ready)
  have held : client.filled.ibuf.endp ≤ client.filled.ibuf.data.length := by
    rw [read]
    rw [size]
    exact room
  have body : (client.filled.ibuf.data.take client.filled.ibuf.endp).drop client.filled.ibuf.getp =
      client.body := by
    rw [read]
    exact overwrite_left (room.trans (le_of_eq (headed_size ready).symm))
  rw [serve_inside _ _ held, body]
  constructor
  · rintro inside ⟨decoder, about, failed⟩
    have decoded := (inside decoder about).2
    rw [failed] at decoded
    cases decoded
  · intro well decoder about
    refine ⟨?_, ?_⟩
    · rw [read]
      exact Nat.le_add_right ..
    · rw [Option.isSome_iff_ne_none]
      exact fun failed => well ⟨decoder, about, failed⟩

end
end

theorem serve_stored (command : Octet) (stored : List (Nat × Nat)) :
    (client.serve command stored).stored = stored ∧
    (client.serve command stored).wrapped = false := by
  rw [serve]
  split
  · exact ⟨rfl, rfl⟩
  · exact ⟨rfl, rfl⟩

theorem sound_iff (ready : client.Ready) : client.Sound ↔ client.Fits := by
  by_cases accepted : client.Accepted
  · by_cases short : client.header.1 = 3
    · have served : client.Served := ⟨accepted, .inl short⟩
      have body : client.body = [] := by rw [body, short, Nat.sub_self, take_zero]
      have inside := short_inside ready accepted short
      have read := read_short accepted short
      constructor
      · intro sound
        refine fun _ => ⟨by rw [body]; decide, fun _ => inside.mp ?_⟩
        have kept := sound.inside
        rwa [read] at kept
      · intro fits
        have well := (fits accepted).2 served
        refine ⟨?_, ?_, ?_, fun bad => absurd bad well⟩
        · rw [read, (serve_stored _ _).1]
          exact stored_room ready
        · rw [read]
          exact (serve_stored _ _).2
        · rw [read]
          exact inside.mpr well
    · have long : 3 < client.header.1 := lt_of_le_of_ne accepted.2 (Ne.symm short)
      by_cases gives : (client.sock.rest 3).Gives (client.header.1 - 3)
      · have served : client.Served := ⟨accepted, .inr gives⟩
        have read := read_whole accepted long gives
        constructor
        · intro sound _
          have stores := sound.room
          rw [read, (serve_stored _ _).1] at stores
          have room := (storedAll_room ready accepted).mp stores
          refine ⟨room, fun _ => (whole_inside ready accepted gives room).mp ?_⟩
          have kept := sound.inside
          rwa [read] at kept
        · intro fits
          obtain ⟨room, well⟩ := fits accepted
          refine ⟨?_, ?_, ?_, fun bad => absurd bad (well served)⟩
          · rw [read, (serve_stored _ _).1]
            exact (storedAll_room ready accepted).mpr room
          · rw [read]
            exact (serve_stored _ _).2
          · rw [read]
            exact (whole_inside ready accepted gives room).mpr (well served)
      · have read := read_lost accepted long gives
        have idle : ¬client.Served := fun served => served.2.elim short gives
        constructor
        · intro sound _
          have stores := sound.room
          rw [read] at stores
          exact ⟨(storedAll_room ready accepted).mp stores, fun served => absurd served idle⟩
        · intro fits
          refine ⟨?_, ?_, ?_, fun _ => ?_⟩
          · rw [read]
            exact (storedAll_room ready accepted).mpr (fits accepted).1
          · rw [read]
          · rw [read]
            exact fun _ impossible => nomatch impossible
          · rw [read]
  · have read := read_rejected accepted
    refine ⟨fun _ here => absurd here accepted, fun _ => ⟨?_, ?_, ?_, fun _ => ?_⟩⟩
    · rw [read]
      exact stored_room ready
    · rw [read]
    · rw [read]
      exact fun _ impossible => nomatch impossible
    · rw [read]

theorem ready_create (sock : Socket) (rtmTable : Int) : (zebraClientCreate sock rtmTable).Ready :=
  ⟨length_replicate, rfl, rfl, rfl⟩

theorem Ready.next (ready : client.Ready) {next} (stays : (zebraClientRead client).1 = some next) :
    next.Ready := by
  have size := headed_size ready
  rw [read_eq] at stays
  split at stays
  · cases stays
  · split at stays
    · cases stays
    · split at stays
      · cases stays
        exact ⟨size, rfl, rfl, rfl⟩
      · split at stays
        · cases stays
        · cases stays
          exact ⟨(size_read (s := client.headed.ibuf)).trans size, rfl, rfl, rfl⟩

theorem ready_calls {calls} : ∀ {start}, Ready start →
    ∀ client ∈ zebraCalls calls start, client.Ready := by
  induction calls with
  | zero => exact fun _ _ member => nomatch member
  | succ calls ih =>
    intro start ready client member
    rcases mem_cons.mp member with rfl | member
    · exact ready
    · cases stays : (zebraClientRead start).1 with
      | none =>
        rw [stays] at member
        exact nomatch member
      | some next =>
        rw [stays] at member
        exact ih (ready.next stays) client member

end Zserv

namespace Zclient
variable {zclient : Zclient}

/-- What the header says. -/
def header (zclient : Zclient) : Nat × Octet := (zclient.ibuf.reset.read zclient.sock 3).header

/-- A header that is there has a length. -/
def Fits (zclient : Zclient) : Prop := zclient.sock.readn 3 = 3 → 3 ≤ zclient.header.1

/-- The call stores no more than the stream holds, and the length does not wrap. -/
structure Sound (zclient : Zclient) : Prop where
  room : ∀ store ∈ (zclientRead zclient).2.2.stored, store.1 ≤ store.2
  exact : (zclientRead zclient).2.2.wrapped = false

/-- The stream in which the rest is stored. -/
def ibufFor (zclient : Zclient) : Stream :=
  let after := zclient.ibuf.reset.read zclient.sock 3
  if after.size ≤ zclient.header.1 then streamNew (zclient.header.1 + 1)
    else { after with getp := after.getp + 3 }

/-- The length without the header, of 16 bits. -/
def lengthLeft (zclient : Zclient) : Nat := (zclient.header.1 + 65536 - 3) % 65536

theorem read_eq : zclientRead zclient =
    if zclient.sock.readn 3 ≠ 3 then
      (false, { ibuf := zclient.ibuf.reset.read zclient.sock 3, sock := zclient.sock.rest 3 },
        { stored := [zclient.ibuf.reset.stores zclient.sock 3] })
    else
      ((zclient.sock.rest 3).readn zclient.lengthLeft = zclient.lengthLeft,
        { ibuf := zclient.ibufFor.read (zclient.sock.rest 3) zclient.lengthLeft,
          sock := (zclient.sock.rest 3).rest zclient.lengthLeft },
        { stored := [zclient.ibufFor.stores (zclient.sock.rest 3) zclient.lengthLeft,
          zclient.ibuf.reset.stores zclient.sock 3],
          wrapped := decide (zclient.header.1 < 3) }) :=
  rfl

theorem ibufFor_room (whole : zclient.sock.readn 3 = 3)
    (large : zebraMaxPacketSiz ≤ zclient.ibuf.size) :
    zclient.ibufFor.putp + (zclient.header.1 - 3) ≤ zclient.ibufFor.size ∧
    zebraMaxPacketSiz ≤ zclient.ibufFor.size := by
  have size : (zclient.ibuf.reset.read zclient.sock 3).size = zclient.ibuf.size := size_read
  have gives : zclient.sock.Gives 3 := by
    rw [Gives, whole]
    decide
  rw [ibufFor]
  split
  · have new : (streamNew (zclient.header.1 + 1)).size = zclient.header.1 + 1 := length_replicate
    rw [new]
    refine ⟨?_, by omega⟩
    show 0 + (zclient.header.1 - 3) ≤ zclient.header.1 + 1
    omega
  · have putp : (zclient.ibuf.reset.read zclient.sock 3).putp =
        (zclient.sock.octets.take 3).length := by
      rw [read_gives gives]
      exact zero_add _
    have few : (zclient.sock.octets.take 3).length ≤ 3 := length_take_le ..
    refine ⟨?_, le_trans large (le_of_eq size.symm)⟩
    show (zclient.ibuf.reset.read zclient.sock 3).putp + (zclient.header.1 - 3) ≤
      (zclient.ibuf.reset.read zclient.sock 3).size
    rw [zebraMaxPacketSiz] at large
    omega

section
variable (large : zebraMaxPacketSiz ≤ zclient.ibuf.size)
include large

theorem header_stored :
    (zclient.ibuf.reset.stores zclient.sock 3).1 ≤
      (zclient.ibuf.reset.stores zclient.sock 3).2 := by
  have few : (zclient.sock.octets.take 3).length ≤ 3 := length_take_le ..
  show 0 + (zclient.sock.octets.take 3).length ≤ zclient.ibuf.size
  rw [zebraMaxPacketSiz] at large
  omega

theorem sound_iff : zclient.Sound ↔ zclient.Fits := by
  by_cases whole : zclient.sock.readn 3 = 3
  · have read := zclient.read_eq
    rw [if_neg (not_not.mpr whole)] at read
    constructor
    · intro sound _
      have exact_ := sound.exact
      rw [read, decide_eq_false_iff_not] at exact_
      exact Nat.le_of_not_lt exact_
    · intro fits
      have enough := fits whole
      have bound : zclient.header.1 < 65536 := BitVec.isLt _
      have left : zclient.lengthLeft = zclient.header.1 - 3 := by
        rw [lengthLeft]
        omega
      refine ⟨?_, ?_⟩
      · rw [read]
        intro store member
        rcases mem_cons.mp member with rfl | member
        · have room := (ibufFor_room whole large).1
          have few : ((zclient.sock.rest 3).octets.take zclient.lengthLeft).length ≤
              zclient.header.1 - 3 :=
            left ▸ length_take_le ..
          show zclient.ibufFor.putp + ((zclient.sock.rest 3).octets.take
            zclient.lengthLeft).length ≤ zclient.ibufFor.size
          omega
        · obtain rfl := mem_singleton.mp member
          exact header_stored large
      · rw [read]
        exact decide_eq_false (Nat.not_lt_of_le enough)
  · have read := zclient.read_eq
    rw [if_pos whole] at read
    refine ⟨fun _ here => absurd here whole, fun _ => ⟨?_, ?_⟩⟩
    · rw [read]
      intro store member
      obtain rfl := mem_singleton.mp member
      exact header_stored large
    · rw [read]

theorem next_large : zebraMaxPacketSiz ≤ (zclientRead zclient).2.1.ibuf.size := by
  by_cases whole : zclient.sock.readn 3 = 3
  · have read := zclient.read_eq
    rw [if_neg (not_not.mpr whole)] at read
    have same : (zclient.ibufFor.read (zclient.sock.rest 3) zclient.lengthLeft).size =
      zclient.ibufFor.size := size_read
    rw [read]
    rw [same]
    exact (ibufFor_room whole large).2
  · have read := zclient.read_eq
    rw [if_pos whole] at read
    have same : (zclient.ibuf.reset.read zclient.sock 3).size = zclient.ibuf.size := size_read
    rw [read]
    rw [same]
    exact large

end

theorem large_calls {calls} : ∀ {start socks}, zebraMaxPacketSiz ≤ start.ibuf.size →
    ∀ zclient ∈ zclientCalls calls start socks, zebraMaxPacketSiz ≤ zclient.ibuf.size := by
  induction calls with
  | zero => exact fun _ _ member => nomatch member
  | succ calls ih =>
    intro start socks large zclient member
    rcases mem_cons.mp member with rfl | member
    · exact large
    · split at member
      · exact ih (next_large large) zclient member
      · split at member
        · exact nomatch member
        · rename_i sock rest _
          have next : zebraMaxPacketSiz ≤
            ({ ibuf := (zclientRead start).2.1.ibuf, sock } : Zclient).ibuf.size := next_large large
          exact ih next zclient member

end Zclient

/-- Whatever comes from the other side, a call of zebra stays in bounds if and only if the message
fits into the buffer and is not malformed when it is served, and a call of a client does if and only
if the length in the header counts the header. -/
theorem api_reception_bounds (calls : Nat) (sock : Socket) (socks : List Socket) (rtmTable : Int) :
    (∀ client ∈ zebraCalls calls (zebraClientCreate sock rtmTable), client.Sound ↔ client.Fits) ∧
      ∀ zclient ∈ zclientCalls calls (zclientNew sock) socks, zclient.Sound ↔ zclient.Fits :=
  ⟨fun client member => sound_iff (ready_calls (ready_create sock rtmTable) client member),
    fun zclient member => Zclient.sound_iff
      (Zclient.large_calls (le_of_eq length_replicate.symm : zebraMaxPacketSiz ≤
        (zclientNew sock).ibuf.size) zclient member)⟩

/-- A route with a prefix of 64 bits. -/
def longPrefix : Socket :=
  { octets := [0, 15, 7, 2, 0, 0, 64] ++ List.replicate 8 1, broken := false }

/-- A message whose length is that of no header. -/
def shortHeader : Socket := { octets := [0, 0, 7], broken := false }

theorem api_reception_long :
    (∃ client ∈ zebraCalls 1 (zebraClientCreate longPrefix 0), ¬client.Sound) ∧
    ∃ zclient ∈ zclientCalls 1 (zclientNew shortHeader) [], ¬zclient.Sound := by
  refine ⟨⟨zebraClientCreate longPrefix 0, mem_cons_self, fun sound => ?_⟩,
    ⟨zclientNew shortHeader, mem_cons_self, fun sound => ?_⟩⟩
  · have header : (zebraClientCreate longPrefix 0).header = (15, 7) :=
      (header_read rfl rfl (by rw [zebraClientCreate, streamNew, length_replicate]; decide)
        (by decide)).trans (by decide +kernel)
    have accepted : (zebraClientCreate longPrefix 0).Accepted :=
      ⟨by rw [Gives]; decide +kernel, by rw [header]; decide⟩
    have served : (zebraClientCreate longPrefix 0).Served :=
      ⟨accepted, .inr (by rw [header, Gives]; decide +kernel)⟩
    refine (((sound_iff (ready_create longPrefix 0)).mp sound accepted).2 served) ?_
    rw [Zserv.Malformed, body, header]
    exact ⟨_, rfl, by rfl⟩
  · have header : (zclientNew shortHeader).header = (0, 7) :=
      (header_read rfl rfl (by rw [zclientNew, streamNew, Stream.reset, length_replicate]; decide)
        (by decide)).trans
        (by decide +kernel)
    have large : zebraMaxPacketSiz ≤ (zclientNew shortHeader).ibuf.size :=
      le_of_eq length_replicate.symm
    have fits := (Zclient.sound_iff large).mp sound (by decide +kernel)
    rw [header] at fits
    exact nomatch fits

end Zebra.Reception
