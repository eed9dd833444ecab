import Zebra.Zebrad.Api

namespace Zebra.Zebrad
open Base Decoder List ZapiRoute Nat

/-- A message that is framed, whose body the reader takes as a whole, with a result that is
as wanted. -/
def Comes {Value : Type} (octets : List Octet) (command : Octet) (decoder : Decoder Value)
    (wanted : Value → Prop) : Prop :=
  ∃ body value, unframe octets = some ((command, body), []) ∧ decoder body = some (value, []) ∧
    wanted value

theorem comes_framed {Value : Type} {command : Octet} {body : List Put} {decoder : Decoder Value}
    {wanted : Value → Prop} (fits : (body.flatMap Put.octets).length + 3 ≤ zebraMaxPacketSiz) :
    Comes (framed zebraMaxPacketSiz command body) command decoder wanted ↔
      ∃ value, decoder (body.flatMap Put.octets) = some (value, []) ∧ wanted value := by
  have read := (unframe_framed (by decide : zebraMaxPacketSiz < 65536) command fits).whole
  constructor
  · rintro ⟨other, value, unframed, taken, good⟩
    rw [read] at unframed
    obtain rfl : body.flatMap Put.octets = other := by simpa using unframed
    exact ⟨value, taken, good⟩
  · rintro ⟨value, taken, good⟩
    exact ⟨_, value, read, taken, good⟩

section Address
variable (known : BitVec 32 → Bool) (ifindex : BitVec 32) (ifc : Connected)

theorem prefixBlen_le (family : Family) : prefixBlen family.value ≤ 16 := by
  cases family <;> decide

theorem Connected.length_destinationPut :
    ifc.destinationPut.length = prefixBlen ifc.family.value := by
  rw [destinationPut]
  cases there : ifc.destination with
  | none => simp
  | some octets => exact ifc.destinationSize octets there

/-- The address as its reader should have it. -/
def Connected.asRead (prefixlen : Octet) : AddressRead :=
  ⟨ifindex, ifc.flags, ifc.family.value, ifc.address, prefixlen, ifc.destinationPut⟩

theorem interfaceAddressRead_unknown (unknown : known ifindex = false) (rest : List Octet) :
    interfaceAddressRead known (toOctets 4 ifindex.toNat ++ rest) = some (none, rest) := by
  rw [interfaceAddressRead, (reads_long ifindex).then, unknown]
  rfl

theorem interfaceAddressRead_known (listed : known ifindex = true) :
    Reads (interfaceAddressRead known)
    (toOctets 4 ifindex.toNat ++ ([ifc.flags] ++
      ([ifc.family.value] ++ (ifc.address ++ ([ifc.prefixlen] ++ ifc.destinationPut)))))
    (some (ifc.asRead ifindex ifc.prefixlen)) := by
  refine (reads_long ifindex).bind ?_
  rw [listed]
  refine (reads_octet _).bind
    ((reads_octet _).bind ((reads_take ifc.addressSize).bind ((reads_octet _).bind ?_)))
  exact (reads_take ifc.length_destinationPut).map _

/-- Behind the index a reader takes one octet more than a deletion has. -/
theorem interfaceAddressRead_delete (listed : known ifindex = true) (value : Option AddressRead) :
    interfaceAddressRead known
    (toOctets 4 ifindex.toNat ++
      ([ifc.flags] ++ ([ifc.family.value] ++ (ifc.address ++ ifc.destinationPut)))) ≠
      some (value, []) := by
  rw [interfaceAddressRead, (reads_long ifindex).then, listed, if_pos rfl, (reads_octet _).then,
    (reads_octet _).then]
  have takes := (takes_take (prefixBlen ifc.family.value)).bind fun address =>
    takes_octet.bind fun prefixlen =>
      (takes_take (prefixBlen ifc.family.value)).bind fun destination =>
      takes_pure
        (some (⟨ifindex, ifc.flags, ifc.family.value, address, prefixlen, destination⟩ :
        AddressRead))
  apply takes.ne_whole
  rw [length_append, ifc.addressSize, ifc.length_destinationPut]
  omega

theorem addressAdd_comes :
    Comes (zsendInterfaceAddressAdd ifindex ifc) 3 (zebraInterfaceAddressAddRead known)
    (· = some (ifc.asRead ifindex ifc.prefixlen)) ↔ known ifindex = true := by
  have size := ifc.addressSize
  have destinationSize := ifc.length_destinationPut
  have bound := prefixBlen_le ifc.family
  rw [zsendInterfaceAddressAdd, comes_framed]
  · simp only [flatMap_cons, flatMap_nil, Put.octets_whole, Put.octets_part, append_nil]
    constructor
    · rintro ⟨value, taken, rfl⟩
      apply Bool.of_not_eq_false
      intro unknown
      rw [zebraInterfaceAddressAddRead, interfaceAddressRead_unknown known ifindex unknown] at taken
      simp at taken
    · intro listed
      exact ⟨_, (interfaceAddressRead_known known ifindex ifc listed).whole, rfl⟩
  · simp [size, destinationSize, zebraMaxPacketSiz]
    omega

theorem addressDelete_comes :
    ¬ Comes (zsendInterfaceAddressDelete ifindex ifc) 4 (zebraInterfaceAddressDeleteRead known)
    (fun value => ∃ prefixlen, value = some (ifc.asRead ifindex prefixlen)) := by
  have size := ifc.addressSize
  have destinationSize := ifc.length_destinationPut
  have bound := prefixBlen_le ifc.family
  rw [zsendInterfaceAddressDelete, comes_framed]
  · simp only [flatMap_cons, flatMap_nil, Put.octets_whole, Put.octets_part, append_nil]
    rintro ⟨value, taken, prefixlen, rfl⟩
    rw [zebraInterfaceAddressDeleteRead] at taken
    cases listed : known ifindex with
    | false =>
      rw [interfaceAddressRead_unknown known ifindex listed] at taken
      simp at taken
    | true => exact interfaceAddressRead_delete known ifindex ifc listed _ taken
  · simp [size, destinationSize, zebraMaxPacketSiz]
    omega

end Address

section Route
variable {count : Nat}

@[simp] theorem octets_gatePut (gate : BitVec (8 * count)) :
    (gatePut gate).octets = toOctets count gate.toNat := by
  rw [gatePut]
  split <;> rfl

theorem RoutePrefix.length_octets (p : RoutePrefix count) :
    p.octets.length = psize p.prefixlen := by
  have bound : psize p.prefixlen ≤ count := by
    rw [psize]
    omega
  rw [octets, length_take, length_toOctets, min_eq_left bound]

theorem RoutePrefix.reads_read (narrow : 8 * count < 256) (p : RoutePrefix count) :
    Reads read ([BitVec.ofNat 8 p.prefixlen] ++ p.octets) p.sent := by
  have same : (BitVec.ofNat 8 p.prefixlen).toNat = p.prefixlen := by
    rw [BitVec.toNat_ofNat, mod_eq_of_lt (by omega)]
  refine (reads_octet _).bind ?_
  rw [dif_pos (by rw [same]; exact p.prefixlen.isLt)]
  have taken := (reads_take (p.length_octets.trans (congrArg psize same.symm))).map fun octets =>
    (⟨leading count octets, (BitVec.ofNat 8 p.prefixlen).toNat, by
      rw [same]; exact p.prefixlen.isLt⟩ : RoutePrefix count)
  have value :
      (⟨leading count p.octets, (BitVec.ofNat 8 p.prefixlen).toNat, by
      rw [same]; exact p.prefixlen.isLt⟩ :
      RoutePrefix count) = p.sent := by
    congr
  rwa [value] at taken

theorem reads_counted {Value : Type} {decoder : Decoder Value} {octets : List Octet} {value : Value}
    (reads : Reads decoder octets value) (num : Octet) :
    Reads (counted decoder) ([num] ++ octets) (some (num, value)) :=
  (reads_octet num).bind (reads.map _)

section
variable {Value : Type} {decoder : Decoder Value} {size : Nat} (takes : Takes decoder size)
include takes

theorem takes_counted : Takes (counted decoder) (1 + (size + 0)) :=
  takes_octet.bind fun _ => takes.bind fun _ => takes_pure _

theorem takes_given : Takes (given decoder) (size + 0) :=
  takes.bind fun _ => takes_pure _

end

/-- The octets of a metric. -/
def metricOctets (metric : Option (BitVec 32)) : List Octet :=
  metric.elim [] fun metric => toOctets 4 metric.toNat

/-- The messages of zebra: nexthop and interface index are announced, a distance is not. -/
structure Announces (message : Octet) (metric : Option (BitVec 32)) : Prop where
  nexthop : has message .nexthop = true
  ifindex : has message .ifindex = true
  distance : has message .distance = false
  metric : has message .metric = metric.isSome

variable (type flags : Octet) {message : Octet} {metric : Option (BitVec 32)}
  (announces : Announces message metric) (narrow : 8 * count < 256) (p : RoutePrefix count)

/-- What a client should have read. -/
def expectedRoute (message : Octet) (hop : Option (BitVec (8 * count) × BitVec 32))
    (metric : Option (BitVec 32)) :
    ClientRoute count :=
  ⟨type, flags, message, p.sent, hop.map fun hop => (1, hop.1), hop.map fun hop => (1, hop.2),
    none, metric⟩

include announces narrow

theorem zebraRead_hop (hop : BitVec (8 * count) × BitVec 32) : Reads (zebraRead count)
    ([type] ++ ([flags] ++ ([message] ++ (([BitVec.ofNat 8 p.prefixlen] ++ p.octets) ++
      (([1] ++ toOctets count hop.1.toNat) ++
        (([1] ++ toOctets 4 hop.2.toNat) ++ metricOctets metric))))))
    (expectedRoute type flags p message (some hop) metric) := by
  refine (reads_octet _).bind
    ((reads_octet _).bind ((reads_octet _).bind ((p.reads_read narrow).bind ?_)))
  rw [announces.nexthop, announces.ifindex, announces.distance, announces.metric]
  refine (reads_counted (reads_number hop.1) 1).bind ((reads_counted (reads_long hop.2) 1).bind ?_)
  cases metric with
  | none => exact reads_pure _
  | some metric =>
    have last := (reads_long metric).map some
    exact last.map _

/-- Without a nexthop the reader runs over the end. -/
theorem zebraRead_hopless (value : ClientRoute count) : zebraRead count
    ([type] ++ ([flags] ++
      ([message] ++ (([BitVec.ofNat 8 p.prefixlen] ++ p.octets) ++ metricOctets metric)))) ≠
      some (value, []) := by
  rw [zebraRead, (reads_octet _).then, (reads_octet _).then, (reads_octet _).then,
    (p.reads_read narrow).then, announces.nexthop, announces.ifindex, announces.distance,
    announces.metric]
  refine @Takes.ne_whole _ _ ?size ?takes _ ?apart value
  case takes =>
    exact (takes_counted (takes_number count)).bind fun _ =>
        (takes_counted takes_long).bind fun _ =>
      (takes_pure none).bind fun _ => (takes_optional (takes_given takes_long)).bind fun _ =>
        takes_pure _
  case apart =>
    cases metric with
    | none => simp [metricOctets]
    | some metric => simp [metricOctets]

theorem multipath_comes {command} {hop : Option (BitVec (8 * count) × BitVec 32)} :
    Comes (zsendMultipath command type flags message p hop metric) command (zebraRead count)
      (· = expectedRoute type flags p message hop metric) ↔ hop.isSome = true := by
  have size : p.octets.length ≤ count := by
    rw [p.length_octets, psize]
    omega
  rw [zsendMultipath, comes_framed]
  · cases hop with
    | none =>
      have hopless := zebraRead_hopless type flags announces narrow p
      constructor
      · rintro ⟨value, taken, -⟩
        refine absurd taken ?_
        convert hopless value using 2
        cases metric <;> simp [RoutePrefix.puts, metricOctets]
      · exact nofun
    | some hop =>
      have reads := (zebraRead_hop type flags announces narrow p hop).whole
      convert reads using 2
      cases metric <;> simp [RoutePrefix.puts, metricOctets]
  · cases hop <;> cases metric <;> simp [RoutePrefix.puts, zebraMaxPacketSiz] <;> omega

end Route

section Zapi
variable {count : Nat}

def LastHop.octets (nexthopType : Octet) : LastHop count → List Octet
  | .nexthop gate => nexthopType :: toOctets count gate.toNat
  | .ifindex index => 1 :: toOctets 4 index.toNat
  | .other => [9]

namespace ZapiRoute
variable (api : ZapiRoute count) (blackhole : Bool)

/-- What is put behind the number of nexthops. -/
def hops : List (LastHop count) :=
  (if blackhole then [.other] else []) ++ (api.nexthop.map .nexthop ++ api.ifindex.map .ifindex)

def num : Octet :=
  if blackhole then 1 else BitVec.ofNat 8 (api.nexthop.length + api.ifindex.length)

/-- The number of nexthops is the number that is put. -/
def Counted : Prop :=
  if blackhole then api.nexthop = [] ∧ api.ifindex = []
    else api.nexthop.length + api.ifindex.length < 256

theorem num_le : (api.num blackhole).toNat ≤ (api.hops blackhole).length := by
  cases blackhole with
  | false =>
    have low := mod_le (api.nexthop.length + api.ifindex.length) 256
    simpa [num, hops] using low
  | true => simp [num, hops]

theorem num_eq_iff : (api.num blackhole).toNat = (api.hops blackhole).length ↔
    api.Counted blackhole := by
  cases blackhole with
  | false =>
    simp only [num, hops, Counted, Bool.false_eq_true, if_false, nil_append,
      length_append, length_map, BitVec.toNat_ofNat]
    omega
  | true =>
    simp [num, hops, Counted, length_eq_zero_iff]

/-- The octets of a route behind its prefix. -/
def tailOctets (nexthopType : Octet) : List Octet :=
  (if has api.message .nexthop then
    [api.num blackhole] ++ (api.hops blackhole).flatMap (LastHop.octets nexthopType)
    else []) ++ ((if has api.message .distance then [api.distance] else []) ++
      (if has api.message .metric then toOctets 4 api.metric.toNat else []))

end ZapiRoute

theorem octets_hopPuts (api : ZapiRoute count) (nexthopType : Octet) (blackhole : Bool) :
    (api.hopPuts nexthopType blackhole).flatMap Put.octets =
      [api.num blackhole] ++ (api.hops blackhole).flatMap (LastHop.octets nexthopType) := by
  have nexthops :
      (api.nexthop.flatMap fun gate => [.whole [nexthopType], gatePut gate]).flatMap Put.octets =
      (api.nexthop.map LastHop.nexthop).flatMap (LastHop.octets nexthopType) := by
    simp [flatMap_assoc, flatMap_map, LastHop.octets]
  have ifindexes : (api.ifindex.flatMap fun ifindex =>
      [Put.whole [1], .whole (toOctets 4 ifindex.toNat)]).flatMap Put.octets =
      (api.ifindex.map (@LastHop.ifindex count)).flatMap (LastHop.octets nexthopType) := by
    simp [flatMap_assoc, flatMap_map, LastHop.octets]
  have num : (if blackhole then [.whole [1], .whole [9]]
        else [.whole [BitVec.ofNat 8 (api.nexthop.length + api.ifindex.length)]]).flatMap
          Put.octets =
      [api.num blackhole] ++ (if blackhole then [@LastHop.other count] else []).flatMap
        (LastHop.octets nexthopType) := by
    cases blackhole <;> rfl
  rw [hopPuts, flatMap_append, flatMap_append, num, nexthops, ifindexes, hops,
    flatMap_append, flatMap_append, append_assoc, append_assoc]

/-- The octets of a whole route. -/
def ZapiRoute.octets (api : ZapiRoute count) (p : RoutePrefix count) (blackhole : Bool)
    (nexthopType : Octet) : List Octet :=
  [api.type] ++ ([api.flags] ++ ([api.message] ++
    (([BitVec.ofNat 8 p.prefixlen] ++ p.octets) ++ api.tailOctets blackhole nexthopType)))

theorem zapiRoute_octets (command nexthopType : Octet) (blackhole : Bool) (p : RoutePrefix count)
    (api : ZapiRoute count) :
    ∃ puts, zapiRoute command nexthopType blackhole p api = framed zebraMaxPacketSiz command puts ∧
      puts.flatMap Put.octets = api.octets p blackhole nexthopType := by
  refine ⟨_, rfl, ?_⟩
  rw [octets, tailOctets, ← octets_hopPuts]
  simp only [flatMap_append, RoutePrefix.puts, flatMap_cons, flatMap_nil, Put.octets_whole,
    Put.octets_part, append_assoc, append_nil]
  cases has api.message .nexthop <;> cases has api.message .distance <;>
    cases has api.message .metric <;> simp

variable {Hop : Type} {readHop : Decoder Hop} {nexthopType : Octet} {view : LastHop count → Hop}
  {api : ZapiRoute count} {blackhole : Bool} (narrow : 8 * count < 256)
  (reads : ∀ hop ∈ api.hops blackhole, Reads readHop (hop.octets nexthopType) (view hop))
  (p : RoutePrefix count)

/-- The nexthops that are put, where the message announces them. -/
def ZapiRoute.announced (api : ZapiRoute count) (blackhole : Bool) : List (LastHop count) :=
  if has api.message .nexthop then api.hops blackhole else []

include reads in
theorem readHops_octets (tail : List Octet) : ∃ hops : { hops : List Hop // hops.length < 256 },
    hops.1 = ((api.hops blackhole).take (api.num blackhole).toNat).map view ∧
      readHops readHop
      ([api.num blackhole] ++ ((api.hops blackhole).flatMap (LastHop.octets nexthopType) ++ tail)) =
        some (hops, ((api.hops blackhole).drop (api.num blackhole).toNat).flatMap
          (LastHop.octets nexthopType) ++ tail) := by
  obtain ⟨taken, same, later⟩ := repeated_flatMap reads (api.num_le blackhole) tail
  refine ⟨⟨taken.1, taken.2.trans_lt (api.num blackhole).isLt⟩, same, ?_⟩
  rw [readHops, (reads_octet _).then, bind_apply, later]
  rfl

/-- The fields of a route as zebra should have read them. -/
structure Carries (value : ZapiRead count Hop) (api : ZapiRoute count) (p : RoutePrefix count)
    (hops : List Hop) : Prop where
  type : value.type = api.type
  flags : value.flags = api.flags
  p : value.p = p.sent
  hops : value.hops.1 = hops
  distance : value.distance = if has api.message .distance then api.distance else 0
  metric : value.metric = if has api.message .metric then api.metric else 0

include narrow reads in
theorem zread_counted (counted : has api.message .nexthop = true → api.Counted blackhole) :
    ∃ value : ZapiRead count Hop, Carries value api p ((api.announced blackhole).map view) ∧
      zread readHop (api.octets p blackhole nexthopType) = some (value, []) := by
  have ending : ∃ hops : { hops : List Hop // hops.length < 256 },
      hops.1 = (api.announced blackhole).map view ∧
      Reads (Decoder.optional (has api.message .nexthop) (readHops readHop) ⟨[], zero_lt_succ 255⟩)
        (if has api.message .nexthop then
          [api.num blackhole] ++ (api.hops blackhole).flatMap (LastHop.octets nexthopType)
          else []) hops := by
    rw [announced]
    cases present : has api.message .nexthop with
    | false => exact ⟨⟨[], zero_lt_succ 255⟩, rfl, reads_pure _⟩
    | true =>
      have all := (api.num_eq_iff blackhole).mpr (counted present)
      obtain ⟨hops, same, -⟩ := readHops_octets reads []
      rw [all, take_length] at same
      refine ⟨hops, same, fun rest => ?_⟩
      obtain ⟨others, again, taken⟩ := readHops_octets reads rest
      rw [all, take_length] at again
      obtain rfl : others = hops := Subtype.ext (again.trans same.symm)
      rw [all, drop_length] at taken
      exact taken
  obtain ⟨hops, same, ending⟩ := ending
  refine ⟨⟨api.type, api.flags, p.sent, hops, _, _⟩, ⟨rfl, rfl, rfl, same, rfl, rfl⟩, ?_⟩
  apply Reads.whole
  refine (reads_octet _).bind
    ((reads_octet _).bind ((reads_octet _).bind ((p.reads_read narrow).bind (ending.bind ?_))))
  refine (reads_optional (reads_octet _)).bind ?_
  exact (reads_optional (reads_long _)).map _

include narrow reads in
theorem zread_miscounted (present : has api.message .nexthop = true)
    (miscounted : ¬ api.Counted blackhole)
    (value : ZapiRead count Hop) :
    zread readHop (api.octets p blackhole nexthopType) ≠ some (value, []) := by
  intro taken
  rw [octets, zread, (reads_octet _).then, (reads_octet _).then, (reads_octet _).then,
    (p.reads_read narrow).then, tailOctets, present, if_pos rfl, append_assoc] at taken
  obtain ⟨hops, -, first⟩ :=
      readHops_octets reads ((if has api.message .distance then [api.distance] else []) ++
      (if has api.message .metric then toOctets 4 api.metric.toNat else []))
  rw [optional_true, bind_apply, first] at taken
  have rest :=
      ((takes_optional takes_octet).bind fun distance =>
      (takes_optional takes_long).bind fun metric =>
    takes_pure (⟨api.type, api.flags, p.sent, hops, distance, metric⟩ : ZapiRead count Hop))
      _ _ _ taken
  have left : (api.hops blackhole).drop (api.num blackhole).toNat ≠ [] := by
    intro none
    have all := (api.num_le blackhole).antisymm (drop_eq_nil_iff.mp none)
    exact miscounted ((api.num_eq_iff blackhole).mp all)
  obtain ⟨hop, others, split⟩ := exists_cons_of_ne_nil left
  have some_octets : 0 < (hop.octets nexthopType).length := by cases hop <;> simp [LastHop.octets]
  have distance : (if has api.message .distance then [api.distance] else []).length =
      if has api.message .distance then 1 else 0 := by
    split <;> rfl
  have metric : (if has api.message .metric then toOctets 4 api.metric.toNat else []).length =
      if has api.message .metric then 4 else 0 := by
    split
    · exact length_toOctets 4 _
    · rfl
  rw [split, flatMap_cons, length_append, length_append, length_append, distance, metric,
    length_nil] at rest
  omega

theorem length_hops_octets (api : ZapiRoute count) (blackhole : Bool) (nexthopType : Octet) :
    ((api.hops blackhole).flatMap (LastHop.octets nexthopType)).length ≤
      1 + (1 + count) * api.nexthop.length + 5 * api.ifindex.length := by
  have nexthops : ((api.nexthop.map LastHop.nexthop).flatMap (LastHop.octets nexthopType)).length =
      (1 + count) * api.nexthop.length := by
    simp [flatMap_map, LastHop.octets, map_const', mul_comm, add_comm]
  have ifindexes :
      ((api.ifindex.map (@LastHop.ifindex count)).flatMap (LastHop.octets nexthopType)).length =
      5 * api.ifindex.length := by
    simp [flatMap_map, LastHop.octets, map_const', mul_comm]
  have mark :
      ((if blackhole then [@LastHop.other count] else []).flatMap
      (LastHop.octets nexthopType)).length ≤ 1 := by
    cases blackhole <;> simp [LastHop.octets]
  rw [hops, flatMap_append, flatMap_append, length_append, length_append]
  omega

/-- The nexthops leave room for the other fields. -/
def ZapiRoute.Fits (api : ZapiRoute count) : Prop :=
  has api.message .nexthop = true → (1 + count) * api.nexthop.length + 5 * api.ifindex.length ≤ 4000

theorem length_tailOctets_le (fits : api.Fits) :
    (api.tailOctets blackhole nexthopType).length ≤ 4007 := by
  have announced : (if has api.message .nexthop then
      [api.num blackhole] ++ (api.hops blackhole).flatMap (LastHop.octets nexthopType)
        else []).length ≤ 4002 := by
    split
    · rename_i present
      have hops := length_hops_octets api blackhole nexthopType
      have room := fits present
      rw [length_append, length_singleton]
      omega
    · exact zero_le _
  have distance : (if has api.message .distance then [api.distance] else []).length ≤ 1 := by
    split <;> simp
  have metric :
      (if has api.message .metric then toOctets 4 api.metric.toNat else []).length ≤ 4 := by
    split <;> simp
  rw [tailOctets, length_append, length_append]
  omega

theorem zapi_comes {Value : Type} {command : Octet} {decoder : Decoder Value}
    {wanted : Value → Prop} (fits : api.Fits) (narrow : 8 * count < 256) :
    Comes (zapiRoute command nexthopType blackhole p api) command decoder wanted ↔
      ∃ value, decoder (api.octets p blackhole nexthopType) = some (value, []) ∧ wanted value := by
  obtain ⟨puts, framed, octets⟩ := zapiRoute_octets command nexthopType blackhole p api
  rw [framed, comes_framed, octets]
  have tail : (api.tailOctets blackhole nexthopType).length ≤ 4007 := length_tailOctets_le fits
  have size : p.octets.length ≤ count := by
    rw [p.length_octets, psize]
    omega
  rw [octets, ZapiRoute.octets]
  simp only [length_append, length_singleton, zebraMaxPacketSiz]
  omega

/-- At most one value, zero where there is none. -/
def Lone {width : Nat} (values : List (BitVec width)) (value : BitVec width) : Prop :=
  values = [] ∧ value = 0 ∨ values = [value]

theorem Lone.few {width} {values : List (BitVec width)} {value} (lone : Lone values value) :
    values.length ≤ 1 := by
  rcases lone with ⟨rfl, -⟩ | rfl
  · exact zero_le 1
  · exact le_refl 1

theorem lone_head {width} {values : List (BitVec width)} (few : values.length ≤ 1) :
    Lone values (values.headD 0) := by
  match values, few with
  | [], _ => exact .inl ⟨rfl, rfl⟩
  | [value], _ => exact .inr rfl

/-- The fields of a route as a reader of one nexthop should have them. -/
structure LastCarries (value : LastRead count) (api : ZapiRoute count) (p : RoutePrefix count) :
    Prop where
  type : value.type = api.type
  flags : value.flags = api.flags
  p : value.p = p.sent
  nexthop : Lone (if has api.message .nexthop then api.nexthop else []) value.nexthop
  ifindex : Lone (if has api.message .nexthop then api.ifindex else []) value.ifindex
  distance : value.distance = if has api.message .distance then api.distance else 0
  metric : value.metric = if has api.message .metric then api.metric else 0

theorem foldl_take (blackhole : Bool) (nexthops : api.nexthop.length ≤ 1)
    (ifindexes : api.ifindex.length ≤ 1) :
    (api.hops blackhole).foldl LastHop.take (0, 0) =
      (api.nexthop.headD 0, api.ifindex.headD 0) := by
  have mark : (if blackhole then [@LastHop.other count] else []).foldl LastHop.take (0, 0) =
      (0, 0) := by
    cases blackhole <;> rfl
  rw [hops, foldl_append, mark]
  match api.nexthop, nexthops, api.ifindex, ifindexes with
  | [], _, [], _ => rfl
  | [], _, [_], _ => rfl
  | [_], _, [], _ => rfl
  | [_], _, [_], _ => rfl

theorem last_comes {readHop} {command : Octet} (narrow : 8 * count < 256)
    (reads : ∀ hop ∈ api.hops blackhole, Reads readHop (hop.octets nexthopType) hop) :
    Comes (zapiRoute command nexthopType blackhole p api) command (zreadLast readHop)
    (LastCarries · api p) ↔
      (has api.message .nexthop = true →
        api.Counted blackhole ∧ api.nexthop.length ≤ 1 ∧ api.ifindex.length ≤ 1) := by
  have small (few : has api.message .nexthop = true →
      api.nexthop.length ≤ 1 ∧ api.ifindex.length ≤ 1) : api.Fits := by
    intro present
    have product : (1 + count) * api.nexthop.length ≤ (1 + count) * 1 :=
      mul_le_mul_left _ (few present).1
    have other := (few present).2
    omega
  constructor
  · intro comes present
    have few : api.nexthop.length ≤ 1 ∧ api.ifindex.length ≤ 1 := by
      obtain ⟨-, value, -, -, carries⟩ := comes
      have nexthop := carries.nexthop.few
      have ifindex := carries.ifindex.few
      rw [present] at nexthop ifindex
      exact ⟨nexthop, ifindex⟩
    refine ⟨Classical.byContradiction fun miscounted => ?_, few⟩
    obtain ⟨value, taken, -⟩ := (zapi_comes p (small fun _ => few) narrow).mp comes
    obtain ⟨⟨read, rest⟩, first, last⟩ := Option.bind_eq_some_iff.mp taken
    cases Option.some.inj last
    have view (hop : LastHop count) (member : hop ∈ api.hops blackhole) :
        Reads readHop (hop.octets nexthopType) (id hop) :=
      reads hop member
    exact zread_miscounted narrow view p present miscounted read first
  · intro condition
    refine (zapi_comes p (small fun present => (condition present).2) narrow).mpr ?_
    have view (hop : LastHop count) (member : hop ∈ api.hops blackhole) :
        Reads readHop (hop.octets nexthopType) (id hop) :=
      reads hop member
    obtain ⟨read, carries, taken⟩ :=
      zread_counted narrow view p fun present => (condition present).1
    refine ⟨_, by rw [zreadLast, bind_apply, taken]; rfl, carries.type, carries.flags, carries.p,
      ?_, ?_, carries.distance,
      carries.metric⟩
    · rw [carries.hops, map_id, announced]
      split
      · rename_i present
        obtain ⟨-, nexthops, ifindexes⟩ := condition present
        rw [foldl_take blackhole nexthops ifindexes]
        exact lone_head nexthops
      · exact .inl ⟨rfl, rfl⟩
    · rw [carries.hops, map_id, announced]
      split
      · rename_i present
        obtain ⟨-, nexthops, ifindexes⟩ := condition present
        rw [foldl_take blackhole nexthops ifindexes]
        exact lone_head ifindexes
      · exact .inl ⟨rfl, rfl⟩

end Zapi

def LastHop.message : LastHop 4 → MessageNexthop
  | .nexthop gate => .ipv4 gate
  | .ifindex index => .ifindex index
  | .other => .blackhole

theorem reads_readMessageNexthop (hop : LastHop 4) :
    Reads readMessageNexthop (hop.octets 3) hop.message := by
  cases hop with
  | nexthop gate => exact (reads_octet 3).bind ((reads_long gate).map _)
  | ifindex index => exact (reads_octet 1).bind ((reads_long index).map _)
  | other => exact (reads_octet 9).bind (reads_pure _)

theorem reads_readLastHop4 (hop : LastHop 4) : Reads readLastHop4 (hop.octets 3) hop := by
  have read := (reads_readMessageNexthop hop).map MessageNexthop.last
  cases hop <;> exact read

theorem reads_readLastHop6 (hop : LastHop 16) : Reads readLastHop6 (hop.octets 6) hop := by
  cases hop with
  | nexthop gate => exact (reads_octet 6).bind ((reads_number gate).map _)
  | ifindex index => exact (reads_octet 1).bind ((reads_long index).map _)
  | other => exact (reads_octet 9).bind (reads_pure _)

/-- The nexthops of a route as `zread_ipv4_add` should have them. -/
def ZapiRoute.nexthops (api : ZapiRoute 4) : List MessageNexthop :=
  if has api.message .nexthop then
    (if api.blackhole then [.blackhole] else []) ++
      (api.nexthop.map .ipv4 ++ api.ifindex.map .ifindex)
  else []

/-- A route as `zread_ipv4_add` should have it. -/
structure MessageCarries (message : RouteMessage) (api : ZapiRoute 4) (p : PrefixIpv4) : Prop where
  type : message.type = api.type
  flags : message.flags = api.flags
  p : message.p = p.route.sent.ipv4
  nexthops : message.nexthops = api.nexthops
  distance : message.distance = if has api.message .distance then api.distance else 0
  metric : message.metric = if has api.message .metric then api.metric else 0

theorem ZapiRoute.nexthops_eq (api : ZapiRoute 4) :
    (api.announced api.blackhole).map LastHop.message = api.nexthops := by
  rw [announced, nexthops]
  split
  · rw [hops, map_append, map_append, map_map, map_map]
    split <;> rfl
  · rfl

theorem add_comes (p : PrefixIpv4) (api : ZapiRoute 4) :
    Comes (zapiIpv4Add p api) 7 zreadIpv4AddMessage (MessageCarries · api p) ↔
      (has api.message .nexthop = true → api.Counted api.blackhole) := by
  have fits : api.Fits := by
    intro present
    have nexthops := api.fewNexthops
    have ifindexes := api.fewIfindexes
    omega
  have reads (hop : LastHop 4) (_ : hop ∈ api.hops api.blackhole) := reads_readMessageNexthop hop
  rw [zapiIpv4Add, zapi_comes p.route fits (by decide)]
  constructor
  · rintro ⟨value, taken, -⟩ present
    refine Classical.byContradiction fun miscounted => ?_
    obtain ⟨⟨read, rest⟩, first, last⟩ := Option.bind_eq_some_iff.mp taken
    cases Option.some.inj last
    exact zread_miscounted (by decide) reads p.route present miscounted read first
  · intro counted
    obtain ⟨read, carries, taken⟩ := zread_counted (by decide) reads p.route counted
    refine ⟨_, by rw [zreadIpv4AddMessage, bind_apply, taken]; rfl, carries.type, carries.flags,
      congrArg RoutePrefix.ipv4 carries.p, ?_,
      carries.distance, carries.metric⟩
    exact carries.hops.trans api.nexthops_eq

inductive ApiMessage where
  | addressAdd (ifindex : BitVec 32) (ifc : Connected)
  | addressDelete (ifindex : BitVec 32) (ifc : Connected)
  | ipv4Add (p : PrefixIpv4) (rib : Rib)
  | ipv4Delete (p : PrefixIpv4) (rib : Rib)
  | ipv6Add (p : PrefixIpv6) (rib : Rib6)
  | ipv6Delete (p : PrefixIpv6) (rib : Rib6)
  | zapiIpv4Add (p : PrefixIpv4) (api : ZapiRoute 4)
  | zapiIpv4Delete (p : PrefixIpv4) (api : ZapiRoute 4)
  | zapiIpv6Add (p : PrefixIpv6) (api : ZapiRoute 16)
  | zapiIpv6Delete (p : PrefixIpv6) (api : ZapiRoute 16)

/-- The other side takes the whole message, and has every field that was put. -/
def ApiMessage.RoundTrips (known : BitVec 32 → Bool) : ApiMessage → Prop
  | .addressAdd ifindex ifc => Comes (zsendInterfaceAddressAdd ifindex ifc) 3
      (zebraInterfaceAddressAddRead known) (· = some (ifc.asRead ifindex ifc.prefixlen))
  | .addressDelete ifindex ifc => Comes (zsendInterfaceAddressDelete ifindex ifc) 4
      (zebraInterfaceAddressDeleteRead known)
      (fun value => ∃ prefixlen, value = some (ifc.asRead ifindex prefixlen))
  | .ipv4Add p rib => Comes (zsendIpv4AddMultipath p rib) 7 zebraReadIpv4
      (· = expectedRoute rib.type rib.flags p.route 0x0b (fibHop rib addGate) (some rib.metric))
  | .ipv4Delete p rib => Comes (zsendIpv4DeleteMultipath p rib) 8 zebraReadIpv4
      (· = expectedRoute rib.type rib.flags p.route 0x03 (fibHop rib deleteGate) none)
  | .ipv6Add p rib => Comes (zsendIpv6AddMultipath p rib) 9 zebraReadIpv6
      (· = expectedRoute rib.type rib.flags p 0x0b (fibHop6 rib) (some rib.metric))
  | .ipv6Delete p rib => Comes (zsendIpv6DeleteMultipath p rib) 10 zebraReadIpv6
      (· = expectedRoute rib.type rib.flags p 0x03 (fibHop6 rib) none)
  | .zapiIpv4Add p api => Comes (Zebrad.zapiIpv4Add p api) 7 zreadIpv4AddMessage
    (MessageCarries · api p)
  | .zapiIpv4Delete p api => Comes (Zebrad.zapiIpv4Delete p api) 8 zreadIpv4Delete
    (LastCarries · api p.route)
  | .zapiIpv6Add p api => Comes (Zebrad.zapiIpv6Add p api) 9 zreadIpv6Add (LastCarries · api p)
  | .zapiIpv6Delete p api => Comes (Zebrad.zapiIpv6Delete p api) 10 zreadIpv6Delete
    (LastCarries · api p)

/-- A route of at most one nexthop of a kind, which are counted right. -/
def ZapiRoute.Single {count : Nat} (api : ZapiRoute count) (blackhole : Bool) : Prop :=
  has api.message .nexthop = true → api.Counted blackhole ∧ api.nexthop.length ≤ 1 ∧
    api.ifindex.length ≤ 1

/-- The messages that are read as they were written. -/
def ApiMessage.Faithful (known : BitVec 32 → Bool) : ApiMessage → Prop
  | .addressAdd ifindex _ => known ifindex = true
  | .addressDelete .. => False
  | .ipv4Add _ rib | .ipv4Delete _ rib => ∃ nexthop ∈ rib.nexthop, nexthop.fib = true
  | .ipv6Add _ rib | .ipv6Delete _ rib => ∃ nexthop ∈ rib.nexthop, nexthop.fib = true
  | .zapiIpv4Add _ api => has api.message .nexthop = true → api.Counted api.blackhole
  | .zapiIpv4Delete _ api => api.Single api.blackhole
  | .zapiIpv6Add _ api | .zapiIpv6Delete _ api => api.Single false

theorem fibHop_isSome (rib : Rib) (gate : Nexthop → InAddr) :
    (fibHop rib gate).isSome = true ↔ ∃ nexthop ∈ rib.nexthop, nexthop.fib = true := by
  rw [fibHop, Option.isSome_map, find?_isSome]

theorem fibHop6_isSome (rib : Rib6) : (fibHop6 rib).isSome = true ↔
    ∃ nexthop ∈ rib.nexthop, nexthop.fib = true := by
  rw [fibHop6, Option.isSome_map, find?_isSome]

theorem announces_add (metric : BitVec 32) : Announces 0x0b (some metric) := by
  constructor <;> rfl

theorem announces_delete : Announces 0x03 none := by
  constructor <;> rfl

/-- Which messages are read as they were written. -/
theorem ApiMessage.roundTrips_iff (known : BitVec 32 → Bool) (message : ApiMessage) :
    message.RoundTrips known ↔ message.Faithful known := by
  cases message with
  | addressAdd ifindex ifc => exact addressAdd_comes known ifindex ifc
  | addressDelete ifindex ifc => exact iff_false_intro (addressDelete_comes known ifindex ifc)
  | ipv4Add p rib =>
    exact (multipath_comes _ _ (announces_add rib.metric) (by decide) p.route).trans
      (fibHop_isSome rib addGate)
  | ipv4Delete p rib =>
    exact (multipath_comes _ _ announces_delete (by decide) p.route).trans
      (fibHop_isSome rib deleteGate)
  | ipv6Add p rib =>
    exact (multipath_comes _ _ (announces_add rib.metric) (by decide) p).trans (fibHop6_isSome rib)
  | ipv6Delete p rib =>
    exact (multipath_comes _ _ announces_delete (by decide) p).trans (fibHop6_isSome rib)
  | zapiIpv4Add p api => exact add_comes p api
  | zapiIpv4Delete p api => exact last_comes p.route (by decide) fun hop _ => reads_readLastHop4 hop
  | zapiIpv6Add p api => exact last_comes p (by decide) fun hop _ => reads_readLastHop6 hop
  | zapiIpv6Delete p api => exact last_comes p (by decide) fun hop _ => reads_readLastHop6 hop

/-- The address 10.0.0.1/8 of the interface 1. -/
def someAddress : Connected where
  flags := 0
  family := .inet
  address := [10, 0, 0, 1]
  prefixlen := 8
  destination := none
  addressSize := by decide
  destinationSize := by simp

theorem ApiMessage.not_roundTrips :
    ¬ ∀ (known : BitVec 32 → Bool) (message : ApiMessage), message.RoundTrips known := by
  intro all
  have taken := all (fun _ => true) (.addressDelete 1 someAddress)
  exact addressDelete_comes _ _ _ taken

end Zebra.Zebrad
