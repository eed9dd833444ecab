import Zebra.Bgpd.MplsVpn
import Zebra.Lib.Stream

/-! Route distinguishers printed and read back, and what a text tells. -/
namespace Zebra.Bgpd.MplsVpn
open Base Lib BitVec Nat

theorem ofOctets_lt (octets : List Octet) : ofOctets octets < 256 ^ octets.length := by
  induction octets with
  | nil => exact one_pos
  | cons head rest ih =>
    calc ofOctets (head :: rest) = head.toNat * 256 ^ rest.length + ofOctets rest :=
      ofOctets_cons head rest
      _ < head.toNat * 256 ^ rest.length + 256 ^ rest.length := Nat.add_lt_add_left ih _
      _ = (head.toNat + 1) * 256 ^ rest.length := by rw [Nat.succ_mul]
      _ ≤ 256 ^ (rest.length + 1) := by
        rw [mul_comm]
        exact mul_le_mul_left _ (by omega)

theorem toOctets_ofOctets (octets : List Octet) :
    toOctets octets.length (ofOctets octets) = octets := by
  induction octets with
  | nil => rfl
  | cons head rest ih =>
    have low := ofOctets_lt rest
    have high : ofOctets (head :: rest) / 256 ^ rest.length = head.toNat := by
      rw [ofOctets_cons, mul_comm, mul_add_div (by positivity), div_eq_of_lt low, add_zero]
    have same : toOctets rest.length (ofOctets (head :: rest)) =
        toOctets rest.length (ofOctets rest) := by
      rw [← toOctets_mod, ofOctets_cons, mul_comm, mul_add_mod, mod_eq_of_lt low]
    rw [List.length_cons, toOctets, high, same, ih, ofNat_toNat, setWidth_eq]

theorem toOctets_field (data : List Octet) (pos count : Nat) :
    toOctets count (field data pos count).toNat = slice data pos count := by
  have bound := ofOctets_lt (slice data pos count)
  have whole := toOctets_ofOctets (slice data pos count)
  rw [length_slice] at bound whole
  rw [field, toNat_ofNat, Nat.pow_mul, Nat.mod_eq_of_lt bound, whole]

theorem field_written {front back count} (value : BitVec (8 * count)) :
    field (front ++ toOctets count value.toNat ++ back) front.length count = value := by
  have written := slice_middle front (toOctets count value.toNat) back
  rw [length_toOctets] at written
  rw [field, written, ofOctets_toOctets_toNat, ofNat_toNat, setWidth_eq]

theorem rdOctets_toList {data} (eight : data.length = 8) : (rdOctets data).toList = data := by
  refine List.ext_getElem (by simp [eight]) fun index short inside => ?_
  simp [rdOctets, List.getD_eq_getElem?_getD, inside]

theorem slice_add (data : List Octet) (pos first second : Nat) :
    slice data pos first ++ slice data (pos + first) second = slice data pos (first + second) := by
  simp only [slice, List.range_add, List.map_append, List.map_map]
  exact congrArg _ (List.map_congr_left fun index _ => by rw [Function.comp_apply, add_assoc])

theorem rdOctets_slices (rd : Vector Octet 8) (first second : Nat)
    (whole : 2 + first + second = 8) :
    rdOctets (slice rd.toList 0 2 ++ slice rd.toList 2 first ++ slice rd.toList
      (2 + first) second) = rd := by
  have joined := slice_whole rd.toList []
  rw [List.append_nil] at joined
  have low := slice_add rd.toList 0 2 first
  have high := slice_add rd.toList 0 (2 + first) second
  rw [zero_add] at low high
  rw [low, high, whole]
  exact Vector.toList_inj.mp (rdOctets_toList Vector.length_toList)

theorem cut_long {width} (narrow : width ≤ 32) (value : Nat) :
    (BitVec.ofInt width (min (value : Int) (2 ^ 63 - 1))).toNat = value ↔ value < 2 ^ width := by
  constructor
  · intro same
    exact same ▸ isLt _
  · intro small
    have bound : (2 : Nat) ^ width ≤ 2 ^ 32 := Nat.pow_le_pow_right (by omega) narrow
    have kept : min (value : Int) (2 ^ 63 - 1) = value := min_eq_left (by omega)
    rw [kept, ofInt_natCast, toNat_ofNat, mod_eq_of_lt small]

theorem cut_int (half : Word) (isDigits : digits half) :
    (BitVec.ofInt 16 (atoi half)).toNat = numeral half ↔ numeral half < 2 ^ 16 := by
  constructor
  · intro same
    exact same ▸ isLt _
  · intro small
    have kept : min (numeral half : Int) (2 ^ 63 - 1) = numeral half := min_eq_left (by omega)
    rw [atoi_digits half isDigits, intOfNumeral, kept, intOfLong_small (by omega) (by omega),
      ofInt_natCast, toNat_ofNat, mod_eq_of_lt small]

section Texts
variable (inetAton : Word → Option (BitVec 32)) {half number : Word} (plain : ':' ∉ half)
include plain

theorem colon_cut : (half ++ ':' :: number).takeWhile (· ≠ ':') = half ∧
    (half ++ ':' :: number).dropWhile (· ≠ ':') = ':' :: number := by
  have passes : ∀ c ∈ half, decide (c ≠ ':') = true := fun c member =>
    decide_eq_true fun same => plain (same ▸ member)
  rw [List.takeWhile_append_of_pos passes, List.dropWhile_append_of_pos passes]
  simp

theorem str2prefixRd_cut (prd : PrefixRd) (isDigits : digits number) :
    str2prefixRd inetAton (half ++ ':' :: number) prd =
      let prd := { prd with family := afUnspec, prefixlen := 64 }
      if '.' ∉ half then
        if !digits half then (false, prd)
        else (true, { prd with val := rdOctets (toOctets 2 rdTypeAs.toNat ++
          toOctets 2 (BitVec.ofInt 16 (atoi half)).toNat ++ toOctets 4
            (BitVec.ofInt 32 (strtol number).1).toNat) })
      else
        match inetAton half with
        | none => (false, prd)
        | some addr => (true, { prd with val := rdOctets (toOctets 2 rdTypeIp.toNat ++
          toOctets 4 addr.toNat ++ toOctets 2 (BitVec.ofInt 16 (strtol number).1).toNat) }) := by
  have dots : '.' ∈ half ++ ':' :: number ↔ '.' ∈ half := by
    have noDot : '.' ∉ number := (digits_plain isDigits).1
    simp [noDot]
  have cut := @colon_cut half number plain
  rw [str2prefixRd, cut.1, cut.2]
  by_cases dot : '.' ∈ half
  · cases inetAton half <;> simp [isDigits, dots, dot]
  · simp [isDigits, dots, dot]

end Texts

section
variable (inetAton : Word → Option (BitVec 32))

theorem str2prefixRd_foreign (str : Word) (prd : PrefixRd)
    (foreign : ∀ half number, str = half ++ ':' :: number → ':' ∉ half → ¬ digits number) :
    (str2prefixRd inetAton str prd).1 = false := by
  rw [str2prefixRd]
  cases rest : str.dropWhile (· ≠ ':') with
  | nil => rfl
  | cons c number =>
    have whole := rest ▸ List.takeWhile_append_dropWhile
    have colon : c = ':' := by
      have stops := List.head?_dropWhile_not (· ≠ ':') str
      rw [rest] at stops
      simpa using stops
    subst colon
    have isForeign := foreign _ number whole.symm fun member => by
      simpa using List.mem_takeWhile_imp member
    simp [isForeign]

/-- The text gives the numbers of the route distinguisher. -/
def Tells (str : Word) (rd : Vector Octet 8) : Prop :=
  ∃ half number, str = half ++ ':' :: number ∧ ':' ∉ half ∧ number ≠ [] ∧ digits number ∧
    (decodeRdType rd.toList 0 = rdTypeAs ∧ half ≠ [] ∧ digits half ∧
        (decodeRdAs rd.toList 2).as.toNat = numeral half ∧
          (decodeRdAs rd.toList 2).val.toNat = numeral number ∨
      decodeRdType rd.toList 0 = rdTypeIp ∧ '.' ∈ half ∧
        inetAton half = some (decodeRdIp rd.toList 2).ip ∧
        (decodeRdIp rd.toList 2).val.toNat = numeral number)

/-- A text of the form that is read has both numbers, and they fit. -/
def Representable (str : Word) : Prop :=
  ∀ half number, str = half ++ ':' :: number → ':' ∉ half → digits number →
    ('.' ∉ half → digits half → half ≠ [] ∧ number ≠ [] ∧ numeral half < 2 ^ 16 ∧
      numeral number < 2 ^ 32) ∧
    ('.' ∈ half → (inetAton half).isSome → number ≠ [] ∧ numeral number < 2 ^ 16)

theorem decode_as (as : BitVec 16) (val : BitVec 32) :
    let rd :=
    (rdOctets (toOctets 2 rdTypeAs.toNat ++ toOctets 2 as.toNat ++ toOctets 4 val.toNat)).toList
    decodeRdType rd 0 = rdTypeAs ∧ (decodeRdAs rd 2).as = as ∧ (decodeRdAs rd 2).val = val := by
  dsimp only
  rw [rdOctets_toList (by simp)]
  refine ⟨?_, ?_, ?_⟩
  · rw [decodeRdType]
    exact @field_written [] _ 2 rdTypeAs
  · exact @field_written (toOctets 2 rdTypeAs.toNat) _ 2 as
  · have last := @field_written (toOctets 2 rdTypeAs.toNat ++ toOctets 2 as.toNat) [] 4 val
    rwa [List.append_nil, List.length_append, length_toOctets, length_toOctets] at last

theorem decode_ip (ip : BitVec 32) (val : BitVec 16) :
    let rd :=
    (rdOctets (toOctets 2 rdTypeIp.toNat ++ toOctets 4 ip.toNat ++ toOctets 2 val.toNat)).toList
    decodeRdType rd 0 = rdTypeIp ∧ (decodeRdIp rd 2).ip = ip ∧ (decodeRdIp rd 2).val = val := by
  dsimp only
  rw [rdOctets_toList (by simp)]
  refine ⟨?_, ?_, ?_⟩
  · rw [decodeRdType]
    exact @field_written [] _ 2 rdTypeIp
  · exact @field_written (toOctets 2 rdTypeIp.toNat) _ 4 ip
  · have last := @field_written (toOctets 2 rdTypeIp.toNat ++ toOctets 4 ip.toNat) [] 2 val
    rwa [List.append_nil, List.length_append, length_toOctets, length_toOctets] at last

theorem toDigits_plain (value : Nat) : ':' ∉ toDigits 10 value := by
  intro member
  have isDigit := isDigit_of_mem_toDigits (by omega) (by omega) member
  exact nomatch isDigit

theorem dotted_plain (octets : List Octet) : ':' ∉ dotted octets := by
  fun_induction dotted octets with
  | case1 => exact List.not_mem_nil
  | case2 octet => exact toDigits_plain octet.toNat
  | case3 octet second more ih => simp [toDigits_plain, ih]

theorem length_octet (octet : Octet) : (toDigits 10 octet.toNat).length ≤ 3 :=
  (length_toDigits_le_iff (by omega) (by omega)).mpr (lt_trans octet.isLt (by omega))

theorem length_dotted (octets : List Octet) : (dotted octets).length ≤ 4 * octets.length := by
  fun_induction dotted octets with
  | case1 => exact le_refl 0
  | case2 octet =>
    have short := length_octet octet
    simp only [List.length_singleton]
    omega
  | case3 octet second more ih =>
    have short := length_octet octet
    simp only [List.length_append, List.length_cons] at ih ⊢
    omega

theorem length_short (value : BitVec 16) : (toDigits 10 value.toNat).length ≤ 5 :=
  (length_toDigits_le_iff (by omega) (by omega)).mpr (lt_trans value.isLt (by omega))

theorem length_printInt (value : BitVec 32) : (printInt value.toInt).length ≤ 11 := by
  have low := le_toInt value
  have high := toInt_lt (x := value)
  cases same : value.toInt with
  | ofNat number =>
    have small : number < 10 ^ 11 := by
      rw [same, Int.ofNat_eq_natCast] at high
      omega
    exact (length_toDigits_le_iff (by omega) (by omega)).mpr small
  | negSucc number =>
    have small : number + 1 < 10 ^ 10 := by omega
    exact succ_le_succ ((length_toDigits_le_iff (by omega) (by omega)).mpr small)

/-- A route distinguisher that is printed and read back is the same. -/
def RoundTrips (prd : PrefixRd) (size : Nat) : Prop :=
  ∃ text, prefixRd2str prd size = some text ∧
    ∀ old, (str2prefixRd inetAton text old).1 ∧ (str2prefixRd inetAton text old).2.val = prd.val

end

section RoundTrip
variable {inetAton : Word → Option (BitVec 32)} {prd : PrefixRd} {size : Nat}
  (room : rdAddrstrlen ≤ size)
include room

theorem snprintf_whole {text} (short : text.length ≤ 27) : snprintf size text = text := by
  rw [rdAddrstrlen] at room
  exact List.take_of_length_le (by omega)

theorem roundTrips_as (isAs : decodeRdType prd.val.toList 0 = rdTypeAs) :
    RoundTrips inetAton prd size ↔ (decodeRdAs prd.val.toList 2).val.toNat < 2 ^ 31 := by
  obtain ⟨as, val, is⟩ : ∃ as val, decodeRdAs prd.val.toList 2 = { as := as, val := val } :=
    ⟨_, _, rfl⟩
  have plain := toDigits_plain as.toNat
  have isDigits := digits_toDigits as.toNat
  have printed :
      prefixRd2str prd size = some (toDigits 10 as.toNat ++ ':' :: printInt val.toInt) := by
    have first := length_short as
    have second := length_printInt val
    rw [prefixRd2str, if_neg (not_lt.mpr room), if_pos isAs, is]
    exact congrArg some (snprintf_whole room
      (by simp only [printInt_nat, List.length_append, List.length_cons]; omega))
  rw [is]
  constructor
  · rintro ⟨text, shown, back⟩
    cases printed.symm.trans shown
    by_contra high
    have negative : val.toInt < 0 := by
      rw [toInt_eq_toNat_cond]
      dsimp only at high
      omega
    obtain ⟨number, isNegative⟩ := Int.eq_negSucc_of_lt_zero negative
    have refused :=
      str2prefixRd_foreign inetAton (toDigits 10 as.toNat ++ ':' :: printInt val.toInt) prd
      fun half rest same noColon isNumber => by
        have first := congrArg (List.dropWhile (· ≠ ':')) same
        rw [(colon_cut plain).2, (colon_cut noColon).2, isNegative] at first
        rw [← (List.cons.inj first).2] at isNumber
        exact absurd isNumber (by simp [printInt, digits])
    exact absurd (back prd).1 (by rw [refused]; decide)
  · intro small
    have same : val.toInt = (val.toNat : Int) :=
      toInt_eq_toNat_of_lt (by dsimp only at small; omega)
    refine ⟨_, printed, fun old => ?_⟩
    have noDot : '.' ∉ toDigits 10 as.toNat := (digits_plain isDigits).1
    have asBack := (cut_int _ isDigits).mpr (by rw [numeral_toDigits]; exact as.isLt)
    have valBack := (cut_long (by omega : 32 ≤ 32) val.toNat).mpr val.isLt
    rw [same, printInt_nat, str2prefixRd_cut inetAton plain old (digits_toDigits val.toNat)]
    simp only [noDot, not_false_eq_true, if_true, isDigits, Bool.not_true,
      Bool.false_eq_true, if_false, strtol_digits _ (digits_toDigits val.toNat), numeral_toDigits,
      asBack, valBack, true_and]
    have asIs : as = field prd.val.toList 2 2 := congrArg RdAs.as is.symm
    have valIs : val = field prd.val.toList 4 4 := congrArg RdAs.val is.symm
    rw [asIs, valIs, ← isAs, decodeRdType, toOctets_field, toOctets_field, toOctets_field]
    exact rdOctets_slices prd.val 2 4 rfl

theorem roundTrips_ip (reads : ∀ addr, inetAton (inetNtoa addr) = some addr)
    (isIp : decodeRdType prd.val.toList 0 = rdTypeIp) : RoundTrips inetAton prd size := by
  obtain ⟨ip, val, is⟩ : ∃ ip val, decodeRdIp prd.val.toList 2 = { ip := ip, val := val } :=
    ⟨_, _, rfl⟩
  have printed : prefixRd2str prd size = some (inetNtoa ip ++ ':' :: toDigits 10 val.toNat) := by
    have first := length_dotted (toOctets 4 ip.toNat)
    have second := length_short val
    rw [length_toOctets] at first
    rw [prefixRd2str, if_neg (not_lt.mpr room), if_neg (by rw [isIp]; decide), if_pos isIp, is]
    exact congrArg some (snprintf_whole room
      (by simp only [printInt_nat, inetNtoa, List.length_append, List.length_cons]; omega))
  refine ⟨_, printed, fun old => ?_⟩
  have dot : '.' ∈ inetNtoa ip := by simp [inetNtoa, toOctets, dotted]
  have plain : ':' ∉ inetNtoa ip := dotted_plain _
  have valBack := (cut_long (by omega : 16 ≤ 32) val.toNat).mpr val.isLt
  rw [str2prefixRd_cut inetAton plain old (digits_toDigits val.toNat)]
  simp only [dot, not_true_eq_false, if_false, reads, strtol_digits _ (digits_toDigits val.toNat),
    numeral_toDigits, valBack, true_and]
  have ipIs : ip = field prd.val.toList 2 4 := congrArg RdIp.ip is.symm
  have valIs : val = field prd.val.toList 6 2 := congrArg RdIp.val is.symm
  rw [ipIs, valIs, ← isIp, decodeRdType, toOctets_field, toOctets_field, toOctets_field]
  exact rdOctets_slices prd.val 4 2 rfl

end RoundTrip

section Accepted
variable {inetAton : Word → Option (BitVec 32)} {half number : Word} (plain : ':' ∉ half)
  (isDigits : digits number)
include plain

theorem colon_unique {first second} (same : half ++ ':' :: number = first ++ ':' :: second)
    (noColon : ':' ∉ first) : first = half ∧ second = number := by
  have here := @colon_cut half number plain
  have there := @colon_cut first second noColon
  rw [same] at here
  exact ⟨there.1.symm.trans here.1, (List.cons.inj (there.2.symm.trans here.2)).2⟩

include isDigits

theorem tells_as (as : BitVec 16) (val : BitVec 32) (noDot : '.' ∉ half) (isNumber : digits half) :
    Tells inetAton (half ++ ':' :: number)
        (rdOctets (toOctets 2 rdTypeAs.toNat ++ toOctets 2 as.toNat ++ toOctets 4 val.toNat)) ↔
      half ≠ [] ∧ number ≠ [] ∧ as.toNat = numeral half ∧ val.toNat = numeral number := by
  have back := decode_as as val
  constructor
  · rintro ⟨first, second, same, noColon, written, _, told⟩
    obtain ⟨rfl, rfl⟩ := colon_unique plain same noColon
    rcases told with ⟨_, stands, _, isAs, isVal⟩ | ⟨_, dot, _⟩
    · exact ⟨stands, written, back.2.1 ▸ isAs, back.2.2 ▸ isVal⟩
    · exact absurd dot noDot
  · rintro ⟨stands, written, isAs, isVal⟩
    exact ⟨half, number, rfl, plain, written, isDigits,
      .inl ⟨back.1, stands, isNumber, back.2.1.symm ▸ isAs, back.2.2.symm ▸ isVal⟩⟩

theorem tells_ip (ip : BitVec 32) (val : BitVec 16) (dot : '.' ∈ half)
    (read : inetAton half = some ip) :
    Tells inetAton (half ++ ':' :: number)
        (rdOctets (toOctets 2 rdTypeIp.toNat ++ toOctets 4 ip.toNat ++ toOctets 2 val.toNat)) ↔
      number ≠ [] ∧ val.toNat = numeral number := by
  have back := decode_ip ip val
  constructor
  · rintro ⟨first, second, same, noColon, written, _, told⟩
    obtain ⟨rfl, rfl⟩ := colon_unique plain same noColon
    rcases told with ⟨isAs, _⟩ | ⟨_, _, _, isVal⟩
    · cases back.1.symm.trans isAs
    · exact ⟨written, back.2.2 ▸ isVal⟩
  · rintro ⟨written, isVal⟩
    exact ⟨half, number, rfl, plain, written, isDigits,
      .inr ⟨back.1, dot, back.2.1.symm ▸ read, back.2.2.symm ▸ isVal⟩⟩

theorem representable_cut : Representable inetAton (half ++ ':' :: number) ↔
    ('.' ∉ half → digits half → half ≠ [] ∧ number ≠ [] ∧ numeral half < 2 ^ 16 ∧
      numeral number < 2 ^ 32) ∧
    ('.' ∈ half → (inetAton half).isSome → number ≠ [] ∧ numeral number < 2 ^ 16) := by
  constructor
  · intro fits
    exact fits half number rfl plain isDigits
  · rintro fits first second same noColon -
    obtain ⟨rfl, rfl⟩ := colon_unique plain same noColon
    exact fits

theorem tells_iff_cut (old : PrefixRd) :
    ((str2prefixRd inetAton (half ++ ':' :: number) old).1 →
      Tells inetAton (half ++ ':' :: number)
      (str2prefixRd inetAton (half ++ ':' :: number) old).2.val) ↔
    Representable inetAton (half ++ ':' :: number) := by
  rw [representable_cut plain isDigits]
  simp only [str2prefixRd_cut inetAton plain _ isDigits, strtol_digits number isDigits]
  by_cases dot : '.' ∈ half
  · simp only [dot, not_true_eq_false, if_false, false_implies, true_and, true_implies]
    cases read : inetAton half with
    | none => simp
    | some ip =>
      simp only [tells_ip plain isDigits ip _ dot read, cut_long (by omega : 16 ≤ 32),
      Option.isSome_some, true_implies]
  · simp only [dot, not_false_eq_true, if_true, false_implies, and_true, true_implies]
    cases isNumber : digits half with
    | false => simp
    | true =>
      simp only [Bool.not_true, Bool.false_eq_true, if_false, true_implies]
      rw [tells_as plain isDigits _ _ dot isNumber, cut_long (by omega : 32 ≤ 32),
        cut_int half isNumber]

end Accepted

theorem tells_iff (inetAton : Word → Option (BitVec 32)) (str : Word) (old : PrefixRd) :
    ((str2prefixRd inetAton str old).1 → Tells inetAton str (str2prefixRd inetAton str old).2.val) ↔
      Representable inetAton str := by
  by_cases formed : ∃ half number, str = half ++ ':' :: number ∧ ':' ∉ half ∧ digits number
  · obtain ⟨half, number, rfl, plain, isDigits⟩ := formed
    exact tells_iff_cut plain isDigits old
  · refine iff_of_true (fun accepted => ?_) fun half number same plain isDigits =>
      absurd ⟨half, number, same, plain, isDigits⟩ formed
    have refused := str2prefixRd_foreign inetAton str old fun half number same plain isDigits =>
      formed ⟨half, number, same, plain, isDigits⟩
    exact absurd accepted (by rw [refused]; decide)

/-- A route distinguisher is read back as it was printed unless its AS form has a number from 2^31
on, and an accepted text tells what is made of it exactly when its numbers are there and fit. -/
theorem rd_text_exact (inetAton : Word → Option (BitVec 32))
    (reads : ∀ addr, inetAton (inetNtoa addr) = some addr)
    (prd old : PrefixRd) (size : Nat) (str : Word) :
    (decodeRdType prd.val.toList 0 = rdTypeAs ∨ decodeRdType prd.val.toList 0 = rdTypeIp →
      rdAddrstrlen ≤ size →
      (RoundTrips inetAton prd size ↔
        (decodeRdType prd.val.toList 0 = rdTypeAs →
          (decodeRdAs prd.val.toList 2).val.toNat < 2 ^ 31))) ∧
    (((str2prefixRd inetAton str old).1 →
      Tells inetAton str (str2prefixRd inetAton str old).2.val) ↔
      Representable inetAton str) := by
  refine ⟨fun known room => ?_, tells_iff inetAton str old⟩
  rcases known with isAs | isIp
  · rw [roundTrips_as room isAs]
    exact ⟨fun small _ => small, fun small => small isAs⟩
  · have other : decodeRdType prd.val.toList 0 ≠ rdTypeAs := by
      rw [isIp]
      decide
    exact iff_of_true (roundTrips_ip room reads isIp) fun isAs => absurd isAs other

def sampleRd : PrefixRd :=
  { family := afUnspec, prefixlen := 64, val := #v[0, 0, 0, 1, 0x80, 0, 0, 0] }

theorem rd_text_exact_sample :
    (RoundTrips inetAton sampleRd 28 ↔
        (decodeRdType sampleRd.val.toList 0 = rdTypeAs →
          (decodeRdAs sampleRd.val.toList 2).val.toNat < 2 ^ 31)) ∧
      (((str2prefixRd inetAton "65537:1".toList sampleRd).1 →
          Tells inetAton "65537:1".toList (str2prefixRd inetAton "65537:1".toList sampleRd).2.val) ↔
        Representable inetAton "65537:1".toList) :=
  have both := rd_text_exact inetAton inetAton_inetNtoa sampleRd sampleRd 28 "65537:1".toList
  ⟨both.1 (.inl (by decide)) (by decide), both.2⟩

/-- The AS form 1:2147483648 is printed with a negative number, and 65537:1 is read as 1:1. -/
theorem rd_text_slips : ¬ RoundTrips inetAton sampleRd 28 ∧
    (str2prefixRd inetAton "65537:1".toList sampleRd).1 ∧
      ¬ Tells inetAton "65537:1".toList
        (str2prefixRd inetAton "65537:1".toList sampleRd).2.val := by
  refine ⟨fun trips => ?_, by decide, fun told => ?_⟩
  · exact absurd ((roundTrips_as (by decide) (by decide)).mp trips) (by decide)
  · have fits := (tells_iff inetAton "65537:1".toList sampleRd).mp fun _ => told
    exact absurd ((fits "65537".toList ['1'] rfl (by decide) rfl).1 (by decide) (by decide))
      (by decide)

end Zebra.Bgpd.MplsVpn
