import Zebra.Base.Wire
import Zebra.Lib.Numerals

namespace Zebra
open Base BitVec Nat List

/-- `%d` of an `int`. -/
def printInt : Int → Word
  | .ofNat value => Nat.toDigits 10 value
  | .negSucc value => '-' :: Nat.toDigits 10 (value + 1)

/-- What `snprintf` leaves in a buffer of so many characters. -/
def snprintf (size : Nat) (text : Word) : Word := text.take (size - 1)

/-- Decimal numbers with dots between them. -/
def dotted : List Octet → Word
  | [] => []
  | [octet] => Nat.toDigits 10 octet.toNat
  | octet :: second :: more => Nat.toDigits 10 octet.toNat ++ '.' :: dotted (second :: more)

def inetNtoa (addr : BitVec 32) : Word := dotted (toOctets 4 addr.toNat)

/-- The characters of `inet_aton`; `u_long` has 64 bits. -/
def atonFrom (dots : Nat) (addr val : BitVec 64) : Word → Option (BitVec 32)
  | [] =>
    if 255 < val.toNat then none
    else
      let addr := addr <<< 8 ||| val
      some ((if dots < 3 then addr <<< (8 * (3 - dots)) else addr).setWidth 32)
  | c :: rest =>
    if c.isDigit then atonFrom dots addr (val * 10#64 + BitVec.ofNat 64 (c.toNat - 48)) rest
    else if c = '.' then
      if 3 < dots + 1 then none
      else if 255 < val.toNat then none
      else atonFrom (dots + 1) (addr <<< 8 ||| val) 0#64 rest
    else none

def inetAton (cp : Word) : Option (BitVec 32) := atonFrom 0 0#64 0#64 cp

theorem digits_toDigits (value : Nat) : digits (toDigits 10 value) := by
  simp only [digits, all_eq_true]
  intro c member
  exact isDigit_of_mem_toDigits (by omega) (by omega) member

theorem numeral_toDigits (value : Nat) : numeral (toDigits 10 value) = value := by
  have same : numeral (toDigits 10 value) = ofDigitChars 10 (toDigits 10 value) 0 := by
    simp only [numeral, ofDigitChars, mul_comm]
    rfl
  rw [same, ofDigitChars_ten_toDigits]

theorem printInt_nat (value : Nat) : printInt value = toDigits 10 value := rfl

theorem atonFrom_digits (dots : Nat) (addr : BitVec 64) (word rest : Word) (isDigits : digits word)
    (value : Nat) :
    atonFrom dots addr (BitVec.ofNat 64 value) (word ++ rest) =
      atonFrom dots addr
        (BitVec.ofNat 64 (word.foldl (fun value c => value * 10 + (c.toNat - 48)) value)) rest := by
  induction word generalizing value with
  | nil => rfl
  | cons c word ih =>
    simp only [digits, all_cons, Bool.and_eq_true] at isDigits
    have next : BitVec.ofNat 64 value * 10#64 + BitVec.ofNat 64 (c.toNat - 48) =
        BitVec.ofNat 64 (value * 10 + (c.toNat - 48)) := by
      rw [ofNat_add, ofNat_mul]
    rw [List.cons_append, atonFrom, if_pos isDigits.1, next, ih isDigits.2, List.foldl_cons]

theorem atonFrom_number (dots : Nat) (addr : BitVec 64) (value : Nat) (rest : Word) :
    atonFrom dots addr 0#64 (Nat.toDigits 10 value ++ rest) =
      atonFrom dots addr (BitVec.ofNat 64 value) rest := by
  refine (atonFrom_digits dots addr _ rest (digits_toDigits value) 0).trans ?_
  exact congrArg (fun value => atonFrom dots addr (BitVec.ofNat 64 value) rest)
    (numeral_toDigits value)

theorem push_octet {accumulator octet} (room : accumulator < 2 ^ 56) (isOctet : octet < 256) :
    BitVec.ofNat 64 accumulator <<< 8 ||| BitVec.ofNat 64 octet =
      BitVec.ofNat 64 (accumulator * 256 + octet) := by
  apply eq_of_toNat_eq
  rw [toNat_or, toNat_shiftLeft, toNat_ofNat, toNat_ofNat, toNat_ofNat,
    Nat.mod_eq_of_lt (by omega : accumulator < 2 ^ 64),
      Nat.mod_eq_of_lt (by omega : octet < 2 ^ 64),
    Nat.shiftLeft_eq, Nat.mod_eq_of_lt (by omega), Nat.mod_eq_of_lt (by omega)]
  have joined := Nat.shiftLeft_add_eq_or_of_lt (by omega : octet < 2 ^ 8) accumulator
  rw [Nat.shiftLeft_eq] at joined
  omega

theorem atonFrom_dot {dots accumulator} (few : dots < 3) (room : accumulator < 2 ^ 56)
    (octet : Octet) (rest : Word) :
    atonFrom dots (BitVec.ofNat 64 accumulator) 0#64 (Nat.toDigits 10 octet.toNat ++ '.' :: rest) =
      atonFrom (dots + 1) (BitVec.ofNat 64 (accumulator * 256 + octet.toNat)) 0#64 rest := by
  have isOctet := octet.isLt
  have value : (BitVec.ofNat 64 octet.toNat).toNat = octet.toNat := by
    rw [toNat_ofNat]
    omega
  rw [atonFrom_number, atonFrom, if_neg (by decide), if_pos rfl, if_neg (by omega),
    if_neg (by omega), push_octet room isOctet]

theorem atonFrom_last {accumulator} (room : accumulator < 2 ^ 56) (octet : Octet) :
    atonFrom 3 (BitVec.ofNat 64 accumulator) 0#64 (Nat.toDigits 10 octet.toNat) =
      some (BitVec.ofNat 32 (accumulator * 256 + octet.toNat)) := by
  have isOctet := octet.isLt
  have value : (BitVec.ofNat 64 octet.toNat).toNat = octet.toNat := by
    rw [toNat_ofNat]
    omega
  have read := atonFrom_number 3 (BitVec.ofNat 64 accumulator) octet.toNat []
  rw [append_nil] at read
  rw [read, atonFrom, if_neg (by omega), push_octet room isOctet]
  simp only [lt_irrefl, if_false, Option.some.injEq]
  apply eq_of_toNat_eq
  rw [toNat_setWidth, toNat_ofNat, toNat_ofNat]
  omega

theorem inetAton_inetNtoa (addr : BitVec 32) : inetAton (inetNtoa addr) = some addr := by
  obtain ⟨a, b, c, d, is⟩ : ∃ a b c d, toOctets 4 addr.toNat = [a, b, c, d] := ⟨_, _, _, _, rfl⟩
  have whole : ofOctets [a, b, c, d] = addr.toNat := by
    rw [← is]
    exact @ofOctets_toOctets_toNat 4 addr
  have sum : ((a.toNat * 256 + b.toNat) * 256 + c.toNat) * 256 + d.toNat = addr.toNat := by
    rw [← whole]
    simp only [ofOctets, foldl_cons, foldl_nil]
    omega
  simp only [inetAton, inetNtoa, is, dotted]
  refine (atonFrom_dot (by omega) (by omega) a _).trans ?_
  refine (atonFrom_dot (by omega) (by omega) b _).trans ?_
  refine (atonFrom_dot (by omega) (by omega) c _).trans ?_
  refine (atonFrom_last (by omega) d).trans ?_
  rw [Nat.zero_mul, zero_add, sum, BitVec.ofNat_toNat, BitVec.setWidth_eq]

end Zebra
