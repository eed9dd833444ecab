import Zebra.Lib.InetText

/-! Prefixes as text: `str2prefix_ipv4`, `str2prefix_ipv6` and `str2prefix`. -/
namespace Zebra.PrefixText

section
variable {Addr : Type} (address : Word → Option Addr) (bitlen : Nat) (str : Word)

/-- The text before the first slash. -/
def beforeSlash : Word := str.takeWhile (· ≠ '/')

/-- `(u_char) atoi (pnt)` -/
def plenOf (pnt : Word) : Nat := (atoi pnt % 256).toNat

/-- The body that `str2prefix_ipv4` and `str2prefix_ipv6` share. The one looks at the length before
it looks whether the address was read, the other behind; what they return is the same. -/
def str2prefixBy : Option (Addr × Nat) :=
  match str.dropWhile (· ≠ '/') with
  | [] => (address str).map fun addr => (addr, bitlen)
  | _ :: pnt => do
    let addr ← address (beforeSlash str)
    if bitlen < plenOf pnt then none else some (addr, plenOf pnt)

/-- A decimal number that is no greater than the length of an address. -/
abbrev Masklen (number : Word) : Prop :=
  number ≠ [] ∧ digits number = true ∧ numeral number ≤ bitlen

/-- The prefix that a text means: an address, and behind a slash the length. -/
def prefixOfText : Option (Addr × Nat) :=
  match str.dropWhile (· ≠ '/') with
  | [] => (address str).map fun addr => (addr, bitlen)
  | _ :: number => if Masklen bitlen number then (address (beforeSlash str)).map fun addr =>
    (addr, numeral number) else none

/-- No address, no slash, a proper length, or one that is too long even when it is cut to an
  octet. -/
def Readable : Prop :=
  address (beforeSlash str) = none ∨
    ∀ slash number, str.dropWhile (· ≠ '/') = slash :: number →
      Masklen bitlen number ∨ (bitlen : Int) < atoi number % 256

variable {address bitlen str}

theorem lt_plenOf {number} : (bitlen : Int) < atoi number % 256 ↔ bitlen < plenOf number :=
  Int.lt_toNat.symm

theorem plenOf_masklen {number} (small : bitlen ≤ 128) (masklen : Masklen bitlen number) :
    plenOf number = numeral number := by
  obtain ⟨_, isDigits, bound⟩ := masklen
  rw [plenOf, atoi_digits number isDigits, intOfNumeral, min_eq_left (by omega),
    intOfLong_small (by omega) (by omega)]
  omega

/-- Where the length goes wrong the text is taken for a prefix that it does not mean. -/
theorem taken_of_unreadable (unreadable : ¬ Readable address bitlen str) :
    str2prefixBy address bitlen str ≠ none ∧ prefixOfText address bitlen str = none := by
  simp only [Readable, not_or, not_forall, lt_plenOf, not_lt] at unreadable
  obtain ⟨present, slash, number, cut, wrong, short⟩ := unreadable
  obtain ⟨addr, accepted⟩ := Option.ne_none_iff_exists'.mp present
  rw [str2prefixBy, prefixOfText, cut]
  simp only [accepted, if_neg wrong, if_neg (not_lt.mpr short)]
  simp

theorem str2prefixBy_iff (small : bitlen ≤ 128) :
    str2prefixBy address bitlen str = prefixOfText address bitlen str ↔
    Readable address bitlen str := by
  constructor
  · intro same
    by_contra unreadable
    obtain ⟨taken, meant⟩ := taken_of_unreadable unreadable
    exact taken (same.trans meant)
  · intro readable
    rw [str2prefixBy, prefixOfText]
    split
    · rfl
    · rename_i slash number cut
      simp only [Readable, lt_plenOf] at readable
      obtain absent | lengths := readable
      · simp [absent]
      · obtain masklen | long := lengths slash number cut
        · rw [if_pos masklen, plenOf_masklen small masklen]
          cases address (beforeSlash str) <;> simp [not_lt.mpr masklen.2.2]
        · have wrong : ¬ Masklen bitlen number := fun masklen => by
            rw [plenOf_masklen small masklen] at long
            exact absurd masklen.2.2 (not_le.mpr long)
          simp [long, wrong]

end

section
variable {In In6 : Type} (inetAton : Word → Option In) (inetPton : Word → Option In6) (str : Word)

def str2prefixIpv4 : Option (In × Nat) := str2prefixBy inetAton 32 str
def str2prefixIpv6 : Option (In6 × Nat) := str2prefixBy inetPton 128 str

/-- The prefix of the one family, else that of the other. -/
def either (ipv4 : Option (In × Nat)) (ipv6 : Option (In6 × Nat)) :
    Option ((In × Nat) ⊕ (In6 × Nat)) :=
  (ipv4.map .inl).or (ipv6.map .inr)

def str2prefix : Option ((In × Nat) ⊕ (In6 × Nat)) :=
  either (str2prefixIpv4 inetAton str) (str2prefixIpv6 inetPton str)

/-- A text is read as it is meant exactly if the number behind its slash does not wrap around to a
  length. -/
theorem str2prefix_exact :
    (str2prefixIpv4 inetAton str = prefixOfText inetAton 32 str ↔ Readable inetAton 32 str) ∧
    (str2prefixIpv6 inetPton str = prefixOfText inetPton 128 str ↔ Readable inetPton 128 str) ∧
    (either (prefixOfText inetAton 32 str) (prefixOfText inetPton 128 str) =
      str2prefix inetAton inetPton str ↔
      Readable inetAton 32 str ∧
      (prefixOfText inetAton 32 str ≠ none ∨ Readable inetPton 128 str)) := by
  have exact6 : str2prefixIpv6 inetPton str = prefixOfText inetPton 128 str ↔
    Readable inetPton 128 str := str2prefixBy_iff le_rfl
  refine ⟨str2prefixBy_iff (by omega), exact6, ?_⟩
  by_cases readable : Readable inetAton 32 str
  · unfold str2prefix
    rw [str2prefixIpv4, (str2prefixBy_iff (by omega)).mpr readable, eq_comm, ← exact6]
    cases prefixOfText inetAton 32 str with
    | none => simp [either, readable, Option.map_injective Sum.inr_injective |>.eq_iff]
    | some meant => simp [either, readable]
  · obtain ⟨taken, meant⟩ := taken_of_unreadable readable
    obtain ⟨found, isFound⟩ := Option.ne_none_iff_exists'.mp taken
    unfold str2prefix
    rw [str2prefixIpv4, isFound, meant]
    cases prefixOfText inetPton 128 str <;> simp [either, readable]

end

/-- 257 is cut to the octet 1. -/
theorem str2prefix_long : str2prefixIpv4 inetAton "10.0.0.0/257".toList = some (0x0a000000#32, 1) ∧
    prefixOfText inetAton 32 "10.0.0.0/257".toList = none := by decide

end Zebra.PrefixText
