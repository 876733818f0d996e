import BusTables.Proofs.Configuration.Widths

/-!
# Numbers as words

A number that has been read is a word of 128 bits.  It is subtracted from one or multiplied there,
where the result wraps, and then its lowest bits are masked and cut off.  A field that is reduced
from the integer holds the same word, since masking the wrapped result forgets only multiples of the
width of the field (`lowest_carried`).  So commands and slaves may be built from words throughout
(`Command.ofElement_eq`, `Slave.build_eq`).
-/

namespace BusTables

/-- A number as the word in which it is carried. -/
def carried (value : Int) : BitVec Numeral.width := BitVec.ofInt Numeral.width value

/-- The lowest bits of a word: all others are masked, and then cut off. -/
def lowest (bits : Nat) (word : BitVec Numeral.width) : BitVec bits :=
  (word &&& BitVec.ofNat Numeral.width (2 ^ bits - 1)).setWidth bits

/-- Nothing is lost of a number that has been read. -/
theorem toInt_carried {literal : String} {value : Int}
    (read : Numeral.read? literal = some value) : (carried value).toInt = value := by
  rw [Numeral.read?_eq, Option.map_eq_some_iff] at read
  obtain ⟨whole, -, rfl⟩ := read
  exact (BitVec.toInt_ofInt _).trans Int.bmod_bmod

section Narrow

variable {bits : Nat} (narrow : bits ≤ Numeral.width)

include narrow

theorem toNat_lowest (word : BitVec Numeral.width) :
    (lowest bits word).toNat = word.toNat % 2 ^ bits := by
  have mask : 2 ^ bits - 1 < 2 ^ Numeral.width := by
    have powers := Nat.pow_le_pow_right (show 0 < 2 by decide) narrow
    have positive := Nat.two_pow_pos bits
    omega
  rw [lowest, BitVec.toNat_setWidth, BitVec.toNat_and, BitVec.toNat_ofNat, Nat.mod_eq_of_lt mask,
    Nat.and_two_pow_sub_one_eq_mod, Nat.mod_mod]

theorem lowest_carried (value : Int) : lowest bits (carried value) = BitVec.ofInt bits value := by
  apply BitVec.eq_of_toNat_eq
  have divides : ((2 ^ bits : Nat) : Int) ∣ ((2 ^ Numeral.width : Nat) : Int) :=
    Int.natCast_dvd_natCast.mpr (pow_dvd_pow 2 narrow)
  have nonneg : 0 ≤ value % ((2 ^ Numeral.width : Nat) : Int) :=
    Int.emod_nonneg value (by decide)
  rw [toNat_lowest narrow, carried, BitVec.toNat_ofInt, BitVec.toNat_ofInt,
    ← Int.emod_emod_of_dvd value divides, Int.toNat_emod nonneg (Int.natCast_nonneg _),
    Int.toNat_natCast]

end Narrow

section Fields

variable (value : Int)

theorem natCast_toNat_ofInt (bits : Nat) :
    ((BitVec.ofInt bits value).toNat : Int) = value % ((2 ^ bits : Nat) : Int) := by
  have positive := Nat.two_pow_pos bits
  rw [BitVec.toNat_ofInt, Int.toNat_of_nonneg (Int.emod_nonneg value (by omega))]

theorem ofInt_eq_uint8 : UInt8.ofInt value = .ofBitVec (lowest 8 (carried value)) := by
  rw [lowest_carried (by decide), ← UInt8.toNat_inj, ← Int.natCast_inj]
  exact (toNat_ofInt_uint8 value).trans (natCast_toNat_ofInt value 8).symm

theorem ofInt_eq_uint16 : UInt16.ofInt value = .ofBitVec (lowest 16 (carried value)) := by
  rw [lowest_carried (by decide), ← UInt16.toNat_inj, ← Int.natCast_inj]
  exact (toNat_ofInt_uint16 value).trans (natCast_toNat_ofInt value 16).symm

theorem ofInt_eq_uint32 : UInt32.ofInt value = .ofBitVec (lowest 32 (carried value)) := by
  rw [lowest_carried (by decide), ← UInt32.toNat_inj, ← Int.natCast_inj]
  exact (toNat_ofInt_uint32 value).trans (natCast_toNat_ofInt value 32).symm

theorem ofInt_eq_int32 : Int32.ofInt value = .ofBitVec (lowest 32 (carried value)) := by
  rw [lowest_carried (by decide)]
  rfl

end Fields

namespace Command

/-- The time is multiplied as a word, and its lowest bits are a word with a sign. -/
theorem microseconds_eq (milliseconds : Int) :
    microseconds milliseconds = .ofBitVec (lowest 32 (carried milliseconds * 1000)) := by
  have wrapped : carried (milliseconds * 1000) = carried milliseconds * 1000 :=
    BitVec.ofInt_mul milliseconds 1000
  rw [microseconds, ofInt_eq_int32, wrapped]

/-- A command may be built from words: each field takes the lowest bits of one. -/
theorem ofElement_eq (element : Element) : ofElement element = do
    let named ← element.find "Transition" (some 1) none
    let transitions ← named.mapM transition
    let timeout ← element.readInt "Timeout"
    let digits ← element.readOptionalText "Data" ""
    let comment ← element.readOptionalText "Comment" ""
    let specifier ← element.readInt "Ccs"
    let index ← element.readInt "Index"
    let subIndex ← element.readInt "SubIndex"
    let data ← payload digits
    return {
      comment
      transitions
      completeAccess := element.attribute? "CompleteAccess" == some "1"
      specifier := .ofBitVec (lowest 8 (carried specifier))
      index := .ofBitVec (lowest 16 (carried index))
      subIndex := .ofBitVec (lowest 8 (carried subIndex))
      timeout := .ofBitVec (lowest 32 (carried timeout * 1000))
      data } := by
  simp only [ofElement, ofInt_eq_uint8, ofInt_eq_uint16, microseconds_eq]

end Command

namespace Slave

/-- The increment is subtracted from one as a word. -/
theorem addressOf_eq (increment : Int) :
    addressOf increment = .ofBitVec (lowest 16 (1 - carried increment)) := by
  have wrapped : carried (1 - increment) = 1 - carried increment := by
    rw [Int.sub_eq_add_neg, BitVec.sub_eq_add_neg]
    exact (BitVec.ofInt_add 1 (-increment)).trans (congrArg (1 + ·) BitVec.ofInt_neg)
  rw [addressOf, ofInt_eq_uint16, wrapped]

/-- A slave may be built from words: each field takes the lowest bits of one. -/
theorem build_eq (element : Element) (position : Int) : build element position = do
    let increment ← element.readOptionalInt "Info/AutoIncAddr" (1 - position)
    let vendor ← element.readInt "Info/VendorId"
    let product ← element.readInt "Info/ProductCode"
    let revision ← element.readInt "Info/RevisionNo"
    let commands ← (element.descendants commandPath).mapM Command.buildEnabled
    let slave : Slave := {
      address := .ofBitVec (lowest 16 (1 - carried increment))
      vendor := .ofBitVec (lowest 32 (carried vendor))
      product := .ofBitVec (lowest 32 (carried product))
      revision := .ofBitVec (lowest 32 (carried revision))
      commands := commands.reduceOption }
    Traced.report (.slaveRead slave position)
    return slave := by
  simp only [build, ofInt_eq_uint32, addressOf_eq]

end Slave

end BusTables
