import BusTables.Proofs.Configuration.Acceptance
import Mathlib.Data.Int.ModEq

/-!
# Numbers are reduced to the widths of their fields

A literal is carried in 128 bits, subtracted or multiplied there, and then cut to the width of the
field that takes it.  All these widths divide each other, so what a field holds is the remainder of
the integer that the literal denotes, however large the literal is (`Slave.build_exact`).
-/

namespace BusTables

namespace Element

/-- The unbounded integer that the only literal at the end of a chain denotes. -/
def integer? (element : Element) (names : List String) : Option Int :=
  match element.under names with
  | [found] => Numeral.value? found.content
  | _ => none

/-- The literal at the end of a chain denotes an integer of which a number is the remainder. -/
def HasRemainder (element : Element) (names : List String) (bits number : Nat) : Prop :=
  ∃ value, element.integer? names = some value ∧ (number : Int) = value % 2 ^ bits

end Element

open Element

/-- The numbers of a command are those of its element, reduced to their widths. -/
structure Command.Exact (element : Element) (command : Command) : Prop where
  specifier : element.HasRemainder ["Ccs"] 8 command.specifier.toNat
  index : element.HasRemainder ["Index"] 16 command.index.toNat
  subIndex : element.HasRemainder ["SubIndex"] 8 command.subIndex.toNat
  timeout : ∃ value, element.integer? ["Timeout"] = some value ∧
    -2 ^ 31 ≤ command.timeout.toInt ∧ command.timeout.toInt < 2 ^ 31 ∧
      command.timeout.toInt ≡ 1000 * value [ZMOD 2 ^ 32]

/-- The numbers of a slave and its commands are those of its element, reduced to their widths. -/
structure Slave.Exact (element : Element) (position : Int) (slave : Slave) : Prop where
  /-- The address, where an increment is given. -/
  incremented : element.under ["Info", "AutoIncAddr"] ≠ [] →
    ∃ value, element.integer? ["Info", "AutoIncAddr"] = some value ∧
      (slave.address.toNat : Int) = (1 - value) % 2 ^ 16
  /-- The address, where none is given. -/
  positioned : element.under ["Info", "AutoIncAddr"] = [] →
    (slave.address.toNat : Int) = position % 2 ^ 16
  vendor : element.HasRemainder ["Info", "VendorId"] 32 slave.vendor.toNat
  product : element.HasRemainder ["Info", "ProductCode"] 32 slave.product.toNat
  revision : element.HasRemainder ["Info", "RevisionNo"] 32 slave.revision.toNat
  commands : List.Forall₂ Command.Exact element.enabledCommands slave.commands

section Words

variable (value : Int)

theorem toNat_ofInt_uint8 : ((UInt8.ofInt value).toNat : Int) = value % 2 ^ 8 := by
  simp [UInt8.ofInt]
  omega

theorem toNat_ofInt_uint16 : ((UInt16.ofInt value).toNat : Int) = value % 2 ^ 16 := by
  simp [UInt16.ofInt]
  omega

theorem toNat_ofInt_uint32 : ((UInt32.ofInt value).toNat : Int) = value % 2 ^ 32 := by
  simp [UInt32.ofInt]
  omega

/-- What is carried of an integer differs from it by a multiple of each smaller power of two. -/
theorem carried_modEq {bits : Nat} (narrow : bits ≤ Numeral.width) :
    value.bmod Numeral.modulus ≡ value [ZMOD 2 ^ bits] := by
  have divides : (2 : Int) ^ bits ∣ Numeral.modulus := by
    have powers := pow_dvd_pow (2 : Int) narrow
    exact_mod_cast powers
  have whole : value.bmod Numeral.modulus ≡ value [ZMOD Numeral.modulus] := Int.bmod_emod
  exact whole.of_dvd divides

end Words

namespace Element

variable {element : Element} {names : List String}

theorem number?_eq (element : Element) (names : List String) :
    element.number? names = (element.integer? names).map (·.bmod Numeral.modulus) := by
  unfold number? integer?
  rcases element.under names with _ | ⟨found, _ | ⟨other, others⟩⟩
  · rfl
  · exact Numeral.read?_eq found.content
  · rfl

/-- A word that is cut from what is carried is the remainder of the integer. -/
theorem hasRemainder_of_number? {Word : Type} {ofInt : Int → Word} {toNat : Word → Nat}
    {bits : Nat} (cuts : ∀ value, (toNat (ofInt value) : Int) = value % 2 ^ bits)
    (narrow : bits ≤ Numeral.width) {word : Word}
    (read : (element.number? names).map ofInt = some word) :
    element.HasRemainder names bits (toNat word) := by
  rw [number?_eq, Option.map_map] at read
  obtain ⟨value, denoted, rfl⟩ := Option.map_eq_some_iff.mp read
  exact ⟨value, denoted, (cuts _).trans (carried_modEq value narrow)⟩

end Element

theorem Command.Describes.exact {element : Element} {command : Command}
    (described : command.Describes element) : command.Exact element := by
  constructor
  · exact hasRemainder_of_number? toNat_ofInt_uint8 (by decide) described.specifier
  · exact hasRemainder_of_number? toNat_ofInt_uint16 (by decide) described.index
  · exact hasRemainder_of_number? toNat_ofInt_uint8 (by decide) described.subIndex
  · have read := described.timeout
    rw [number?_eq, Option.map_map] at read
    obtain ⟨value, denoted, same⟩ := Option.map_eq_some_iff.mp read
    refine ⟨value, denoted, command.timeout.le_toInt, command.timeout.toInt_lt, ?_⟩
    have narrow : 32 ≤ Numeral.width := by decide
    have carried := (carried_modEq value narrow).mul_right 1000
    rw [mul_comm 1000 value, ← same]
    change (Int32.ofInt _).toInt ≡ _ [ZMOD 2 ^ 32]
    rw [Int32.toInt_ofInt]
    exact Int.bmod_emod.trans carried

namespace Slave

/-- Only the lowest sixteen bits of a position count. -/
theorem addressOf_of_modEq {position other : Int} (same : position ≡ other [ZMOD 2 ^ 16]) :
    addressOf (1 - position) = addressOf (1 - other) := by
  rw [addressOf, addressOf, sub_sub_cancel, sub_sub_cancel, UInt16.ofInt, UInt16.ofInt, same]

theorem result_build_of_modEq {position other : Int} (same : position ≡ other [ZMOD 2 ^ 16])
    (element : Element) : (build element position).result = (build element other).result := by
  have identities : identity element position = identity element other := by
    -- What follows the increment depends on the address that it leads to, and on nothing else.
    let rest (address : UInt16) : Except Failure (List Command → Slave) := do
      let vendor ← element.readInt "Info/VendorId"
      let product ← element.readInt "Info/ProductCode"
      let revision ← element.readInt "Info/RevisionNo"
      return fun commands => ⟨address, .ofInt vendor, .ofInt product, .ofInt revision, commands⟩
    have split (position : Int) : identity element position =
        element.readOptionalInt "Info/AutoIncAddr" (1 - position) >>= fun increment =>
          rest (addressOf increment) :=
      rfl
    rw [split, split, readOptionalInt, readOptionalInt]
    cases element.findOptional "Info/AutoIncAddr" with
    | error failure => rfl
    | ok found =>
        cases found with
        | some found => rfl
        | none => exact congrArg rest (addressOf_of_modEq same)
  rw [result_build, result_build, identities]

/-- A slave that is built holds the integers that its literals denote, each as its remainder. -/
theorem build_exact {element : Element} {position : Int} {slave : Slave}
    (ended : (build element position).result = .ok slave) : slave.Exact element position := by
  -- The position counts only by its remainder, and that is a number.
  have least : position ≡ (position % 2 ^ 16).toNat [ZMOD 2 ^ 16] := by
    rw [Int.toNat_of_nonneg (Int.emod_nonneg position (by decide))]
    exact (Int.mod_modEq position _).symm
  rw [result_build_of_modEq least] at ended
  have described := describes_of_build ended
  constructor
  · intro given
    have read := described.address
    rw [address?] at read
    split at read
    · contradiction
    · rw [number?_eq, Option.map_map] at read
      obtain ⟨value, denoted, same⟩ := Option.map_eq_some_iff.mp read
      refine ⟨value, denoted, ?_⟩
      rw [← same]
      have narrow : 16 ≤ Numeral.width := by decide
      have carried := (carried_modEq value narrow).sub_left 1
      exact (toNat_ofInt_uint16 _).trans carried
  · intro none
    have read := described.address
    rw [address?, none] at read
    rw [← Option.some.inj read]
    simp
    omega
  · exact hasRemainder_of_number? toNat_ofInt_uint32 (by decide) described.vendor
  · exact hasRemainder_of_number? toNat_ofInt_uint32 (by decide) described.product
  · exact hasRemainder_of_number? toNat_ofInt_uint32 (by decide) described.revision
  · exact described.commands.imp fun element command => Command.Describes.exact

/-- An element that holds a text. -/
def leaf (name text : String) : Element := ⟨name, [], some text, []⟩

/-- A slave all of whose literals denote more than their fields hold. -/
def oversized : Element :=
  ⟨"Slave", [], none,
    [⟨"Info", [], none,
        [leaf "AutoIncAddr" "-0x1_0000_0000_0000_0000_0000_0000_0000_0001",
          leaf "VendorId" "0x1000000000000000000000000000000000001", leaf "ProductCode" "-1",
          leaf "RevisionNo" "340282366920938463463374607431768211458"]⟩,
      ⟨"Mailbox", [], none, [⟨"CoE", [], none, [⟨"InitCmds", [], none,
        [⟨"InitCmd", [], none,
          [leaf "Transition" "PS", leaf "Ccs" "0x102", leaf "Index" " 0x11C13 ",
            leaf "SubIndex" "-0b1", leaf "Timeout" "3_000_000"]⟩]⟩]⟩]⟩]⟩

/-- The timeout is past the largest number of its width, and the product code below the least. -/
theorem build_exact_oversized :
    (build oversized 7).result =
        .ok ⟨2, 1, 0xFFFFFFFF, 2, [⟨"", ["PS"], false, 2, 0x1C13, 255, -1294967296, []⟩]⟩ ∧
      Exact oversized 7
        ⟨2, 1, 0xFFFFFFFF, 2, [⟨"", ["PS"], false, 2, 0x1C13, 255, -1294967296, []⟩]⟩ := by
  have ended : (build oversized 7).result =
      .ok ⟨2, 1, 0xFFFFFFFF, 2, [⟨"", ["PS"], false, 2, 0x1C13, 255, -1294967296, []⟩]⟩ := by
    decide +kernel
  exact ⟨ended, build_exact ended⟩

end Slave

end BusTables
