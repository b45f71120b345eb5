/-
Byte-addressed memory with little-endian 32-bit words.  Words are natural
numbers below `2 ^ 32`; a store keeps every byte outside its four.
-/
import Mathlib.Data.Nat.Bitwise

namespace Merlon

/-- Memory maps every address to the byte stored there. -/
abbrev ByteMemory : Type := Nat → UInt8

namespace ByteMemory

variable {value : UInt8} {address length at_ : Nat}

/-- Overwrite one byte. -/
def storeByte (memory : ByteMemory) (address : Nat) (value : UInt8) :
    ByteMemory :=
  fun at_ => if at_ = address then value else memory at_

/-- The little-endian word at `address`. -/
def load (memory : ByteMemory) (address : Nat) : Nat :=
  (memory address).toNat + 0x100 * (memory (address + 1)).toNat +
    0x10000 * (memory (address + 2)).toNat + 0x1000000 * (memory (address + 3)).toNat

/-- Overwrite the little-endian word at `address`. -/
def store (memory : ByteMemory) (address value : Nat) : ByteMemory :=
  fun at_ =>
    if at_ = address then UInt8.ofNat value
    else if at_ = address + 1 then UInt8.ofNat (value / 0x100)
    else if at_ = address + 2 then UInt8.ofNat (value / 0x10000)
    else if at_ = address + 3 then UInt8.ofNat (value / 0x1000000)
    else memory at_

/-- Set `length` bytes from `address` on to `value`. -/
def fill (memory : ByteMemory) (address length : Nat) (value : UInt8) :
    ByteMemory :=
  fun at_ =>
    if address ≤ at_ ∧ at_ < address + length then value else memory at_

/-- The little-endian 24-bit number at `address`. -/
def load24 (memory : ByteMemory) (address : Nat) : Nat :=
  (memory address).toNat + 0x100 * (memory (address + 1)).toNat +
    0x10000 * (memory (address + 2)).toNat

/-- Copy `length` bytes of `source` to `address`. -/
def splice (memory : ByteMemory) (address length : Nat) (source : ByteMemory) :
    ByteMemory :=
  fun at_ =>
    if address ≤ at_ ∧ at_ < address + length then source (at_ - address)
    else memory at_

section

variable (memory : ByteMemory)

lemma load_lt (address : Nat) : memory.load address < 2 ^ 32 := by
  have h₀ := (memory address).toNat_lt
  have h₁ := (memory (address + 1)).toNat_lt
  have h₂ := (memory (address + 2)).toNat_lt
  have h₃ := (memory (address + 3)).toNat_lt
  simp only [load]
  omega

lemma load24_lt (address : Nat) : memory.load24 address < 2 ^ 24 := by
  have h₀ := (memory address).toNat_lt
  have h₁ := (memory (address + 1)).toNat_lt
  have h₂ := (memory (address + 2)).toNat_lt
  simp only [load24]
  omega

lemma load_store_self (address value : Nat) :
    (memory.store address value).load address = value % 2 ^ 32 := by
  simp [load, store]
  omega

lemma load_store_of_lt {value : Nat} (hvalue : value < 2 ^ 32) :
    (memory.store address value).load address = value := by
  rw [load_store_self, Nat.mod_eq_of_lt hvalue]

lemma store_apply_of_outside {value : Nat} (houtside : at_ < address ∨ address + 4 ≤ at_) :
    memory.store address value at_ = memory at_ := by
  have h₀ : at_ ≠ address := by omega
  have h₁ : at_ ≠ address + 1 := by omega
  have h₂ : at_ ≠ address + 2 := by omega
  have h₃ : at_ ≠ address + 3 := by omega
  simp [store, h₀, h₁, h₂, h₃]

/-- Loads read only their own four bytes. -/
lemma load_congr {first second : ByteMemory}
    (hagree : ∀ at_, address ≤ at_ → at_ < address + 4 → first at_ = second at_) :
    first.load address = second.load address := by
  simp only [load]
  rw [hagree address (by omega) (by omega), hagree (address + 1) (by omega) (by omega),
    hagree (address + 2) (by omega) (by omega), hagree (address + 3) (by omega) (by omega)]

lemma load_store_of_disjoint {other value : Nat}
    (hdisjoint : other + 4 ≤ address ∨ address + 4 ≤ other) :
    (memory.store address value).load other = memory.load other := by
  apply load_congr
  intro at_ hlow hhigh
  exact memory.store_apply_of_outside (by omega)

/-- Inside the stored word the old memory does not show. -/
lemma store_apply_of_inside (memory other : ByteMemory) {value : Nat} (hlow : address ≤ at_)
    (hhigh : at_ < address + 4) :
    memory.store address value at_ = other.store address value at_ := by
  simp only [store]
  split_ifs
  · rfl
  · rfl
  · rfl
  · rfl
  · omega

lemma store_comm {left right first second : Nat} (hdisjoint : left + 4 ≤ right ∨ right + 4 ≤ left) :
    (memory.store left first).store right second = (memory.store right second).store left
    first := by
  funext at_
  by_cases hleft : left ≤ at_ ∧ at_ < left + 4
  · rw [store_apply_of_outside _ (by omega)]
    exact store_apply_of_inside _ _ hleft.1 hleft.2
  · rw [store_apply_of_outside (memory.store right second) (by omega)]
    by_cases hright : right ≤ at_ ∧ at_ < right + 4
    · exact store_apply_of_inside _ memory hright.1 hright.2
    · rw [store_apply_of_outside _ (by omega), store_apply_of_outside _ (by omega),
        store_apply_of_outside _ (by omega)]

lemma storeByte_apply_of_ne (hne : at_ ≠ address) :
    memory.storeByte address value at_ = memory at_ := by
  simp [storeByte, hne]

lemma fill_apply_of_outside (houtside : at_ < address ∨ address + length ≤ at_) :
    memory.fill address length value at_ = memory at_ := by
  have hnot : ¬ (address ≤ at_ ∧ at_ < address + length) := by omega
  simp [fill, hnot]

lemma fill_apply_of_inside (hlow : address ≤ at_)
    (hhigh : at_ < address + length) : memory.fill address length value at_ = value := by
  simp [fill, hlow, hhigh]

lemma splice_zero (address : Nat)
    (source : ByteMemory) : memory.splice address 0 source = memory := by
  funext at_
  unfold splice
  rw [if_neg (by omega)]

/-- Two copies one after the other are one copy. -/
lemma splice_splice (address length more : Nat) (source : ByteMemory) :
    (memory.splice address length source).splice (address + length) more
        (fun i => source (length + i)) = memory.splice address (length + more) source := by
  funext at_
  unfold splice
  split_ifs with hsecond hboth hfirst hboth
  · exact congrArg source (by omega)
  · omega
  · rfl
  · omega
  · omega
  · rfl

end

end ByteMemory

end Merlon
