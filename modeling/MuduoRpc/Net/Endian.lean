import Mathlib.Algebra.Group.Int.Defs
import Mathlib.Algebra.Group.Nat.Defs
import Mathlib.Data.List.Basic

/-!
Fixed-width integers and their bytes on a little-endian host. An `intN_t` is
an `Int` in range and a `uintN_t` a `Nat`; the conversions between the two
wrap as the host's do.
-/

namespace MuduoRpc.Endian

/-- The `n` bytes in which the host stores an unsigned integer. -/
def toMemory : Nat → Nat → List UInt8
  | 0, _ => []
  | n + 1, value => UInt8.ofNat value :: toMemory n (value / 256)

/-- The unsigned integer the host reads from these bytes. -/
def ofMemory : List UInt8 → Nat
  | [] => 0
  | byte :: rest => byte.toNat + 256 * ofMemory rest

def toUnsigned (bits : Nat) (x : Int) : Nat := (x % 2 ^ bits).toNat

def toSigned (bits : Nat) (x : Nat) : Int := (x : Int).bmod (2 ^ bits)

/-- Byte reversal, which is what `htobeN` and `beNtoh` are on this host. -/
def bswap (n value : Nat) : Nat := ofMemory (toMemory n value).reverse

def host_to_net_16 (host_16 : Nat) : Nat := bswap 2 host_16

def host_to_net_32 (host_32 : Nat) : Nat := bswap 4 host_32

/-- This one calls `htole64`, which changes nothing on this host. -/
def host_to_net_64 (host_64 : Nat) : Nat := host_64

def net_to_host_16 (net_16 : Nat) : Nat := bswap 2 net_16

def net_to_host_32 (net_32 : Nat) : Nat := bswap 4 net_32

/-- `le64toh`, the inverse of `htole64`. -/
def net_to_host_64 (net_64 : Nat) : Nat := net_64

/-- Network byte order: the most significant of the `n` bytes first. -/
def bigEndian (n value : Nat) : List UInt8 := (toMemory n value).reverse

@[simp] theorem length_toMemory (n value : Nat) : (toMemory n value).length = n := by
  induction n generalizing value with
  | zero => rfl
  | succ n ih => simp [toMemory, ih]

@[simp] theorem length_bigEndian (n value : Nat) : (bigEndian n value).length = n := by
  simp [bigEndian]

theorem ofMemory_lt (bytes : List UInt8) : ofMemory bytes < 256 ^ bytes.length := by
  induction bytes with
  | nil => simp [ofMemory]
  | cons byte rest ih =>
      have hbyte : byte.toNat < 256 := byte.toNat_lt
      rw [ofMemory, List.length_cons, Nat.pow_succ]
      omega

theorem ofMemory_toMemory (n value : Nat) :
    ofMemory (toMemory n value) = value % 256 ^ n := by
  induction n generalizing value with
  | zero => simp [toMemory, ofMemory, Nat.mod_one]
  | succ n ih =>
      rw [toMemory, ofMemory, ih, Nat.pow_succ, Nat.mul_comm (256 ^ n) 256,
        Nat.mod_mul]
      simp

theorem toMemory_ofMemory (bytes : List UInt8) :
    toMemory bytes.length (ofMemory bytes) = bytes := by
  induction bytes with
  | nil => rfl
  | cons byte rest ih =>
      have hbyte : byte.toNat < 256 := byte.toNat_lt
      have hdiv : (byte.toNat + 256 * ofMemory rest) / 256 = ofMemory rest := by omega
      have hhead : UInt8.ofNat (byte.toNat + 256 * ofMemory rest) = byte := by
        apply UInt8.toNat_inj.mp
        rw [UInt8.toNat_ofNat']
        omega
      rw [List.length_cons, ofMemory, toMemory, hdiv, ih, hhead]

theorem toMemory_mod (n value : Nat) : toMemory n (value % 256 ^ n) = toMemory n value := by
  rw [← ofMemory_toMemory]
  simpa using toMemory_ofMemory (toMemory n value)

/-- Storing a byte-swapped integer stores it in network order. -/
theorem toMemory_bswap (n value : Nat) : toMemory n (bswap n value) = bigEndian n value := by
  simpa [bswap, bigEndian] using toMemory_ofMemory (toMemory n value).reverse

theorem toUnsigned_toSigned (bits value : Nat) :
    toUnsigned bits (toSigned bits value) = value % 2 ^ bits := by
  have hmod : ((value : Int).bmod (2 ^ bits)) % ((2 ^ bits : Nat) : Int) =
      (value : Int) % ((2 ^ bits : Nat) : Int) := Int.bmod_emod
  rw [toUnsigned, toSigned]
  push_cast at hmod
  rw [hmod]
  exact_mod_cast Int.toNat_natCast (value % 2 ^ bits)

theorem toSigned_mod (bits value : Nat) :
    toSigned bits (value % 2 ^ bits) = toSigned bits value := by
  rw [toSigned, toSigned, Int.natCast_emod, Int.emod_bmod]

theorem ofMemory_mod {n : Nat} {bytes : List UInt8} (h : bytes.length = n) :
    ofMemory bytes % 2 ^ (8 * n) = ofMemory bytes := by
  have hlt := ofMemory_lt bytes
  rw [Nat.pow_mul, ← h]
  exact Nat.mod_eq_of_lt hlt

/-- Reading a signed integer from network order: swap what the host reads. -/
theorem toSigned_bswap {n : Nat} {bytes : List UInt8} (h : bytes.length = n) :
    toSigned (8 * n) (bswap n (toUnsigned (8 * n) (toSigned (8 * n) (ofMemory bytes)))) =
      toSigned (8 * n) (ofMemory bytes.reverse) := by
  have hmemory := toMemory_ofMemory bytes
  rw [h] at hmemory
  rw [toUnsigned_toSigned, ofMemory_mod h, bswap, hmemory]

theorem toSigned_net_to_host_32 {bytes : List UInt8} (h : bytes.length = 4) :
    toSigned 32 (net_to_host_32 (toUnsigned 32 (toSigned 32 (ofMemory bytes)))) =
      toSigned 32 (ofMemory bytes.reverse) :=
  toSigned_bswap h

theorem toSigned_net_to_host_64 (value : Nat) :
    toSigned 64 (net_to_host_64 (toUnsigned 64 (toSigned 64 value))) = toSigned 64 value := by
  rw [net_to_host_64, toUnsigned_toSigned, toSigned_mod]

/-- The host stores a converted integer as it stores the unsigned one. -/
theorem toMemory_toSigned (n value : Nat) :
    toMemory n (toUnsigned (8 * n) (toSigned (8 * n) value)) = toMemory n value := by
  rw [toUnsigned_toSigned, Nat.pow_mul]
  exact toMemory_mod n value

/-- A value of the signed type goes through the unsigned one and back. -/
theorem toSigned_toUnsigned {bits : Nat} (hbits : 0 < bits) {x : Int}
    (hlower : -2 ^ (bits - 1) ≤ x) (hupper : x < 2 ^ (bits - 1)) :
    toSigned bits (toUnsigned bits x) = x := by
  have hrange : (2 : Int) ^ bits = 2 * 2 ^ (bits - 1) := by
    rw [← Int.pow_succ']
    congr 1
    omega
  have hpositive : (0 : Int) < 2 ^ (bits - 1) := Int.pow_pos (by decide)
  have hnonneg : 0 ≤ x % 2 ^ bits := Int.emod_nonneg _ (by omega)
  have hcast : ((2 ^ bits : Nat) : Int) = 2 ^ bits := by norm_cast
  rw [toSigned, toUnsigned, Int.toNat_of_nonneg hnonneg, ← hcast, Int.emod_bmod]
  apply Int.bmod_eq_of_le_mul_two <;> rw [hcast] <;> omega

/-- A value below half the range keeps its sign through the conversion. -/
theorem toSigned_of_lt {bits value : Nat} (h : 2 * value < 2 ^ bits) :
    toSigned bits value = value := by
  rw [toSigned]
  generalize 2 ^ bits = range at h ⊢
  apply Int.bmod_eq_of_le_mul_two <;> omega

end MuduoRpc.Endian
