import Mathlib.Algebra.Ring.Nat
import MuduoRpc.Net.ByteQueue

/-!
`readFd` with the areas that it hands to `readv`, for any result of the system
call. The first area is the tail of the vector and the second one is on the stack;
with a megabyte to write to, only the first is handed over.
-/

namespace MuduoRpc

open Slice

/-- What `readv` does: it puts `data` into the areas, or fails with `errno`. -/
inductive ReadvResult
  | received (data : List UInt8)
  | failed (errno : Int)
deriving DecidableEq, Repr

namespace ReadvResult

def returned : ReadvResult → Int
  | .received data => data.length
  | .failed _ => -1

def data : ReadvResult → List UInt8
  | .received data => data
  | .failed _ => []

end ReadvResult

/-- What areas of these lengths get of the data: they are filled in order. -/
def scatter : List Nat → List UInt8 → List (List UInt8)
  | [], _ => []
  | len :: rest, data => data.take len :: scatter rest (data.drop len)

/-- What the stack holds where `readFd` has its `extrabuf`. -/
def Extrabuf : Type := { bytes : List UInt8 // bytes.length = 1024 * 1024 }

namespace Buffer

def iovcnt (b : Buffer) : Nat := if b.writeableBytes < 1024 * 1024 then 2 else 1

/-- The lengths of the areas that are handed to `readv`. -/
def iov (b : Buffer) : List Nat := [b.writeableBytes, 1024 * 1024].take b.iovcnt

/-- `readFd`, with what it returns and leaves in `saveerrno`. A read beyond the end of
`extrabuf` is `none`. -/
def readFdSaving (b : Buffer) (extrabuf : Extrabuf) (saveerrno : Int) (result : ReadvResult) :
    Option (Buffer × Int × Int) :=
  let writeable := b.writeableBytes
  let areas := scatter b.iov result.data
  let filled := b.store (areas.getD 0 [])
  let extrabuf := overwrite extrabuf.val 0 (areas.getD 1 [])
  match result with
  | .failed errno => some (b, result.returned, errno)
  | .received data =>
      let n := data.length
      if n ≤ writeable then
        some ({ filled with writeIndex_ := filled.writeIndex_ + n }, result.returned, saveerrno)
      else if n - writeable ≤ extrabuf.length then do
        let full : Buffer := { filled with writeIndex_ := filled.buffer_.length }
        let b' ← full.append (extrabuf.take (n - writeable))
        some (b', result.returned, saveerrno)
      else none

theorem iov_eq_pair {b : Buffer} (h : b.writeableBytes < b.iov.sum) :
    b.iov = [b.writeableBytes, 1024 * 1024] := by
  rw [iov, iovcnt]
  split_ifs with hsmall
  · rfl
  · rw [iov, iovcnt, if_neg hsmall] at h
    simp at h

theorem scatter_first (b : Buffer) (data : List UInt8) :
    (scatter b.iov data).getD 0 [] = data.take b.writeableBytes := by
  rw [iov, iovcnt]
  split_ifs <;> rfl

/-- The second area holds the rest of the data, where the first was too short for it. -/
theorem take_extrabuf {b : Buffer} {data : List UInt8} (hlong : b.writeableBytes < data.length)
    (hresult : data.length ≤ b.iov.sum) (extrabuf : Extrabuf) :
    let filled := overwrite extrabuf.val 0 ((scatter b.iov data).getD 1 [])
    data.length - b.writeableBytes ≤ filled.length ∧
      filled.take (data.length - b.writeableBytes) = data.drop b.writeableBytes := by
  have hpair := iov_eq_pair (Nat.lt_of_lt_of_le hlong hresult)
  have hrest : (data.drop b.writeableBytes).length ≤ 1024 * 1024 := by
    rw [hpair] at hresult
    simp only [List.sum_cons, List.sum_nil] at hresult
    rw [List.length_drop]
    omega
  have hsecond : (scatter b.iov data).getD 1 [] = data.drop b.writeableBytes := by
    rw [hpair]
    exact List.take_of_length_le hrest
  intro filled
  have hfilled : filled = overwrite extrabuf.val 0 (data.drop b.writeableBytes) :=
    congrArg (overwrite extrabuf.val 0) hsecond
  rw [hfilled, ← List.length_drop]
  constructor
  · rw [length_overwrite (by rw [extrabuf.property]; omega), extrabuf.property]
    exact hrest
  · simp [overwrite]

/-- For data that fits the areas this is one append to the vector, at most in two parts. -/
theorem readFdSaving_received {b : Buffer} {data : List UInt8} (hresult : data.length ≤ b.iov.sum)
    (extrabuf : Extrabuf) (saveerrno : Int) :
    b.readFdSaving extrabuf saveerrno (.received data) =
      (b.readFd data).map fun b' => (b', (data.length : Int), saveerrno) := by
  simp only [readFdSaving, ReadvResult.data, ReadvResult.returned, scatter_first, readFd]
  by_cases hfits : data.length ≤ b.writeableBytes
  · rw [if_pos hfits, if_pos hfits]
    rfl
  · obtain ⟨hlength, hrest⟩ := take_extrabuf (Nat.lt_of_not_le hfits) hresult extrabuf
    rw [if_neg hfits, if_neg hfits, if_pos hlength, hrest]
    cases Buffer.append _ (data.drop b.writeableBytes) <;> rfl

/-- What `readFd` did to the buffer and to `saveerrno`. -/
def ReadFrom (b : Buffer) (saveerrno : Int) : ReadvResult → Buffer → Int → Prop
  | .received data, b', saved =>
      b'.InBounds ∧ b'.readable = b.readable ++ data ∧ saved = saveerrno
  | .failed errno, b', saved => b' = b ∧ saved = errno

/-- For every state of the buffer with its indices in order: `readFd` appends exactly the
bytes read and returns how many, and an error leaves the buffer alone. -/
theorem readFdSaving_readFrom {b : Buffer} (h : b.InBounds) {result : ReadvResult}
    (hresult : result.data.length ≤ b.iov.sum) (extrabuf : Extrabuf) (saveerrno : Int) :
    ∃ b' saved, b.readFdSaving extrabuf saveerrno result = some (b', result.returned, saved) ∧
      b.ReadFrom saveerrno result b' saved := by
  cases result with
  | received data =>
      have hfits : data.length ≤ b.iov.sum := hresult
      obtain ⟨b', hread, hextends⟩ := readFd_extends h data
      refine ⟨b', saveerrno, ?_, hextends.inBounds, hextends.readable, rfl⟩
      rw [readFdSaving_received hfits, hread]
      rfl
  | failed errno => exact ⟨b, errno, rfl, rfl, rfl⟩

/-- A full vector that is shorter than the prepend reserve. -/
theorem readFdSaving_readFrom_full :
    ∃ b', (⟨[1, 2, 3], 1, 3⟩ : Buffer).readFdSaving
        ⟨List.replicate (1024 * 1024) 0, List.length_replicate⟩ 11 (.received [7, 8]) =
          some (b', 2, 11) ∧ b'.readable = [2, 3, 7, 8] := by
  have hfits : (ReadvResult.received [7, 8]).data.length ≤
      (⟨[1, 2, 3], 1, 3⟩ : Buffer).iov.sum := by decide
  obtain ⟨b', saved, hread, _, hreadable, rfl⟩ :=
    readFdSaving_readFrom ⟨by decide, by decide⟩ hfits
      ⟨List.replicate (1024 * 1024) 0, List.length_replicate⟩ 11
  exact ⟨b', hread, hreadable⟩

end Buffer

end MuduoRpc
