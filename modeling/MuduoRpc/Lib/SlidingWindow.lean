import Mathlib.Tactic.Common

/-!
A window that slides over a vector: what it holds lies between a reader and a writer
index. It is moved back to a reserve at the front when that makes enough room, and the
vector grows otherwise.
-/

/-- The indices and the size of the vector, without its contents. -/
structure SlidingWindow where
  reader : Nat
  writer : Nat
  size : Nat
deriving DecidableEq, Repr

namespace SlidingWindow

def held (w : SlidingWindow) : Nat := w.writer - w.reader

def free (w : SlidingWindow) : Nat := w.size - w.writer

structure Ordered (w : SlidingWindow) : Prop where
  reader_le : w.reader ≤ w.writer
  writer_le : w.writer ≤ w.size

def extend (w : SlidingWindow) (n : Nat) : SlidingWindow := { w with writer := w.writer + n }

def cutBack (w : SlidingWindow) (n : Nat) : SlidingWindow := { w with writer := w.writer - n }

def pushFront (w : SlidingWindow) (n : Nat) : SlidingWindow := { w with reader := w.reader - n }

section Reserve

variable (reserve : Nat) (w : SlidingWindow) (n : Nat)

def rewind : SlidingWindow := { w with reader := reserve, writer := reserve }

/-- An emptied window starts over behind the reserve. -/
def drop : SlidingWindow :=
  if n < w.held then { w with reader := w.reader + n } else w.rewind reserve

def makeRoom : SlidingWindow :=
  if n ≤ w.free then w
  else if w.free + w.reader < n + reserve then { w with size := w.writer + n }
  else { w with reader := reserve, writer := reserve + w.held }

def push : SlidingWindow := (w.makeRoom reserve n).extend n

/-- The vector is filled up first. -/
def fill : SlidingWindow :=
  if n ≤ w.free then w.extend n else (w.extend w.free).push reserve (n - w.free)

/-- An empty window has the reserve in front of it. -/
def Rested : Prop := w.held = 0 → reserve ≤ w.reader

end Reserve

variable {reserve n : Nat} {w : SlidingWindow}

theorem Ordered.extend (h : w.Ordered) (hroom : n ≤ w.free) : (w.extend n).Ordered := by
  have hreader := h.reader_le
  have hwriter := h.writer_le
  unfold free at hroom
  constructor
  · change w.reader ≤ w.writer + n
    omega
  · change w.writer + n ≤ w.size
    omega

theorem held_extend (h : w.Ordered) (n : Nat) : (w.extend n).held = w.held + n := by
  have hreader := h.reader_le
  change w.writer + n - w.reader = w.writer - w.reader + n
  omega

theorem fill_zero (w : SlidingWindow) : w.fill reserve 0 = w := if_pos (Nat.zero_le w.free)

theorem held_makeRoom : (w.makeRoom reserve n).held = w.held := by
  unfold makeRoom
  split_ifs
  · rfl
  · rfl
  · exact Nat.add_sub_cancel_left reserve w.held

theorem held_push (h : w.Ordered) : (w.push reserve n).held = w.held + n := by
  unfold push makeRoom
  split_ifs
  · exact held_extend h n
  · exact held_extend h n
  · change reserve + w.held + n - reserve = w.held + n
    omega

/-- The vector grows only if what is free behind and in front of the window is less than
the request, so what it grows to is not much more than is held. -/
theorem size_makeRoom_le (h : w.Ordered) :
    (w.makeRoom reserve n).size ≤ max w.size (w.held + 2 * n + reserve) := by
  have hreader := h.reader_le
  have hwriter := h.writer_le
  unfold makeRoom
  split_ifs with hfits hshort
  · exact Nat.le_max_left _ _
  · unfold free at hshort
    unfold held
    change w.writer + n ≤ _
    omega
  · exact Nat.le_max_left _ _

theorem size_push_le (h : w.Ordered) :
    (w.push reserve n).size ≤ max w.size (w.held + 2 * n + reserve) :=
  size_makeRoom_le h

/-- The rest of a filling push counts from a full vector. -/
theorem size_fill_le (h : w.Ordered) :
    (w.fill reserve n).size ≤
      max w.size ((w.fill reserve n).held + 2 * (n - w.free) + reserve) := by
  unfold fill
  split_ifs with hfits
  · exact Nat.le_max_left _ _
  · have hfull := h.extend (Nat.le_refl w.free)
    have hgrown : ((w.extend w.free).push reserve (n - w.free)).size ≤
        max w.size ((w.extend w.free).held + 2 * (n - w.free) + reserve) := size_push_le hfull
    rw [held_push hfull]
    omega

theorem reserve_le_makeRoom (h : reserve ≤ w.reader) : reserve ≤ (w.makeRoom reserve n).reader := by
  unfold makeRoom
  split_ifs
  · exact h
  · exact h
  · exact Nat.le_refl reserve

theorem rested_rewind : (w.rewind reserve).Rested reserve := fun _ => Nat.le_refl reserve

theorem rested_drop : (w.drop reserve n).Rested reserve := by
  unfold drop
  split_ifs with hpart
  · intro hempty
    unfold held at hpart
    change w.writer - (w.reader + n) = 0 at hempty
    omega
  · exact rested_rewind

theorem Rested.makeRoom (h : w.Rested reserve) : (w.makeRoom reserve n).Rested reserve := by
  intro hempty
  rw [held_makeRoom] at hempty
  exact reserve_le_makeRoom (h hempty)

theorem Rested.extend (hordered : w.Ordered) (h : w.Rested reserve) :
    (w.extend n).Rested reserve := by
  intro hempty
  rw [held_extend hordered] at hempty
  exact h (by omega)

theorem Rested.push (hordered : w.Ordered) (h : w.Rested reserve) :
    (w.push reserve n).Rested reserve := by
  intro hempty
  rw [held_push hordered] at hempty
  exact reserve_le_makeRoom (h (by omega))

theorem Rested.fill (hordered : w.Ordered) (h : w.Rested reserve) :
    (w.fill reserve n).Rested reserve := by
  unfold SlidingWindow.fill
  split_ifs
  · exact h.extend hordered
  · exact (h.extend hordered).push (hordered.extend (Nat.le_refl w.free))

theorem Rested.pushFront (hordered : w.Ordered) (h : w.Rested reserve) (hn : n ≤ w.reader) :
    (w.pushFront n).Rested reserve := by
  intro hempty
  have hreader := hordered.reader_le
  have hback := h
  unfold Rested held at hback
  change w.writer - (w.reader - n) = 0 at hempty
  change reserve ≤ w.reader - n
  omega

/-- Cutting back is what can leave an empty window within the reserve. -/
theorem rested_cutBack_iff (hordered : w.Ordered) (hn : n ≤ w.held) :
    (w.cutBack n).Rested reserve ↔ (n = w.held → reserve ≤ w.reader) := by
  have hreader := hordered.reader_le
  have hheld : (w.cutBack n).held = 0 ↔ n = w.held := by
    unfold held at hn ⊢
    change w.writer - n - w.reader = 0 ↔ _
    omega
  exact imp_congr hheld Iff.rfl

end SlidingWindow
