import Mathlib.Tactic

/-!
# Buffers of a fixed size

A copy into a buffer is checked against its bounds: `blit` yields `none` when
one of the cells it would write lies outside.  `upTo` reads a buffer back up to
a terminator, and yields `none` when it has none.
-/

namespace EspIotivity.Foundation

universe u

structure Buffer (α : Type u) (size : Nat) where
  cells : List α
  cells_length : cells.length = size
  deriving DecidableEq, Repr

namespace Buffer

variable {α : Type u} {size : Nat}

def replicate (size : Nat) (item : α) : Buffer α size :=
  ⟨List.replicate size item, List.length_replicate⟩

def blit (b : Buffer α size) (index : Int) (items : List α) :
    Option (Buffer α size) :=
  if h : 0 ≤ index ∧ index.toNat + items.length ≤ size then
    some ⟨b.cells.take index.toNat ++ items ++
      b.cells.drop (index.toNat + items.length), by
        have hlength := b.cells_length
        simp only [List.length_append, List.length_take, List.length_drop]
        omega⟩
  else none

theorem blit_none (b : Buffer α size) {index : Int} {items : List α}
    (h : (size : Int) < index + items.length) : b.blit index items = none := by
  apply dif_neg
  rintro ⟨hindex, hroom⟩
  omega

theorem blit_some (b : Buffer α size) (index : Int) (items : List α)
    (hindex : 0 ≤ index) (hroom : index + items.length ≤ size) :
    ∃ c, b.blit index items = some c :=
  ⟨_, dif_pos ⟨hindex, by omega⟩⟩

/-- What stands before the copy stays, and the copied items follow it. -/
theorem take_blit {b c : Buffer α size} {index : Int} {items : List α}
    (h : b.blit index items = some c) :
    c.cells.take (index.toNat + items.length) =
      b.cells.take index.toNat ++ items := by
  unfold blit at h
  split at h
  case isTrue hroom =>
    cases h
    have hlength : (b.cells.take index.toNat ++ items).length =
        index.toNat + items.length := by
      have := b.cells_length
      simp only [List.length_append, List.length_take]
      omega
    exact List.take_left' hlength
  case isFalse => cases h

theorem take_of_take {b : Buffer α size} {n m : Nat} {items : List α}
    (h : b.cells.take n = items) (hm : m ≤ n) :
    b.cells.take m = items.take m := by
  rw [← h, List.take_take, Nat.min_eq_left hm]

section Terminated

variable [DecidableEq α]

def upTo (stop : α) (b : Buffer α size) : Option (List α) :=
  if stop ∈ b.cells then some (b.cells.takeWhile (· ≠ stop)) else none

theorem upTo_of_take {b : Buffer α size} {stop : α} {items : List α} {n : Nat}
    (h : b.cells.take n = items ++ [stop]) (hitems : stop ∉ items) :
    b.upTo stop = some items := by
  have hcells : b.cells = items ++ stop :: b.cells.drop n := by
    calc b.cells = b.cells.take n ++ b.cells.drop n :=
          (List.take_append_drop n b.cells).symm
      _ = items ++ stop :: b.cells.drop n := by simp [h]
  have hall : ∀ item ∈ items, decide (item ≠ stop) = true := by
    intro item hitem
    exact decide_eq_true fun heq => hitems (heq ▸ hitem)
  unfold upTo
  rw [hcells, if_pos (by simp), List.takeWhile_append_of_pos hall]
  simp

end Terminated

end Buffer

end EspIotivity.Foundation
