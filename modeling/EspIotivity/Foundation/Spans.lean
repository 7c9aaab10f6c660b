import Mathlib.Data.List.Basic
import Mathlib.Tactic

/-!
# A list handed over in pieces

Spans of positions that follow one another without a gap.  They are disjoint
and in order, and what a list has at them, put together, is what it has between
the start of the first and the end of the last.
-/

namespace EspIotivity.Foundation

universe u

/-- The positions from `first` on that are before `last`; there are some. -/
structure Span where
  first : Nat
  last : Nat
  nonempty : first < last
  deriving DecidableEq, Repr

def Span.slice {α : Type u} (span : Span) (items : List α) : List α :=
  (items.drop span.first).take (span.last - span.first)

/-- Each span starts where the one before it ends, from `start` to `stop`. -/
def Chained : Nat → List Span → Nat → Prop
  | start, [], stop => start = stop
  | start, span :: spans, stop =>
      span.first = start ∧ Chained span.last spans stop

namespace Chained

variable {start stop : Nat} {spans : List Span}

theorem le (h : Chained start spans stop) : start ≤ stop := by
  induction spans generalizing start with
  | nil => exact Eq.le h
  | cons span spans ih =>
      obtain ⟨rfl, hrest⟩ := h
      exact span.nonempty.le.trans (ih hrest)

theorem first_ge (h : Chained start spans stop) :
    ∀ span ∈ spans, start ≤ span.first := by
  induction spans generalizing start with
  | nil => simp
  | cons span spans ih =>
      obtain ⟨rfl, hrest⟩ := h
      rw [List.forall_mem_cons]
      refine ⟨le_rfl, fun later hlater => ?_⟩
      exact span.nonempty.le.trans (ih hrest later hlater)

theorem ordered (h : Chained start spans stop) :
    spans.Pairwise fun span later => span.last ≤ later.first := by
  induction spans generalizing start with
  | nil => exact .nil
  | cons span spans ih =>
      obtain ⟨-, hrest⟩ := h
      exact .cons hrest.first_ge (ih hrest)

theorem slices {α : Type u} (h : Chained start spans stop) (items : List α) :
    spans.flatMap (·.slice items) = (items.take stop).drop start := by
  induction spans generalizing start with
  | nil =>
      obtain rfl : start = stop := h
      simp
  | cons span spans ih =>
      obtain ⟨rfl, hrest⟩ := h
      have hle := hrest.le
      have hslice : span.slice items =
          ((items.take stop).drop span.first).take (span.last - span.first) := by
        rw [← List.drop_take, List.take_take, Nat.min_eq_left hle,
          List.drop_take, Span.slice]
      have hlater : (items.take stop).drop span.last =
          ((items.take stop).drop span.first).drop (span.last - span.first) := by
        rw [List.drop_drop, Nat.add_sub_cancel' span.nonempty.le]
      rw [List.flatMap_cons, ih hrest, hslice, hlater, List.take_append_drop]

end Chained

end EspIotivity.Foundation
