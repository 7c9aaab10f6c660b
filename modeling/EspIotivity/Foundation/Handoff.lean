import Mathlib.Data.List.Basic
import Mathlib.Tactic

/-!
# Objects that are filled and handed on

A trace records, for numbered objects, that one was acquired, that an attempt
was made to fill it from a source, and that it was released or delivered.
`ExactlyOnce` asks that each object be filled at most once, that what it was
filled with be delivered in it, and that nothing else be.
-/

namespace EspIotivity.Foundation

universe u v w

inductive HandoffEvent (Source : Type u) (Content : Type v) (Item : Type w) where
  | acquire
  | attempt (source : Source) (result : Option Content)
  | release
  | deliver (item : Item)

abbrev HandoffTrace (Source : Type u) (Content : Type v) (Item : Type w) :=
  List (Nat × HandoffEvent Source Content Item)

variable {Source : Type u} {Content : Type v} {Item : Type w}

def fills : List (HandoffEvent Source Content Item) → List (Source × Content)
  | [] => []
  | .attempt source (some content) :: rest => (source, content) :: fills rest
  | _ :: rest => fills rest

def deliveries : List (HandoffEvent Source Content Item) → List Item
  | [] => []
  | .deliver item :: rest => item :: deliveries rest
  | _ :: rest => deliveries rest

def endings : List (HandoffEvent Source Content Item) → Nat
  | [] => 0
  | .release :: rest => endings rest + 1
  | .deliver _ :: rest => endings rest + 1
  | _ :: rest => endings rest

def history (object : Nat) (trace : HandoffTrace Source Content Item) :
    List (HandoffEvent Source Content Item) :=
  (trace.filter (·.1 = object)).map Prod.snd

structure Orderly (Holds : Source → Content → Item → Prop)
    (events : List (HandoffEvent Source Content Item)) : Prop where
  /-- A filling is the only one and is followed by one delivery. -/
  delivered : ∀ before source content after,
    events = before ++ .attempt source (some content) :: after →
      fills before = [] ∧ fills after = [] ∧ deliveries before = [] ∧
        ∃ item, deliveries after = [item] ∧ Holds source content item
  /-- Nothing is delivered unfilled. -/
  filled : deliveries events ≠ [] → fills events ≠ []
  /-- What was acquired is released or delivered, once. -/
  ended : .acquire ∈ events → endings events = 1

def ExactlyOnce (Holds : Source → Content → Item → Prop)
    (trace : HandoffTrace Source Content Item) : Prop :=
  ∀ object, Orderly Holds (history object trace)

variable {Holds : Source → Content → Item → Prop}

theorem orderly_nil : Orderly Holds [] := by
  constructor <;> simp [deliveries]

theorem exactlyOnce_nil : ExactlyOnce Holds [] := fun _ => orderly_nil

theorem orderly_released (source : Source) :
    Orderly Holds [.acquire, .attempt source none, .release] := by
  constructor
  case delivered =>
    intro before source' content after hsplit
    have hmem : HandoffEvent.attempt source' (some content) ∈
        before ++ .attempt source' (some content) :: after := by simp
    rw [← hsplit] at hmem
    simp at hmem
  case filled => simp [deliveries]
  case ended => simp [endings]

theorem orderly_delivered {source : Source} {content : Content} {item : Item}
    (h : Holds source content item) :
    Orderly Holds
      [.acquire, .attempt source (some content), .deliver item] := by
  constructor
  case delivered =>
    intro before source' content' after hsplit
    -- The filling is the second of the three events.
    rcases before with _ | ⟨first, _ | ⟨second, _ | ⟨third, before⟩⟩⟩
    all_goals simp at hsplit
    obtain ⟨rfl, ⟨rfl, rfl⟩, rfl⟩ := hsplit
    simp [fills, deliveries, h]
  case filled => simp [fills]
  case ended => simp [endings]

theorem Orderly.holds {source : Source} {content : Content} {item : Item}
    (h : Orderly Holds
      [.acquire, .attempt source (some content), .deliver item]) :
    Holds source content item := by
  obtain ⟨-, -, -, other, hother, hholds⟩ :=
    h.delivered [.acquire] source content [.deliver item] rfl
  cases hother
  exact hholds

theorem not_orderly_lost {source : Source} {content : Content}
    {rest : List (HandoffEvent Source Content Item)}
    (h : deliveries rest = [] ∨ fills rest ≠ []) :
    ¬ Orderly Holds (.acquire :: .attempt source (some content) :: rest) := by
  intro horderly
  obtain ⟨-, hfills, -, item, hitem, -⟩ :=
    horderly.delivered [.acquire] source content rest rfl
  rcases h with h | h
  · rw [h] at hitem
    cases hitem
  · exact h hfills

theorem history_append (object : Nat)
    (first second : HandoffTrace Source Content Item) :
    history object (first ++ second) =
      history object first ++ history object second := by
  simp [history]

theorem history_of_ne {object : Nat}
    {trace : HandoffTrace Source Content Item}
    (h : ∀ event ∈ trace, event.1 ≠ object) : history object trace = [] := by
  simpa [history, List.filter_eq_nil_iff] using fun a b hab => h (a, b) hab

theorem history_tagged (object : Nat)
    (events : List (HandoffEvent Source Content Item)) :
    history object (events.map fun event => (object, event)) = events := by
  simp [history, List.filter_map, Function.comp_def]

theorem fills_append (first second : List (HandoffEvent Source Content Item)) :
    fills (first ++ second) = fills first ++ fills second := by
  induction first with
  | nil => rfl
  | cons event first ih =>
      cases event with
      | attempt source result => cases result <;> simp [fills, ih]
      | acquire | release | deliver => simpa [fills] using ih

theorem deliveries_append
    (first second : List (HandoffEvent Source Content Item)) :
    deliveries (first ++ second) = deliveries first ++ deliveries second := by
  induction first with
  | nil => rfl
  | cons event first ih => cases event <;> simp [deliveries, ih]

/-- What was filled in is delivered, in the same order, and nothing else. -/
def Forwards (Holds : Source → Content → Item → Prop)
    (events : List (HandoffEvent Source Content Item)) : Prop :=
  List.Forall₂ (fun fill item => Holds fill.1 fill.2 item) (fills events)
    (deliveries events)

theorem forall₂_append_iff {α : Type u} {β : Type v} {R : α → β → Prop}
    {l : List α} {m : List β} (h : List.Forall₂ R l m) (l' : List α)
    (m' : List β) :
    List.Forall₂ R (l ++ l') (m ++ m') ↔ List.Forall₂ R l' m' := by
  induction h with
  | nil => rfl
  | cons hhead _ ih =>
      rw [List.cons_append, List.cons_append, List.forall₂_cons, ih]
      exact and_iff_right hhead

theorem forwards_append_iff
    {first second : List (HandoffEvent Source Content Item)}
    (hfirst : Forwards Holds first) :
    Forwards Holds (first ++ second) ↔ Forwards Holds second := by
  rw [Forwards, fills_append, deliveries_append]
  exact forall₂_append_iff hfirst _ _

theorem deliver_mem {item : Item}
    {events : List (HandoffEvent Source Content Item)} :
    item ∈ deliveries events ↔ .deliver item ∈ events := by
  induction events with
  | nil => simp [deliveries]
  | cons event events ih => cases event <;> simp [deliveries, ih]

theorem mem_history {object : Nat} {trace : HandoffTrace Source Content Item}
    {event : HandoffEvent Source Content Item} :
    event ∈ history object trace ↔ (object, event) ∈ trace := by
  simp [history]

/-- A new object's events can be judged by themselves. -/
theorem exactlyOnce_append {object : Nat}
    {trace : HandoffTrace Source Content Item}
    (hnew : ∀ event ∈ trace, event.1 ≠ object)
    (events : List (HandoffEvent Source Content Item)) :
    ExactlyOnce Holds (trace ++ events.map fun event => (object, event)) ↔
      ExactlyOnce Holds trace ∧ Orderly Holds events := by
  have hother : ∀ other, other ≠ object →
      history other (events.map fun event => (object, event)) = [] := by
    intro other hne
    apply history_of_ne
    rintro event hevent rfl
    obtain ⟨e, -, rfl⟩ := List.mem_map.mp hevent
    exact hne rfl
  constructor
  · intro h
    constructor
    · intro other
      by_cases hother' : other = object
      · rw [hother', history_of_ne hnew]
        exact orderly_nil
      · have := h other
        rwa [history_append, hother other hother', List.append_nil] at this
    · have := h object
      rwa [history_append, history_of_ne hnew, history_tagged,
        List.nil_append] at this
  · rintro ⟨htrace, hevents⟩ other
    rw [history_append]
    by_cases hother' : other = object
    · rw [hother', history_of_ne hnew, history_tagged]
      exact hevents
    · rw [hother other hother', List.append_nil]
      exact htrace other

end EspIotivity.Foundation
