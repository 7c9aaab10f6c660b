import EspIotivity.Foundation.Narrowing

/-!
# The commanded bulb state

`s_bulb_state` is the one piece of state the server's request handler and the
lamp daemon share.  `notify_lightbulb_state` is modelled by the stores it makes,
in source order, so that the same definition serves where the call is taken as
a whole and where another task runs between two of its stores.
-/

namespace EspIotivity.Lightbulb

open EspIotivity.Foundation

inductive BulbColor where
  | off
  | red
  | green
  | blue
  | others
  deriving DecidableEq, Repr

def BulbColor.ofCode (state : UInt32) : Option BulbColor :=
  match state.toNat with
  | 0 => some .off
  | 1 => some .red
  | 2 => some .green
  | 3 => some .blue
  | 4 => some .others
  | _ => none

structure BulbState where
  setOn : Bool
  hueValue : ℚ
  saturationValue : ℚ
  brightnessValue : Int
  flashInterval : Int
  deriving DecidableEq, Repr

def BulbState.boot : BulbState := ⟨false, 0, 0, 0, 0⟩

inductive BulbWrite where
  | setOn (value : Bool)
  | hueValue (value : ℚ)
  | saturationValue (value : ℚ)
  | brightnessValue (value : Int)
  | flashInterval (value : Int)
  deriving DecidableEq, Repr

def BulbWrite.store : BulbWrite → BulbState → BulbState
  | .setOn value, s => { s with setOn := value }
  | .hueValue value, s => { s with hueValue := value }
  | .saturationValue value, s => { s with saturationValue := value }
  | .brightnessValue value, s => { s with brightnessValue := value }
  | .flashInterval value, s => { s with flashInterval := value }

/-- The stores of the `switch (state)`; `rand` is what `rand()` returns. -/
def colorWrites (state : UInt32) (rand : Nat → Nat) : List BulbWrite :=
  match BulbColor.ofCode state with
  | some .off => [.setOn false]
  | some .red =>
      [.setOn true, .hueValue 0, .saturationValue 100, .brightnessValue 20]
  | some .green =>
      [.setOn true, .hueValue 120, .saturationValue 100, .brightnessValue 20]
  | some .blue =>
      [.setOn true, .hueValue 240, .saturationValue 100, .brightnessValue 20]
  | some .others =>
      [.setOn true, .hueValue (rand 0 % 360 : Nat),
        .saturationValue (rand 1 % 50 : Nat),
        .brightnessValue (rand 2 % 50 : Nat)]
  | none => []

def notifyWrites (state : UInt32) (flashInterval : Int) (rand : Nat → Nat) :
    List BulbWrite :=
  colorWrites state rand ++ [.flashInterval flashInterval]

def storeAll (writes : List BulbWrite) (s : BulbState) : BulbState :=
  writes.foldl (fun s write => write.store s) s

def notifyLightbulbState (state : UInt32) (flashInterval : Int)
    (rand : Nat → Nat) (s : BulbState) : BulbState :=
  storeAll (notifyWrites state flashInterval rand) s

def randCalls (state : UInt32) : Nat :=
  if BulbColor.ofCode state = some .others then 3 else 0

@[simp] theorem storeAll_nil (s : BulbState) : storeAll [] s = s := rfl

@[simp] theorem storeAll_cons (write : BulbWrite) (writes : List BulbWrite)
    (s : BulbState) :
    storeAll (write :: writes) s = storeAll writes (write.store s) := rfl

theorem storeAll_append (first second : List BulbWrite) (s : BulbState) :
    storeAll (first ++ second) s = storeAll second (storeAll first s) :=
  List.foldl_append

/-! ## What a notification leaves -/

structure BulbColour where
  hueValue : ℚ
  saturationValue : ℚ
  brightnessValue : Int
  deriving DecidableEq, Repr

def BulbState.colour (s : BulbState) : BulbColour :=
  ⟨s.hueValue, s.saturationValue, s.brightnessValue⟩

def switchOf (state : UInt32) : Option Bool :=
  (BulbColor.ofCode state).map (· != .off)

def colourOf (state : UInt32) (rand : Nat → Nat) : Option BulbColour :=
  match BulbColor.ofCode state with
  | some .red => some ⟨0, 100, 20⟩
  | some .green => some ⟨120, 100, 20⟩
  | some .blue => some ⟨240, 100, 20⟩
  | some .others =>
      some ⟨(rand 0 % 360 : Nat), (rand 1 % 50 : Nat), (rand 2 % 50 : Nat)⟩
  | some .off | none => none

theorem notify_setOn (state : UInt32) (flashInterval : Int)
    (rand : Nat → Nat) (s : BulbState) :
    (notifyLightbulbState state flashInterval rand s).setOn =
      (switchOf state).getD s.setOn := by
  simp only [notifyLightbulbState, notifyWrites, colorWrites, switchOf,
    storeAll_append]
  cases BulbColor.ofCode state with
  | none => rfl
  | some color => cases color <;> rfl

theorem notify_colour (state : UInt32) (flashInterval : Int)
    (rand : Nat → Nat) (s : BulbState) :
    (notifyLightbulbState state flashInterval rand s).colour =
      (colourOf state rand).getD s.colour := by
  simp only [notifyLightbulbState, notifyWrites, colorWrites, colourOf,
    storeAll_append]
  cases BulbColor.ofCode state with
  | none => rfl
  | some color => cases color <;> rfl

@[simp] theorem notify_flashInterval (state : UInt32) (flashInterval : Int)
    (rand : Nat → Nat) (s : BulbState) :
    (notifyLightbulbState state flashInterval rand s).flashInterval =
      flashInterval := by
  simp [notifyLightbulbState, notifyWrites, storeAll_append, BulbWrite.store]

theorem notify_unknown {state : UInt32} (h : BulbColor.ofCode state = none)
    (flashInterval : Int) (rand : Nat → Nat) (s : BulbState) :
    notifyLightbulbState state flashInterval rand s =
      { s with flashInterval } := by
  simp [notifyLightbulbState, notifyWrites, colorWrites, h, BulbWrite.store]

theorem bulbState_eq_iff {s t : BulbState} :
    s = t ↔ s.setOn = t.setOn ∧ s.colour = t.colour ∧
      s.flashInterval = t.flashInterval := by
  rcases s with ⟨on, hue, saturation, brightness, flash⟩
  rcases t with ⟨on', hue', saturation', brightness', flash'⟩
  simp [BulbState.colour, and_assoc]

/-! ## The values a notification can leave -/

structure BulbState.InRange (s : BulbState) : Prop where
  hue : ∃ n : Nat, s.hueValue = n ∧ n < 360
  saturation : ∃ n : Nat, s.saturationValue = n ∧ n ≤ 100
  brightness : ∃ n : Nat, s.brightnessValue = n ∧ n < 50

def BulbWrite.InRange : BulbWrite → Prop
  | .setOn _ => True
  | .hueValue value => ∃ n : Nat, value = n ∧ n < 360
  | .saturationValue value => ∃ n : Nat, value = n ∧ n ≤ 100
  | .brightnessValue value => ∃ n : Nat, value = n ∧ n < 50
  | .flashInterval _ => True

theorem boot_inRange : BulbState.boot.InRange :=
  ⟨⟨0, by simp [BulbState.boot]⟩, ⟨0, by simp [BulbState.boot]⟩,
    ⟨0, by simp [BulbState.boot]⟩⟩

theorem store_inRange {write : BulbWrite} {s : BulbState}
    (hwrite : write.InRange) (hs : s.InRange) : (write.store s).InRange := by
  cases write with
  | setOn value => exact ⟨hs.hue, hs.saturation, hs.brightness⟩
  | hueValue value => exact ⟨hwrite, hs.saturation, hs.brightness⟩
  | saturationValue value => exact ⟨hs.hue, hwrite, hs.brightness⟩
  | brightnessValue value => exact ⟨hs.hue, hs.saturation, hwrite⟩
  | flashInterval value => exact ⟨hs.hue, hs.saturation, hs.brightness⟩

theorem storeAll_inRange {writes : List BulbWrite} {s : BulbState}
    (hwrites : ∀ write ∈ writes, write.InRange) (hs : s.InRange) :
    (storeAll writes s).InRange := by
  induction writes generalizing s with
  | nil => exact hs
  | cons write writes ih =>
      rw [List.forall_mem_cons] at hwrites
      exact ih hwrites.2 (store_inRange hwrites.1 hs)

private theorem color_inRange {h s : ℚ} {b : Int}
    (hh : ∃ n : Nat, h = n ∧ n < 360) (hs : ∃ n : Nat, s = n ∧ n ≤ 100)
    (hb : ∃ n : Nat, b = n ∧ n < 50) :
    ∀ write ∈ [BulbWrite.setOn true, .hueValue h, .saturationValue s,
      .brightnessValue b], write.InRange := by
  intro write hwrite
  simp only [List.mem_cons, List.not_mem_nil, or_false] at hwrite
  rcases hwrite with rfl | rfl | rfl | rfl
  · trivial
  · exact hh
  · exact hs
  · exact hb

theorem colorWrites_inRange (state : UInt32) (rand : Nat → Nat) :
    ∀ write ∈ colorWrites state rand, write.InRange := by
  have hfull : ∃ n : Nat, (100 : ℚ) = n ∧ n ≤ 100 := ⟨100, by norm_num, le_rfl⟩
  have hdim : ∃ n : Nat, (20 : Int) = n ∧ n < 50 := ⟨20, rfl, by decide⟩
  unfold colorWrites
  split
  · simp [BulbWrite.InRange]
  · exact color_inRange ⟨0, by norm_num, by decide⟩ hfull hdim
  · exact color_inRange ⟨120, by norm_num, by decide⟩ hfull hdim
  · exact color_inRange ⟨240, by norm_num, by decide⟩ hfull hdim
  · exact color_inRange ⟨_, rfl, Nat.mod_lt _ (by decide)⟩
      ⟨_, rfl, (Nat.mod_lt _ (by decide)).le.trans (by decide)⟩
      ⟨_, rfl, Nat.mod_lt _ (by decide)⟩
  · simp

theorem notify_inRange (state : UInt32) (flashInterval : Int)
    (rand : Nat → Nat) {s : BulbState} (hs : s.InRange) :
    (notifyLightbulbState state flashInterval rand s).InRange := by
  refine storeAll_inRange ?_ hs
  intro write hwrite
  rcases List.mem_append.mp hwrite with hcolor | hflash
  · exact colorWrites_inRange state rand write hcolor
  · rw [List.mem_singleton.mp hflash]
    trivial

end EspIotivity.Lightbulb
