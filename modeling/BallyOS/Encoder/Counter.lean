import BallyOS.Library.Carrying
import BallyOS.Library.Run

/-! A wheel's encoder: the disc gives two levels, the pulse unit counts their
edges, its interrupt carries what it had counted up to a limit into a counter of
64 bits, and the filter's task takes differences of both together. On this
processor a variable of 64 bits is two words, each read and written on its own,
so the interrupt, a task that clears the encoder and one that reads it meet
between any two of them. -/
namespace BallyOS.Encoder
open Library

inductive Pin
  | pinA
  | pinB
deriving Repr, DecidableEq

inductive EdgeAction
  | hold
  | increase
  | decrease
deriving Repr, DecidableEq

inductive LevelAction
  | keep
  | inverse
  | hold
deriving Repr, DecidableEq

/-- A channel of the pulse unit: whose edges it counts, at what level of the other pin. -/
structure Channel where
  edge_gpio_num : Pin
  level_gpio_num : Pin
  pos_act : EdgeAction
  neg_act : EdgeAction
  high_act : LevelAction
  low_act : LevelAction
deriving Repr, DecidableEq

def EdgeAction.change : EdgeAction → Int
  | hold => 0
  | increase => 1
  | decrease => -1

def LevelAction.apply : LevelAction → Int → Int
  | keep, change => change
  | inverse, change => -change
  | hold, _ => 0

/-- What a channel counts between two pairs of levels, which differ in one pin at most. -/
def Channel.counts (channel : Channel) (before after : Pin → Bool) : Int :=
  if before channel.edge_gpio_num = after channel.edge_gpio_num then 0
  else
    (if after channel.level_gpio_num then channel.high_act else channel.low_act).apply
      (if after channel.edge_gpio_num then channel.pos_act else channel.neg_act).change

def channel_a : Channel where
  edge_gpio_num := .pinA
  level_gpio_num := .pinB
  pos_act := .decrease
  neg_act := .increase
  high_act := .inverse
  low_act := .keep

def channel_b : Channel where
  edge_gpio_num := .pinB
  level_gpio_num := .pinA
  pos_act := .decrease
  neg_act := .increase
  high_act := .keep
  low_act := .inverse

def unit_config : CounterLimits where
  low := -32768
  high := 32767
  low_neg := by decide
  high_pos := by decide

/-- The disc's two tracks, a quarter of a period apart. -/
def levels (position : Int) : Pin → Bool
  | .pinA => position % 4 = 1 ∨ position % 4 = 2
  | .pinB => position % 4 = 0 ∨ position % 4 = 1

/-- Two words of a variable of 64 bits. -/
structure Words where
  low : UInt32
  high : UInt32
deriving Repr, DecidableEq

def Words.of (value : Int64) : Words where
  low := value.toUInt64.toUInt32
  high := (value.toUInt64 >>> 32).toUInt32

def Words.value (words : Words) : Int64 :=
  (UInt64.ofNat (words.high.toNat * 2 ^ 32 + words.low.toNat)).toInt64

def Words.stored (words : Words) (high : Bool) : Words :=
  if high then { words with high := 0 } else { words with low := 0 }

theorem value_of (value : Int64) : (Words.of value).value = value := by
  have small := value.toUInt64.toNat_lt
  have joined : (Words.of value).high.toNat * 2 ^ 32 + (Words.of value).low.toNat =
      value.toUInt64.toNat := by
    simp only [Words.of, UInt64.toNat_toUInt32, UInt64.toNat_shiftRight]
    rw [show (32 : UInt64).toNat % 64 = 32 from rfl, Nat.shiftRight_eq_div_pow]
    omega
  rw [Words.value, joined, UInt64.ofNat_toNat, Int64.toInt64_toUInt64]

/-- Where `clearPCNT` is. -/
inductive Clearing
  | idle
  | unitCleared
  | stored (high : Bool)
deriving Repr, DecidableEq

/-- What `getCount` has loaded so far. -/
structure Loads where
  raw : Option Int := none
  low : Option UInt32 := none
  high : Option UInt32 := none
deriving Repr, DecidableEq

/-- `way` is how far the wheel was turned since the encoder was cleared, while it counted,
and `diffs` what `getCountDiff` has returned, the newest first. -/
structure System where
  position : Int
  way : Int
  running : Bool
  unit : Narrow
  counter : Words
  last_counter : Int64
  clearing : Clearing
  loads : Loads
  diffs : List Int64
deriving Repr, DecidableEq

inductive Event
  | turn (forward : Bool)
  | interrupt
  | loadRaw
  | loadWord (high : Bool)
  | getCountDiff
  | clearUnit
  | storeZero (high : Bool)
  | pausePCNT
  | resumePCNT
deriving Repr, DecidableEq

/-- After `init`, with the wheel anywhere. -/
def System.init (position : Int) : System where
  position := position
  way := 0
  running := true
  unit := .zero
  counter := .of 0
  last_counter := 0
  clearing := .idle
  loads := {}
  diffs := []

def turnedTo (position : Int) (forward : Bool) : Int :=
  if forward then position + 1 else position - 1

def System.turn (system : System) (forward : Bool) : System :=
  let position := turnedTo system.position forward
  if system.running then
    let change := channel_a.counts (levels system.position) (levels position) +
      channel_b.counts (levels system.position) (levels position)
    { system with
      position := position
      way := turnedTo system.way forward
      unit := system.unit.count unit_config change }
  else { system with position := position }

def overflow (counter : Words) (watch_val : Int) : Words :=
  if watch_val = 32767 then .of (counter.value + 32767)
  else if watch_val = -32768 then .of (counter.value + -32768)
  else counter

def getCount (raw : Int) (low high : UInt32) : Int64 :=
  (Words.mk low high).value + Int64.ofInt raw

def step : Machine System Event := fun system event =>
  match event with
  | .turn forward => some (system.turn forward)
  | .interrupt =>
    system.unit.waiting.map fun watch_val =>
      { system with unit := system.unit.carried, counter := overflow system.counter watch_val }
  | .loadRaw => some { system with loads := { system.loads with raw := some system.unit.raw } }
  | .loadWord high =>
    some { system with loads :=
      if high then { system.loads with high := some system.counter.high }
      else { system.loads with low := some system.counter.low } }
  | .getCountDiff =>
    match system.loads with
    | { raw := some raw, low := some low, high := some high } =>
      let current_count := getCount raw low high
      some { system with
        diffs := (current_count - system.last_counter) :: system.diffs
        last_counter := current_count
        loads := {} }
    | _ => none
  | .clearUnit =>
    if system.clearing = .idle then
      some { system with
        unit := { system.unit with raw := 0 }, way := 0, clearing := .unitCleared }
    else none
  | .storeZero high =>
    match system.clearing with
    | .idle => none
    | .unitCleared =>
      some { system with counter := system.counter.stored high, clearing := .stored high }
    | .stored earlier =>
      if earlier = high then none
      else some { system with counter := system.counter.stored high, clearing := .idle }
  | .pausePCNT => some { system with running := false }
  | .resumePCNT => some { system with running := true }

/-! ### The decoding -/

private theorem levels_mod (position : Int) : levels (position % 4) = levels position := by
  funext pin
  cases pin <;> simp [levels]

private theorem levels_turnedTo (position : Int) (forward : Bool) :
    levels (turnedTo position forward) = levels (turnedTo (position % 4) forward) := by
  rw [← levels_mod, ← levels_mod (turnedTo (position % 4) forward)]
  cases forward <;> simp [turnedTo]

/-- Each quarter of a period is one edge, and the channels give it the wheel's direction. -/
theorem counts_turn (position : Int) (forward : Bool) :
    channel_a.counts (levels position) (levels (turnedTo position forward)) +
      channel_b.counts (levels position) (levels (turnedTo position forward)) =
        if forward then 1 else -1 := by
  have quarter :
      position % 4 = 0 ∨ position % 4 = 1 ∨ position % 4 = 2 ∨ position % 4 = 3 := by omega
  rw [levels_turnedTo, ← levels_mod position]
  generalize position % 4 = phase at quarter
  rcases quarter with rfl | rfl | rfl | rfl <;> cases forward <;> rfl

theorem turn_way (system : System) (forward : Bool) (running : system.running = true) :
    system.turn forward = { system with
      position := turnedTo system.position forward
      way := turnedTo system.way forward
      unit := system.unit.count unit_config (if forward then 1 else -1) } := by
  simp only [System.turn, running, if_true, counts_turn]

end BallyOS.Encoder
