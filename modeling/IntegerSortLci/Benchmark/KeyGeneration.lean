import IntegerSortLci.Benchmark.Randlc
import IntegerSortLci.Foundations.ModularPowers

/-!
# Key generation

`find_my_seed` and `generate_keys` of `key_generation.cpp`. A rank jumps to its own place
in the random stream and draws four numbers for each of its keys, so that together the
ranks draw the stream that one rank would draw alone.

The counts and ranks are natural numbers. The scale of the keys is an `int`: the driver
passes `MAX_KEY`, and a larger bound would not survive the conversion.
-/

namespace IntegerSortLci.Benchmark

open IntegerSortLci.Foundations

set_option autoImplicit false

/-- The variables of `find_my_seed` that are passed to `randlc`. -/
inductive SeedVariable where
  | t1 | t2
  deriving DecidableEq

/-- The parameters of `generate_keys` that are passed to `randlc`. -/
inductive KeyVariable where
  | seed | multiplier
  deriving DecidableEq

structure FoundSeed where
  seed : Rat
  statics : Option RandlcConstants

structure KeyStep where
  memory : DoubleMemory KeyVariable
  key : Int

structure GeneratedKeys where
  keys : List Int
  statics : Option RandlcConstants

/-- `for (mq = 0; nq > 1; mq++, nq /= 2)`, as the number of its turns. -/
def countHalvings (nq : Nat) : Nat :=
  if 1 < nq then countHalvings (nq / 2) + 1 else 0

/-- The loop that squares `t1`. The returned number goes to `t2`, which is set again
before it is used. -/
def squareTimes : Nat → DoubleMemory SeedVariable → FloatProgram (DoubleMemory SeedVariable)
  | 0, memory => pure memory
  | turns + 1, memory => do
      let step ← randlc memory .t1 .t1
      squareTimes turns (step.memory.store .t2 step.value)

def multiplyOnOdd (kk : Nat) (memory : DoubleMemory SeedVariable) :
    FloatProgram (DoubleMemory SeedVariable) :=
  if 2 * (kk / 2) ≠ kk then do
    let step ← randlc memory .t1 .t2
    pure step.memory
  else pure memory

/-- The loop over the bits of the rank, with the turns that are left. -/
def powerLoop : Nat → Nat → DoubleMemory SeedVariable → FloatProgram (DoubleMemory SeedVariable)
  | 0, _, memory => pure memory
  | turns + 1, kk, memory => do
      let multiplied ← multiplyOnOdd kk memory
      if kk / 2 = 0 then pure multiplied
      else do
        let squared ← randlc multiplied .t2 .t2
        powerLoop turns (kk / 2) squared.memory

def findMySeed (statics : Option RandlcConstants) (rank commSize totalRandomNumbers : Nat)
    (seed multiplier : Rat) : FloatProgram FoundSeed := do
  let mq := countHalvings (totalRandomNumbers / commSize)
  -- `t2` holds nothing that is read before it is set.
  let started : DoubleMemory SeedVariable := ⟨fun _ => multiplier, statics⟩
  let squared ← squareTimes mq started
  let an := squared.doubles .t1
  let memory ← powerLoop 100 rank ((squared.store .t1 seed).store .t2 an)
  pure ⟨memory.doubles .t1, memory.statics⟩

/-- `static_cast<int>`. -/
def castInt (value : Int) : Int :=
  value.bmod (2 ^ 32)

def generateKey (keyScale : Int) (memory : DoubleMemory KeyVariable) : FloatProgram KeyStep := do
  let first ← randlc memory .seed .multiplier
  let second ← randlc first.memory .seed .multiplier
  let x2 ← .add first.value second.value
  let third ← randlc second.memory .seed .multiplier
  let x3 ← .add x2 third.value
  let fourth ← randlc third.memory .seed .multiplier
  let x4 ← .add x3 fourth.value
  let scale ← .ofInteger keyScale
  let scaled ← .multiply scale x4
  let key ← .toInteger scaled
  pure ⟨fourth.memory, key⟩

def keyLoop (keyScale : Int) : Nat → DoubleMemory KeyVariable → FloatProgram GeneratedKeys
  | 0, memory => pure ⟨[], memory.statics⟩
  | remaining + 1, memory => do
      let step ← generateKey keyScale memory
      let rest ← keyLoop keyScale remaining step.memory
      pure ⟨step.key :: rest.keys, rest.statics⟩

def keyParameters (seed multiplier : Rat) : KeyVariable → Rat
  | .seed => seed
  | .multiplier => multiplier

def generateKeys (statics : Option RandlcConstants) (localKeyCount : Nat) (maxKey : Int)
    (seed multiplier : Rat) : FloatProgram GeneratedKeys :=
  keyLoop (castInt (maxKey.tdiv 4)) localKeyCount ⟨keyParameters seed multiplier, statics⟩

/-- `NasIntegerSortRun::generate_keys` on one rank, with the numbers that it takes from
the problem class as parameters. -/
def generateRankKeys (statics : Option RandlcConstants)
    (rank commSize totalRandomNumbers localKeyCount : Nat) (maxKey : Int) (seed multiplier : Rat) :
    FloatProgram GeneratedKeys := do
  let found ← findMySeed statics rank commSize totalRandomNumbers seed multiplier
  generateKeys found.statics localKeyCount maxKey found.seed multiplier

/-! ## The place in the stream -/

/-- The entry of the random stream. -/
abbrev streamSeed (seed multiplier position : Nat) : Nat :=
  powerSequence (2 ^ 46) seed multiplier position

section Variables

variable {Variable : Type} [DecidableEq Variable]

@[simp]
theorem advanced_statics (memory : DoubleMemory Variable) (seed : Variable) (updated : Nat) :
    (memory.advanced seed updated).statics = some powerConstants :=
  rfl

@[simp]
theorem store_statics (memory : DoubleMemory Variable) (address : Variable) (value : Rat) :
    (memory.store address value).statics = memory.statics :=
  rfl

@[simp]
theorem advanced_seed (memory : DoubleMemory Variable) (seed : Variable) (updated : Nat) :
    (memory.advanced seed updated).doubles seed = updated :=
  Function.update_self _ _ _

theorem advanced_other (memory : DoubleMemory Variable) {seed other : Variable} (updated : Nat)
    (distinct : other ≠ seed) :
    (memory.advanced seed updated).doubles other = memory.doubles other :=
  Function.update_of_ne distinct _ _

end Variables

theorem count_halvings_power (log : Nat) : countHalvings (2 ^ log) = log := by
  induction log with
  | zero => rw [countHalvings, if_neg (by decide)]
  | succ log ih =>
      have above : 1 < 2 ^ (log + 1) := Nat.one_lt_two_pow (Nat.succ_ne_zero log)
      have half : 2 ^ (log + 1) / 2 = 2 ^ log := by
        rw [pow_succ]
        exact Nat.mul_div_cancel _ (by decide)
      rw [countHalvings, if_pos above, half, ih]

/-- Squaring `turns` times: the first variable goes to the place `2 ^ turns` of the
powers. -/
theorem square_times_result (turns : Nat) (memory : DoubleMemory SeedVariable) (base : Nat)
    (prepared : PreparedStatics memory.statics) (bounded : base < 2 ^ 46)
    (holds : memory.doubles .t1 = base) :
    PreparedStatics (squareTimes turns memory).exact.result.statics ∧
      (squareTimes turns memory).exact.result.doubles .t1 = (base ^ 2 ^ turns % 2 ^ 46 : Nat) := by
  induction turns generalizing memory base with
  | zero =>
      refine ⟨prepared, ?_⟩
      rw [pow_zero, pow_one, Nat.mod_eq_of_lt bounded]
      exact holds
  | succ turns ih =>
      have squared := (randlc_runs prepared bounded bounded holds holds).result
      have below : base * base % 2 ^ 46 < 2 ^ 46 := Nat.mod_lt _ (by decide)
      have stored : ((memory.advanced .t1 (base * base % 2 ^ 46)).store .t2
          ((base * base % 2 ^ 46 : Nat) / 2 ^ 46)).doubles .t1 = (base * base % 2 ^ 46 : Nat) := by
        simp [DoubleMemory.store, Function.update]
      have rest := ih _ (base * base % 2 ^ 46) (.inr rfl) below stored
      simp only [squareTimes, FloatProgram.exact_bind, squared]
      refine ⟨rest.1, rest.2.trans ?_⟩
      rw [← Nat.pow_mod, ← pow_two, ← pow_mul, ← pow_succ']

/-- What the loop over the bits has when `base` is to be raised to `kk`. -/
structure PowerState (memory : DoubleMemory SeedVariable) (seed base : Nat) : Prop where
  prepared : PreparedStatics memory.statics
  seedBound : seed < 2 ^ 46
  baseBound : base < 2 ^ 46
  seedHeld : memory.doubles .t1 = seed
  baseHeld : memory.doubles .t2 = base

theorem multiply_on_odd_result (kk : Nat) {memory : DoubleMemory SeedVariable} {seed base : Nat}
    (state : PowerState memory seed base) :
    PowerState (multiplyOnOdd kk memory).exact.result (powerSequence (2 ^ 46) seed base (kk % 2))
      base := by
  unfold multiplyOnOdd
  by_cases odd : 2 * (kk / 2) ≠ kk
  · have bit : kk % 2 = 0 + 1 := by omega
    have multiplied :=
      (randlc_runs state.prepared state.seedBound state.baseBound state.seedHeld
        state.baseHeld).result
    rw [if_pos odd, bit, ← power_sequence_succ, power_sequence_zero _ state.seedBound]
    simp only [FloatProgram.exact_bind, FloatProgram.exact_pure, multiplied]
    exact ⟨.inr rfl, Nat.mod_lt _ (by decide), state.baseBound, advanced_seed _ _ _,
      (advanced_other _ _ (by decide)).trans state.baseHeld⟩
  · have bit : kk % 2 = 0 := by omega
    rw [if_neg odd, bit, power_sequence_zero _ state.seedBound]
    exact state

/-- The loop multiplies the seed by `base ^ kk`, when it has a turn for each bit. -/
theorem power_loop_result (turns kk : Nat) (memory : DoubleMemory SeedVariable) {seed base : Nat}
    (state : PowerState memory seed base) (enough : kk < 2 ^ turns) :
    PreparedStatics (powerLoop turns kk memory).exact.result.statics ∧
      (powerLoop turns kk memory).exact.result.doubles .t1 =
        (powerSequence (2 ^ 46) seed base kk : Nat) := by
  induction turns generalizing kk memory seed base with
  | zero =>
      have none : kk = 0 := by simpa using enough
      rw [none, power_sequence_zero _ state.seedBound]
      exact ⟨state.prepared, state.seedHeld⟩
  | succ turns ih =>
      have multiplied := multiply_on_odd_result kk state
      have split : kk % 2 + 2 * (kk / 2) = kk := Nat.mod_add_div kk 2
      simp only [powerLoop, FloatProgram.exact_bind]
      by_cases last : kk / 2 = 0
      · have bit : kk % 2 = kk := by omega
        rw [if_pos last]
        rw [bit] at multiplied
        exact ⟨multiplied.prepared, multiplied.seedHeld⟩
      · have squared :=
          (randlc_runs multiplied.prepared multiplied.baseBound multiplied.baseBound
            multiplied.baseHeld multiplied.baseHeld).result
        rw [if_neg last]
        simp only [FloatProgram.exact_bind, squared]
        have further := ih (kk / 2)
          ((multiplyOnOdd kk memory).exact.result.advanced .t2 (base * base % 2 ^ 46))
          ⟨.inr rfl, multiplied.seedBound, Nat.mod_lt _ (by decide),
            (advanced_other _ _ (by decide)).trans multiplied.seedHeld, advanced_seed _ _ _⟩
          (by rw [pow_succ] at enough; omega)
        rw [power_sequence_square, power_sequence_jump, split] at further
        exact further

/-- With a power of two of numbers for each rank, a rank skips the numbers of the ranks
before it. -/
theorem find_my_seed_result {statics : Option RandlcConstants} (prepared : PreparedStatics statics)
    (rank : Nat) {commSize total log seed multiplier : Nat} (each : total / commSize = 2 ^ log)
    (enough : rank < 2 ^ 100) (seedBound : seed < 2 ^ 46) (multiplierBound : multiplier < 2 ^ 46) :
    (findMySeed statics rank commSize total seed multiplier).exact.result.seed =
        (streamSeed seed multiplier (2 ^ log * rank) : Nat) ∧
      PreparedStatics
        (findMySeed statics rank commSize total seed multiplier).exact.result.statics := by
  obtain ⟨squaredPrepared, squared⟩ :=
    square_times_result log ⟨fun _ => (multiplier : Rat), statics⟩ multiplier prepared
      multiplierBound rfl
  simp only [findMySeed, FloatProgram.exact_bind, FloatProgram.exact_pure, each,
    count_halvings_power]
  generalize (squareTimes log ⟨fun _ => (multiplier : Rat), statics⟩).exact.result = memory at *
  have raised := power_loop_result 100 rank
    ((memory.store .t1 seed).store .t2 (memory.doubles .t1))
    ⟨squaredPrepared, seedBound, Nat.mod_lt _ (by decide),
      by simp [DoubleMemory.store, Function.update], by
        simpa [DoubleMemory.store, Function.update] using squared⟩ enough
  rw [power_sequence_power] at raised
  exact ⟨raised.2, raised.1⟩

/-! ## The keys -/

/-- The sum of the four random numbers of a key, times `2 ^ 46`. -/
def keySum (seed multiplier position : Nat) : Nat :=
  streamSeed seed multiplier (position + 1) + streamSeed seed multiplier (position + 2) +
    streamSeed seed multiplier (position + 3) + streamSeed seed multiplier (position + 4)

/-- The key that is drawn at a place in the random stream. -/
def streamKey (keyScale : Int) (seed multiplier position : Nat) : Int :=
  truncate (keyScale * (keySum seed multiplier position / 2 ^ 46))

/-- What `generate_keys` has before a key: its seed is at `position` in the stream. -/
structure StreamState (memory : DoubleMemory KeyVariable) (seed multiplier position : Nat) :
    Prop where
  prepared : PreparedStatics memory.statics
  multiplierBound : multiplier < 2 ^ 46
  seedHeld : memory.doubles .seed = (streamSeed seed multiplier position : Nat)
  multiplierHeld : memory.doubles .multiplier = multiplier

theorem StreamState.start {statics : Option RandlcConstants} (prepared : PreparedStatics statics)
    {seed multiplier : Nat} (seedBound : seed < 2 ^ 46) (multiplierBound : multiplier < 2 ^ 46) :
    StreamState ⟨keyParameters seed multiplier, statics⟩ seed multiplier 0 := by
  have start : streamSeed seed multiplier 0 = seed := power_sequence_zero multiplier seedBound
  refine ⟨prepared, multiplierBound, ?_, rfl⟩
  rw [start]
  rfl

theorem StreamState.draw {memory : DoubleMemory KeyVariable} {seed multiplier position : Nat}
    (state : StreamState memory seed multiplier position) :
    StreamState (randlc memory .seed .multiplier).exact.result.memory seed multiplier
        (position + 1) ∧
      (randlc memory .seed .multiplier).exact.result.value =
        (streamSeed seed multiplier (position + 1) : Nat) / 2 ^ 46 := by
  have drawn :=
    (randlc_runs state.prepared (power_sequence_below seed multiplier (by decide) position)
      state.multiplierBound state.seedHeld state.multiplierHeld).result
  rw [power_sequence_succ] at drawn
  rw [drawn]
  exact ⟨⟨.inr rfl, state.multiplierBound, advanced_seed _ _ _,
    (advanced_other _ _ (by decide)).trans state.multiplierHeld⟩, rfl⟩

theorem generate_key_result (keyScale : Int) {memory : DoubleMemory KeyVariable}
    {seed multiplier position : Nat} (state : StreamState memory seed multiplier position) :
    StreamState (generateKey keyScale memory).exact.result.memory seed multiplier
        (position + 4) ∧
      (generateKey keyScale memory).exact.result.key =
        streamKey keyScale seed multiplier position := by
  obtain ⟨afterFirst, first⟩ := state.draw
  obtain ⟨afterSecond, second⟩ := afterFirst.draw
  obtain ⟨afterThird, third⟩ := afterSecond.draw
  obtain ⟨afterFourth, fourth⟩ := afterThird.draw
  simp only [generateKey, FloatProgram.exact_bind, FloatProgram.exact_pure,
    FloatProgram.exact_add, FloatProgram.exact_multiply, FloatProgram.exact_of_integer,
    FloatProgram.exact_to_integer]
  refine ⟨afterFourth, ?_⟩
  rw [first, second, third, fourth]
  unfold streamKey keySum
  congr 2
  push_cast
  ring

theorem key_loop_result (keyScale : Int) (count position : Nat) {memory : DoubleMemory KeyVariable}
    {seed multiplier : Nat} (state : StreamState memory seed multiplier position) :
    (keyLoop keyScale count memory).exact.result.keys =
      (List.range count).map fun index =>
        streamKey keyScale seed multiplier (position + 4 * index) := by
  induction count generalizing memory position with
  | zero => rfl
  | succ count ih =>
      obtain ⟨after, key⟩ := generate_key_result keyScale state
      simp only [keyLoop, FloatProgram.exact_bind, FloatProgram.exact_pure, key, ih _ after]
      rw [List.range_succ_eq_map, List.map_cons, List.map_map]
      congr 1
      apply List.map_congr_left
      intro index _
      simp only [Function.comp_apply]
      congr 1
      omega

theorem numbers_each_rank (log : Nat) {commSize : Nat} (some : 0 < commSize) :
    4 * 2 ^ log * commSize / commSize = 2 ^ (log + 2) := by
  rw [Nat.mul_div_cancel _ some, pow_add]
  ring

/-- The keys of a rank are the stretch of the stream that follows the stretches of the
ranks before it. -/
theorem rank_keys_result {statics : Option RandlcConstants} (prepared : PreparedStatics statics)
    (rank : Nat) {commSize : Nat} (log seed multiplier : Nat) (maxKey : Int) (some : 0 < commSize)
    (enough : rank < 2 ^ 100) (seedBound : seed < 2 ^ 46) (multiplierBound : multiplier < 2 ^ 46) :
    (generateRankKeys statics rank commSize (4 * 2 ^ log * commSize) (2 ^ log) maxKey seed
        multiplier).exact.result.keys =
      (List.range (2 ^ log)).map fun index =>
        streamKey (castInt (maxKey.tdiv 4)) seed multiplier (4 * (2 ^ log * rank + index)) := by
  obtain ⟨found, foundPrepared⟩ :=
    find_my_seed_result prepared rank (numbers_each_rank log some) enough seedBound
      multiplierBound
  unfold generateRankKeys generateKeys
  rw [FloatProgram.exact_bind, found,
    key_loop_result _ _ (2 ^ (log + 2) * rank) ⟨foundPrepared, multiplierBound, rfl, rfl⟩]
  apply List.map_congr_left
  intro index _
  congr 1
  rw [pow_add]
  ring

/-- Consecutive stretches of equal length make one stretch. -/
theorem range_stretches {α : Type} (entry : Nat → α) (length count : Nat) :
    ((List.range count).flatMap fun stretch =>
        (List.range length).map fun index => entry (length * stretch + index)) =
      (List.range (length * count)).map entry := by
  induction count with
  | zero => rfl
  | succ count ih =>
      rw [List.range_succ, List.flatMap_append, ih, Nat.mul_succ, List.range_add, List.map_append,
        List.map_map, List.flatMap_singleton]
      rfl

theorem key_sum_below (seed multiplier position : Nat) :
    keySum seed multiplier position < 4 * 2 ^ 46 := by
  have bound := power_sequence_below seed multiplier (show 0 < 2 ^ 46 by decide)
  have first := bound (position + 1)
  have second := bound (position + 2)
  have third := bound (position + 3)
  have fourth := bound (position + 4)
  unfold keySum streamSeed
  omega

/-- A nonnegative scale keeps the keys below four times the scale. -/
theorem stream_key_range (keyScale : Nat) (seed multiplier position : Nat)
    (positive : 0 < keyScale) :
    0 ≤ streamKey keyScale seed multiplier position ∧
      streamKey keyScale seed multiplier position < 4 * keyScale := by
  have quotient : ((keyScale : Int) : Rat) * ((keySum seed multiplier position : Rat) / 2 ^ 46) =
      ((keyScale * keySum seed multiplier position : Nat) : Rat) / (2 ^ 46 : Nat) := by
    push_cast
    ring
  have below : keyScale * keySum seed multiplier position / 2 ^ 46 < 4 * keyScale := by
    rw [Nat.div_lt_iff_lt_mul (by decide)]
    calc keyScale * keySum seed multiplier position
        < keyScale * (4 * 2 ^ 46) :=
          Nat.mul_lt_mul_of_pos_left (key_sum_below seed multiplier position) positive
      _ = 4 * keyScale * 2 ^ 46 := by ring
  unfold streamKey
  rw [quotient, truncate_quotient]
  exact ⟨Int.natCast_nonneg _, by exact_mod_cast below⟩

/-- The scale survives the conversion to `int` for every key range that an `int` can
hold. -/
theorem key_scale_power {log : Nat} (atLeastFour : 2 ≤ log) (fits : log ≤ 31) :
    castInt (((2 ^ log : Nat) : Int).tdiv 4) = ((2 ^ (log - 2) : Nat) : Int) := by
  have small : 2 ^ (log - 2) ≤ 2 ^ 29 := Nat.pow_le_pow_right (by decide) (by omega)
  have split : 2 ^ log = 2 ^ (log - 2) * 4 := by
    rw [show 4 = 2 ^ 2 by rfl, ← pow_add, Nat.sub_add_cancel atLeastFour]
  unfold castInt
  rw [split]
  push_cast
  rw [Int.mul_tdiv_cancel _ (by decide)]
  apply Int.bmod_eq_of_le
  all_goals
    have cast : ((2 : Int) ^ (log - 2)) = ((2 ^ (log - 2) : Nat) : Int) := by push_cast; rfl
    omega

theorem rank_keys_range {statics : Option RandlcConstants} (prepared : PreparedStatics statics)
    {rank commSize log seed multiplier maxKeyLog : Nat} (some : 0 < commSize)
    (enough : rank < 2 ^ 100) (seedBound : seed < 2 ^ 46) (multiplierBound : multiplier < 2 ^ 46)
    (atLeastFour : 2 ≤ maxKeyLog) (fits : maxKeyLog ≤ 31) {key : Int}
    (generated : key ∈ (generateRankKeys statics rank commSize (4 * 2 ^ log * commSize) (2 ^ log)
      (2 ^ maxKeyLog : Nat) seed multiplier).exact.result.keys) :
    0 ≤ key ∧ key < (2 ^ maxKeyLog : Nat) := by
  rw [rank_keys_result prepared rank log seed multiplier _ some enough seedBound multiplierBound,
    key_scale_power atLeastFour fits] at generated
  obtain ⟨index, _, rfl⟩ := List.mem_map.mp generated
  obtain ⟨low, high⟩ := stream_key_range (2 ^ (maxKeyLog - 2)) seed multiplier
    (4 * (2 ^ log * rank + index)) (Nat.two_pow_pos _)
  have split : 4 * 2 ^ (maxKeyLog - 2) = 2 ^ maxKeyLog := by
    rw [show 4 = 2 ^ 2 by rfl, ← pow_add, Nat.add_sub_cancel' atLeastFour]
  exact ⟨low, lt_of_lt_of_eq high (by exact_mod_cast split)⟩

/-- The keys do not depend on the number of ranks, and lie in the key range. The number
of ranks is an `int`, which the hundred turns of the loop over its bits are enough for. -/
theorem generated_keys_rank_independent {statics : Option RandlcConstants}
    (prepared : PreparedStatics statics) (ranksLog keysLog maxKeyLog seed multiplier : Nat)
    (few : ranksLog ≤ 100) (seedBound : seed < 2 ^ 46) (multiplierBound : multiplier < 2 ^ 46)
    (atLeastFour : 2 ≤ maxKeyLog) :
    (∀ rank < 2 ^ ranksLog,
        (findMySeed statics rank (2 ^ ranksLog) (4 * 2 ^ keysLog * 2 ^ ranksLog) seed
            multiplier).exact.result.seed =
          ((seed * multiplier ^ (4 * 2 ^ keysLog * rank) % 2 ^ 46 : Nat) : Rat)) ∧
      ((List.range (2 ^ ranksLog)).flatMap fun rank =>
          (generateRankKeys statics rank (2 ^ ranksLog) (4 * 2 ^ keysLog * 2 ^ ranksLog)
            (2 ^ keysLog) (2 ^ maxKeyLog : Nat) seed multiplier).exact.result.keys) =
        (generateKeys statics (2 ^ keysLog * 2 ^ ranksLog) (2 ^ maxKeyLog : Nat) seed
          multiplier).exact.result.keys ∧
      (maxKeyLog ≤ 31 → ∀ rank < 2 ^ ranksLog,
        ∀ key ∈ (generateRankKeys statics rank (2 ^ ranksLog) (4 * 2 ^ keysLog * 2 ^ ranksLog)
          (2 ^ keysLog) (2 ^ maxKeyLog : Nat) seed multiplier).exact.result.keys,
          0 ≤ key ∧ key < (2 ^ maxKeyLog : Nat)) := by
  have enough : ∀ rank, rank < 2 ^ ranksLog → rank < 2 ^ 100 := by
    intro rank below
    exact below.trans_le (Nat.pow_le_pow_right (by decide) few)
  have ranks : 0 < 2 ^ ranksLog := Nat.two_pow_pos _
  refine ⟨?_, ?_, ?_⟩
  · intro rank below
    have found := (find_my_seed_result prepared rank (numbers_each_rank keysLog ranks)
      (enough rank below) seedBound multiplierBound).1
    rw [found, pow_add, Nat.mul_comm (2 ^ keysLog)]
    rfl
  · have alone := key_loop_result (castInt (((2 ^ maxKeyLog : Nat) : Int).tdiv 4))
      (2 ^ keysLog * 2 ^ ranksLog) 0 (StreamState.start prepared seedBound multiplierBound)
    have stretches := range_stretches (fun index =>
      streamKey (castInt (((2 ^ maxKeyLog : Nat) : Int).tdiv 4)) seed multiplier (4 * index))
      (2 ^ keysLog) (2 ^ ranksLog)
    unfold generateKeys
    rw [alone]
    simp only [Nat.zero_add]
    rw [← stretches]
    apply List.flatMap_congr
    intro rank inside
    exact rank_keys_result prepared rank keysLog seed multiplier _ ranks
      (enough rank (List.mem_range.mp inside)) seedBound multiplierBound
  · intro fits rank below key generated
    exact rank_keys_range prepared ranks (enough rank below) seedBound multiplierBound atLeastFour
      fits generated

/-- Two ranks of class S, in a process that has not called `randlc` yet. -/
theorem class_s_on_two_ranks :
    ((List.range (2 ^ 1)).flatMap fun rank =>
        (generateRankKeys none rank (2 ^ 1) (4 * 2 ^ 15 * 2 ^ 1) (2 ^ 15) (2 ^ 11 : Nat)
          (314159265 : Nat) (1220703125 : Nat)).exact.result.keys) =
      (generateKeys none (2 ^ 15 * 2 ^ 1) (2 ^ 11 : Nat) (314159265 : Nat)
        (1220703125 : Nat)).exact.result.keys :=
  (generated_keys_rank_independent (.inl rfl) 1 15 11 314159265 1220703125 (by decide) (by decide)
    (by decide) (by decide)).2.1

/-- Above `2 ^ 31` the keys do not fit the key range: the scale of `2 ^ 33` is negative
as an `int`, and with `2 ^ 32` the product no longer converts to one. -/
theorem wide_key_range_fails :
    (generateRankKeys none 0 1 4 1 (2 ^ 33 : Nat) (2 ^ 44 : Nat) (1 : Nat)).exact.result.keys =
        [-2 ^ 31] ∧
      (generateRankKeys none 0 1 4 1 (2 ^ 32 : Nat) (2 ^ 45 : Nat) (1 : Nat)).exact.result.keys =
        [2 ^ 31] ∧
      ¬(0 ≤ (-2 ^ 31 : Int)) ∧ ¬FitsInt (2 ^ 31) := by
  have wide := rank_keys_result (.inl rfl) 0 0 (2 ^ 44) 1 (2 ^ 33 : Nat) Nat.one_pos (by decide)
    (by decide) (by decide)
  have unsigned := rank_keys_result (.inl rfl) 0 0 (2 ^ 45) 1 (2 ^ 32 : Nat) Nat.one_pos (by decide)
    (by decide) (by decide)
  have wideScale : castInt (((2 ^ 33 : Nat) : Int).tdiv 4) = -2 ^ 31 := by decide
  have unsignedScale : castInt (((2 ^ 32 : Nat) : Int).tdiv 4) = 2 ^ 30 := by decide
  have quarter : keySum (2 ^ 44) 1 0 = 2 ^ 46 := by decide
  have half : keySum (2 ^ 45) 1 0 = 2 ^ 47 := by decide
  have wideKey : streamKey (-2 ^ 31) (2 ^ 44) 1 0 = -2 ^ 31 := by
    unfold streamKey
    rw [quarter]
    norm_num [truncate]
  have unsignedKey : streamKey (2 ^ 30) (2 ^ 45) 1 0 = 2 ^ 31 := by
    unfold streamKey
    rw [half]
    norm_num [truncate]
  rw [wideScale] at wide
  rw [unsignedScale] at unsigned
  refine ⟨wide.trans ?_, unsigned.trans ?_, by decide, ?_⟩
  · exact congrArg (fun key => [key]) wideKey
  · exact congrArg (fun key => [key]) unsignedKey
  · intro fits
    exact absurd fits.2 (by decide)

/-! ## The problem classes -/

def nasRandomSeed : Nat := 314159265

def nasRandomMultiplier : Nat := 1220703125

/-- `NasIntegerSortRun::generate_keys` with the numbers of the problem class. -/
def generateClassKeys (problem : ProblemClass) (statics : Option RandlcConstants)
    (rank commSize : Nat) : FloatProgram GeneratedKeys :=
  generateRankKeys statics rank commSize (computeTotalRandomNumbers problem)
    (computeLocalKeyCount problem commSize) problem.maxKey nasRandomSeed nasRandomMultiplier

/-- In every class the keys of a rank are its stretch of the stream, and index the
buckets. -/
theorem class_keys_result {problem : ProblemClass} {statics : Option RandlcConstants}
    (prepared : PreparedStatics statics) {rank log : Nat}
    (admitted : isProcessCountInRange problem (2 ^ log) = true) (inside : rank < 2 ^ log) :
    (generateClassKeys problem statics rank (2 ^ log)).exact.result.keys =
        ((List.range (computeLocalKeyCount problem (2 ^ log))).map fun index =>
          streamKey (castInt ((problem.maxKey : Int).tdiv 4)) nasRandomSeed nasRandomMultiplier
            (4 * (computeLocalKeyCount problem (2 ^ log) * rank + index))) ∧
      ∀ key ∈ (generateClassKeys problem statics rank (2 ^ log)).exact.result.keys,
        0 ≤ key ∧ key < problem.maxKey := by
  obtain ⟨count, localCount, _⟩ := local_key_count_power admitted
  have total := total_random_numbers_split admitted
  have ranks : 0 < 2 ^ log := Nat.two_pow_pos log
  have enough : rank < 2 ^ 100 := by
    have bound := (of_decide_eq_true admitted).2
    have most : problem.maxProcs ≤ 1024 := by cases problem <;> decide
    omega
  unfold generateClassKeys
  rw [total, localCount]
  refine ⟨rank_keys_result prepared rank count nasRandomSeed nasRandomMultiplier _ ranks enough
    (by decide) (by decide), ?_⟩
  intro key generated
  exact rank_keys_range prepared ranks enough (by decide) (by decide)
    (by cases problem <;> decide) (by cases problem <;> decide) generated

end IntegerSortLci.Benchmark
