/-
  File:      Ahasd/PIMSimulator/AAU.lean
  Subject:   THE ATTENTION ALGORITHM UNIT OF A PIM RANK (AAU.h).

  One operation at a time: an idle unit takes an operation and counts its latency down, one cycle a
  call of `update`. The latency is computed in 32 bits, and the unit becomes idle only on the way of
  the counter from one to zero.

  * `AAU`, `startOperation`, `update`: the unit;
  * `documentedLatency`: the latency over unbounded numbers; `latency_toNat_le`, `latency_toNat_eq`:
    the computed one never exceeds it, and exactly when it is the same;
  * `BusyFor`: what it means to serve an operation for a number of cycles;
  * `Log`, `Serving`: the operations of a run, and the counters against them;
  * **`serves_documented_latency`**: exactly when the documented latency is kept.
-/
import Mathlib.Data.Rat.Floor
import Mathlib.Algebra.Order.BigOperators.Group.List
import Ahasd.Lib.Transition

namespace Ahasd.PIMSimulator

open Transition

/-! ## 1. The unit -/

/-- `AAUOperation`. -/
inductive AAUOperation where
  | gelu
  | softmax
  | layernorm
  | attentionScore
  | reductionSum
  | reductionMax
  deriving DecidableEq, Repr

/-- The two reductions. -/
def AAUOperation.isReduction : AAUOperation → Bool
  | .reductionSum | .reductionMax => true
  | _ => false

/-- `AAUConfig`: what the latency reads of it. -/
structure AAUConfig where
  vectorWidth : UInt32 := 16
  latencyCycles : UInt32 := 8
  deriving DecidableEq, Repr

/-- `AAU`. -/
structure AAU where
  config : AAUConfig := {}
  totalOperations : Nat := 0
  geluOps : Nat := 0
  softmaxOps : Nat := 0
  layernormOps : Nat := 0
  attentionOps : Nat := 0
  reductionOps : Nat := 0
  totalCycles : Nat := 0
  busy : Bool := false
  remainingCycles : UInt32 := 0
  currentOp : Option AAUOperation := none
  totalEnergyNj : ℚ := 0
  deriving DecidableEq

namespace AAU

/-- The constructor. -/
def new (config : AAUConfig) : AAU := { config := config }

/-- `start_operation`: the latency, 0 from a busy unit. `log2` of no elements is no number of
    cycles: a reduction has at least one. -/
def startOperation (a : AAU) (op : AAUOperation) (numElements : UInt32) : UInt32 × AAU :=
  if a.busy then (0, a)
  else
    let a := { a with
      busy := true
      currentOp := some op
      totalOperations := a.totalOperations + 1 }
    let baseCycles := a.config.latencyCycles
    let vectorCycles := (numElements + a.config.vectorWidth - 1) / a.config.vectorWidth
    let elements : ℚ := numElements.toNat
    let a :=
      match op with
      | .gelu => { a with
          geluOps := a.geluOps + 1
          remainingCycles := baseCycles + vectorCycles * 2
          totalEnergyNj := a.totalEnergyNj + elements * (8 / 10) }
      | .softmax => { a with
          softmaxOps := a.softmaxOps + 1
          remainingCycles := baseCycles + vectorCycles * 3
          totalEnergyNj := a.totalEnergyNj + elements * (12 / 10) }
      | .layernorm => { a with
          layernormOps := a.layernormOps + 1
          remainingCycles := baseCycles + vectorCycles * 3
          totalEnergyNj := a.totalEnergyNj + elements * 1 }
      | .attentionScore => { a with
          attentionOps := a.attentionOps + 1
          remainingCycles := baseCycles + vectorCycles * 4
          totalEnergyNj := a.totalEnergyNj + elements * (15 / 10) }
      | .reductionSum | .reductionMax => { a with
          reductionOps := a.reductionOps + 1
          remainingCycles := baseCycles + UInt32.ofNat (Nat.log2 numElements.toNat) + 1
          totalEnergyNj := a.totalEnergyNj + elements * (3 / 10) }
    (a.remainingCycles, a)

/-- `update`. -/
def update (a : AAU) : AAU :=
  if a.busy ∧ a.remainingCycles > 0 then
    let a := { a with
      remainingCycles := a.remainingCycles - 1
      totalCycles := a.totalCycles + 1 }
    if a.remainingCycles = 0 then { a with busy := false } else a
  else a

/-- `is_available`. -/
def isAvailable (a : AAU) : Bool := !a.busy

/-- A busy unit refuses an operation and stays as it is. -/
theorem startOperation_busy {a : AAU} (h : a.busy = true) (op : AAUOperation) (n : UInt32) :
    a.startOperation op n = (0, a) := by
  unfold startOperation
  rw [if_pos h]

/-! ## 2. The latency -/

/-- The latency as `start_operation` computes it, in 32 bits. -/
def latency (config : AAUConfig) (op : AAUOperation) (numElements : UInt32) : UInt32 :=
  let vectorCycles := (numElements + config.vectorWidth - 1) / config.vectorWidth
  match op with
  | .gelu => config.latencyCycles + vectorCycles * 2
  | .softmax | .layernorm => config.latencyCycles + vectorCycles * 3
  | .attentionScore => config.latencyCycles + vectorCycles * 4
  | .reductionSum | .reductionMax =>
      config.latencyCycles + UInt32.ofNat (Nat.log2 numElements.toNat) + 1

/-- The passes over the vectors that an operation takes. -/
def passes : AAUOperation → Nat
  | .gelu => 2
  | .softmax | .layernorm => 3
  | .attentionScore => 4
  | .reductionSum | .reductionMax => 0

/-- The documented latency, over unbounded numbers: the base, and the passes over the vectors or the
    levels of the reduction. -/
def documentedLatency (config : AAUConfig) (op : AAUOperation) (numElements : UInt32) : Nat :=
  config.latencyCycles.toNat +
    if op.isReduction then Nat.log2 numElements.toNat + 1
    else
      (numElements.toNat + config.vectorWidth.toNat - 1) / config.vectorWidth.toNat * passes op

/-- The computed latency loses nothing to the 32 bits. -/
structure Unwrapped (config : AAUConfig) (op : AAUOperation) (numElements : UInt32) : Prop where
  vectors : op.isReduction = true ∨ numElements.toNat + config.vectorWidth.toNat ≤ 2 ^ 32
  cycles : documentedLatency config op numElements < 2 ^ 32

/-- The passes over the vectors, or the levels of the reduction, as 32 bits count them. -/
def countedCycles (config : AAUConfig) (op : AAUOperation) (numElements : UInt32) : Nat :=
  if op.isReduction then Nat.log2 numElements.toNat + 1
  else
    (numElements.toNat + config.vectorWidth.toNat - 1) % 2 ^ 32 / config.vectorWidth.toNat *
      passes op

theorem log2_lt (n : UInt32) : Nat.log2 n.toNat < 32 := by
  rcases Nat.eq_zero_or_pos n.toNat with h | h
  · rw [h]
    decide
  · exact (Nat.log2_lt (by omega)).mpr n.toNat_lt

theorem countedCycles_le (config : AAUConfig) (op : AAUOperation) (n : UInt32) :
    config.latencyCycles.toNat + countedCycles config op n ≤ documentedLatency config op n := by
  unfold countedCycles documentedLatency
  split
  · exact le_rfl
  · exact Nat.add_le_add_left
      (Nat.mul_le_mul_right _ (Nat.div_le_div_right (Nat.mod_le _ _))) _

section Latency

variable {config : AAUConfig} (hwidth : 1 ≤ config.vectorWidth)

include hwidth

theorem vectorCycles_toNat (n : UInt32) :
    ((n + config.vectorWidth - 1) / config.vectorWidth).toNat =
      (n.toNat + config.vectorWidth.toNat - 1) % 2 ^ 32 / config.vectorWidth.toNat := by
  have hw : 1 ≤ config.vectorWidth.toNat := UInt32.le_iff_toNat_le.mp hwidth
  rw [UInt32.toNat_div, UInt32.toNat_sub, UInt32.toNat_add, UInt32.toNat_one]
  congr 1
  omega

/-- The computed latency over unbounded numbers: two wraps. -/
theorem latency_toNat (op : AAUOperation) (n : UInt32) : (latency config op n).toNat =
    (config.latencyCycles.toNat + countedCycles config op n) % 2 ^ 32 := by
  have hvectors := vectorCycles_toNat hwidth n
  have hlog := log2_lt n
  have hlevels : (UInt32.ofNat (Nat.log2 n.toNat)).toNat = Nat.log2 n.toNat := by
    rw [UInt32.toNat_ofNat']
    omega
  unfold latency countedCycles
  cases op with
  | gelu | softmax | layernorm | attentionScore =>
      simp only [AAUOperation.isReduction, passes, UInt32.toNat_add, UInt32.toNat_mul, hvectors,
        UInt32.reduceToNat, Bool.false_eq_true, if_false, Nat.add_mod_mod]
  | reductionSum | reductionMax =>
      simp only [AAUOperation.isReduction, UInt32.toNat_add, hlevels, UInt32.reduceToNat, if_true]
      omega

theorem latency_toNat_le (op : AAUOperation) (n : UInt32) :
    (latency config op n).toNat ≤ documentedLatency config op n := by
  rw [latency_toNat hwidth]
  exact (Nat.mod_le _ _).trans (countedCycles_le config op n)

/-- A wrap in the vectors is seen in the latency. -/
theorem countedCycles_lt {op : AAUOperation} (hop : op.isReduction = false) {n : UInt32}
    (hwrap : 2 ^ 32 < n.toNat + config.vectorWidth.toNat) :
    config.latencyCycles.toNat + countedCycles config op n < documentedLatency config op n := by
  have hw : 1 ≤ config.vectorWidth.toNat := UInt32.le_iff_toNat_le.mp hwidth
  have hw32 := config.vectorWidth.toNat_lt
  have hn := n.toNat_lt
  have hmod : (n.toNat + config.vectorWidth.toNat - 1) % 2 ^ 32 + config.vectorWidth.toNat ≤
      n.toNat + config.vectorWidth.toNat - 1 := by omega
  have hvectors : (n.toNat + config.vectorWidth.toNat - 1) % 2 ^ 32 / config.vectorWidth.toNat + 1 ≤
      (n.toNat + config.vectorWidth.toNat - 1) / config.vectorWidth.toNat := by
    rw [← Nat.add_div_right _ hw]
    exact Nat.div_le_div_right hmod
  have hpasses : 0 < passes op := by cases op <;> first | decide | cases hop
  unfold countedCycles documentedLatency
  rw [hop]
  exact Nat.add_lt_add_left (Nat.mul_lt_mul_of_pos_right hvectors hpasses) _

/-- **Exactly when the computed latency is the documented one.** -/
theorem latency_toNat_eq (op : AAUOperation) (n : UInt32) :
    (latency config op n).toNat = documentedLatency config op n ↔ Unwrapped config op n := by
  have hmod := Nat.mod_le (config.latencyCycles.toNat + countedCycles config op n) (2 ^ 32)
  constructor
  · intro h
    refine ⟨?_, h ▸ (latency config op n).toNat_lt⟩
    by_contra hnot
    rw [not_or, Bool.not_eq_true, not_le] at hnot
    have hlt := countedCycles_lt hwidth hnot.1 hnot.2
    rw [← h, latency_toNat hwidth] at hlt
    exact absurd hlt (not_lt.mpr hmod)
  · rintro ⟨hvectors, hcycles⟩
    have heq : config.latencyCycles.toNat + countedCycles config op n =
        documentedLatency config op n := by
      unfold countedCycles documentedLatency
      cases hop : op.isReduction with
      | true => rfl
      | false =>
          rw [hop, or_iff_right Bool.false_ne_true] at hvectors
          have hw : 1 ≤ config.vectorWidth.toNat := UInt32.le_iff_toNat_le.mp hwidth
          rw [Nat.mod_eq_of_lt (by omega)]
    rw [latency_toNat hwidth, heq, Nat.mod_eq_of_lt hcycles]

end Latency

/-! ## 3. Serving one operation -/

/-- The calls on the unit. -/
inductive Call where
  | startOperation (op : AAUOperation) (numElements : UInt32)
  | update
  deriving DecidableEq, Repr

/-- One call. -/
def call (a : AAU) : Call → AAU
  | .startOperation op n => (a.startOperation op n).2
  | .update => a.update

/-- The unit after a sequence of calls. -/
def calls (a : AAU) (cs : List Call) : AAU := cs.foldl call a

/-- The sequence ends at its `cycles`th `update`. -/
def EndsAt (cycles : Nat) (cs : List Call) : Prop :=
  cs.count .update = cycles ∧ (cs = [] ∨ cs.getLast? = some .update)

/-- The unit serves the operation for the number of cycles: it returns it, it is busy and refuses
    every other operation over any calls with fewer `update`s, and it is available after the
    last. -/
structure BusyFor (a : AAU) (op : AAUOperation) (numElements : UInt32) (cycles : Nat) : Prop where
  returned : (a.startOperation op numElements).1.toNat = cycles
  busy : ∀ cs : List Call, cs.count .update < cycles →
    ((a.startOperation op numElements).2.calls cs).busy = true
  refuses : ∀ cs : List Call, cs.count .update < cycles → ∀ (op' : AAUOperation) (n' : UInt32),
    ((a.startOperation op numElements).2.calls cs).startOperation op' n' =
      (0, (a.startOperation op numElements).2.calls cs)
  available : ∀ cs : List Call, EndsAt cycles cs →
    ((a.startOperation op numElements).2.calls cs).isAvailable = true

/-- The state after an operation was taken. -/
structure Taken (a : AAU) (op : AAUOperation) (numElements : UInt32) (a' : AAU) : Prop where
  busy : a'.busy = true
  remaining : a'.remainingCycles = latency a.config op numElements
  config : a'.config = a.config
  cycles : a'.totalCycles = a.totalCycles

theorem startOperation_idle {a : AAU} (h : a.busy = false) (op : AAUOperation) (n : UInt32) :
    ∃ a', a.startOperation op n = (latency a.config op n, a') ∧ Taken a op n a' := by
  have hnot : ¬ a.busy = true := by simp [h]
  unfold startOperation latency
  rw [if_neg hnot]
  cases op <;> exact ⟨_, rfl, rfl, rfl, rfl, rfl⟩

/-- A cycle of a busy unit that has cycles left. -/
theorem update_busy {a : AAU} (h : a.busy = true) (hleft : 0 < a.remainingCycles.toNat) :
    a.update.remainingCycles.toNat + 1 = a.remainingCycles.toNat ∧
      a.update.totalCycles = a.totalCycles + 1 ∧ a.update.config = a.config ∧
      a.update.busy = decide (1 < a.remainingCycles.toNat) := by
  have hpos : a.remainingCycles > 0 := UInt32.lt_iff_toNat_lt.mpr hleft
  have hone : (a.remainingCycles - 1).toNat + 1 = a.remainingCycles.toNat := by
    have hlt := a.remainingCycles.toNat_lt
    rw [UInt32.toNat_sub, UInt32.toNat_one]
    omega
  have hzero : a.remainingCycles - 1 = 0 ↔ ¬ 1 < a.remainingCycles.toNat := by
    rw [← UInt32.toNat_inj, UInt32.toNat_zero]
    omega
  unfold update
  rw [if_pos ⟨h, hpos⟩]
  dsimp only
  split
  · next hdone =>
      exact ⟨hone, rfl, rfl, (decide_eq_false (hzero.mp hdone)).symm⟩
  · next hmore =>
      exact ⟨hone, rfl, rfl, h.trans (decide_eq_true (not_not.mp (mt hzero.mpr hmore))).symm⟩

/-- A cycle of an idle unit, or of one with no cycles left, changes nothing. -/
theorem update_rest {a : AAU} (h : a.busy = false ∨ a.remainingCycles.toNat = 0) : a.update = a := by
  unfold update
  rw [if_neg]
  rintro ⟨hbusy, hleft⟩
  rcases h with h | h
  · rw [h] at hbusy
    cases hbusy
  · have hpos := UInt32.lt_iff_toNat_lt.mp hleft
    rw [h] at hpos
    exact absurd hpos (Nat.not_lt_zero _)

/-- The countdown over any calls: a busy unit with more cycles left than `update`s come. -/
theorem calls_busy (cs : List Call) {a : AAU} (h : a.busy = true)
    (hlt : cs.count .update < a.remainingCycles.toNat) :
    (a.calls cs).busy = true ∧
      (a.calls cs).remainingCycles.toNat + cs.count .update = a.remainingCycles.toNat := by
  induction cs generalizing a with
  | nil => exact ⟨h, rfl⟩
  | cons call cs ih =>
      cases call with
      | startOperation op n =>
          rw [List.count_cons_of_ne (by simp)] at hlt ⊢
          have hstep : a.calls (.startOperation op n :: cs) = a.calls cs := by
            show (a.startOperation op n).2.calls cs = _
            rw [startOperation_busy h]
          rw [hstep]
          exact ih h hlt
      | update =>
          rw [List.count_cons_self] at hlt ⊢
          obtain ⟨hone, _, _, hbusy⟩ := update_busy h (by omega)
          rw [decide_eq_true (by omega)] at hbusy
          obtain ⟨hbusy', hleft⟩ := ih hbusy (by omega)
          exact ⟨hbusy', by rw [← hone, ← hleft]; exact (Nat.add_assoc _ _ _).symm⟩

/-- **What an idle unit does with an operation**: it serves it for the cycles it computed, if these
    are any. An operation of no cycles leaves it busy for good. -/
theorem busyFor_iff {a : AAU} (h : a.busy = false) (op : AAUOperation) (n : UInt32) (cycles : Nat) :
    BusyFor a op n cycles ↔ (latency a.config op n).toNat = cycles ∧ 0 < cycles := by
  obtain ⟨a', hstart, hbusy, hleft, _, _⟩ := startOperation_idle h op n
  constructor
  · rintro ⟨hreturned, _, _, havailable⟩
    rw [hstart] at hreturned havailable
    refine ⟨hreturned, Nat.pos_of_ne_zero fun hzero => ?_⟩
    have hfree := havailable [] ⟨hzero.symm, .inl rfl⟩
    rw [isAvailable, show a'.calls [] = a' from rfl, hbusy] at hfree
    cases hfree
  · rintro ⟨hcycles, hpos⟩
    rw [← hleft] at hcycles
    have hserves : ∀ cs : List Call, cs.count .update < cycles → (a'.calls cs).busy = true :=
      fun cs hlt => (calls_busy cs hbusy (hcycles ▸ hlt)).1
    refine ⟨?_, ?_, ?_, ?_⟩ <;> rw [hstart]
    · rw [← hleft]
      exact hcycles
    · exact hserves
    · exact fun cs hlt op' n' => startOperation_busy (hserves cs hlt) op' n'
    · rintro cs ⟨hcount, hlast⟩
      rcases hlast with rfl | hlast
      · exact absurd hcount (by simp; omega)
      · obtain ⟨cs, rfl⟩ := List.getLast?_eq_some_iff.mp hlast
        rw [List.count_append, List.count_singleton_self] at hcount
        obtain ⟨hbusy', hrest⟩ := calls_busy cs hbusy (by omega)
        have hdone := (update_busy hbusy' (by omega)).2.2.2
        rw [decide_eq_false (by omega)] at hdone
        have hcalls : a'.calls (cs ++ [.update]) = (a'.calls cs).update := List.foldl_append ..
        rw [hcalls, isAvailable, hdone]
        rfl

/-- The unit can serve the operation as documented: nothing wraps, and it takes a cycle. -/
structure Fits (config : AAUConfig) (op : AAUOperation) (numElements : UInt32) : Prop
    extends Unwrapped config op numElements where
  positive : op.isReduction = true ∨ 0 < config.latencyCycles.toNat ∨ 0 < numElements.toNat

theorem documentedLatency_pos {config : AAUConfig} (hwidth : 1 ≤ config.vectorWidth)
    (op : AAUOperation) (n : UInt32) : 0 < documentedLatency config op n ↔
      op.isReduction = true ∨ 0 < config.latencyCycles.toNat ∨ 0 < n.toNat := by
  have hw : 1 ≤ config.vectorWidth.toNat := UInt32.le_iff_toNat_le.mp hwidth
  unfold documentedLatency
  cases hop : op.isReduction with
  | true => simp
  | false =>
      have hpasses : 0 < passes op := by cases op <;> first | decide | cases hop
      have hvectors : 0 < (n.toNat + config.vectorWidth.toNat - 1) / config.vectorWidth.toNat ↔
          0 < n.toNat := by
        rw [Nat.div_pos_iff]
        omega
      rw [if_neg Bool.false_ne_true, Nat.add_pos_iff_pos_or_pos, Nat.mul_pos_iff_of_pos_right hpasses,
        hvectors, or_iff_right Bool.false_ne_true]

theorem fits_iff {config : AAUConfig} (hwidth : 1 ≤ config.vectorWidth) (op : AAUOperation)
    (n : UInt32) : Fits config op n ↔
      (latency config op n).toNat = documentedLatency config op n ∧
        0 < documentedLatency config op n := by
  rw [latency_toNat_eq hwidth, documentedLatency_pos hwidth]
  exact ⟨fun h => ⟨h.toUnwrapped, h.positive⟩, fun h => ⟨h.1, h.2⟩⟩

/-! ## 4. Runs -/

/-- What a call shows: an operation that is taken, a cycle of work, an operation that is done. -/
inductive Event where
  | taken (op : AAUOperation) (numElements : UInt32)
  | worked
  | finished
  deriving DecidableEq, Repr

/-- The operation is defined: the logarithm of a reduction needs an element. -/
def defined (op : AAUOperation) (numElements : UInt32) : Bool :=
  !op.isReduction || decide (1 ≤ numElements)

/-- What the call shows. -/
def shows (a : AAU) : Call → List Event
  | .startOperation op n => if a.busy then [] else [.taken op n]
  | .update =>
      if a.busy ∧ a.remainingCycles > 0 then
        if a.update.busy then [.worked] else [.worked, .finished]
      else []

/-- The unit as a machine. -/
def machine : Machine AAU Call Event where
  step a c :=
    match c with
    | .startOperation op n => if a.busy || defined op n then some (a.call c) else none
    | .update => some (a.call c)
  obs a c _ := a.shows c

/-- The operations of a run: the finished ones, the one that is served, and the cycles of work on
    that one. -/
structure Log where
  finished : List (AAUOperation × UInt32) := []
  current : Option (AAUOperation × UInt32) := none
  progress : Nat := 0

/-- One event. -/
def Log.event (l : Log) : Event → Log
  | .taken op n => { l with current := some (op, n), progress := 0 }
  | .worked => { l with progress := l.progress + 1 }
  | .finished => { finished := l.finished ++ l.current.toList, current := none, progress := 0 }

/-- The log of a history. -/
def Log.of (h : List Event) : Log := h.foldl Log.event {}

theorem Log.of_append (h e : List Event) : Log.of (h ++ e) = e.foldl Log.event (Log.of h) :=
  List.foldl_append

/-- The sum of the latencies of operations. -/
def latencies (latency : AAUOperation → UInt32 → Nat) (ops : List (AAUOperation × UInt32)) : Nat :=
  (ops.map fun o => latency o.1 o.2).sum

theorem latencies_append (latency : AAUOperation → UInt32 → Nat)
    (ops : List (AAUOperation × UInt32)) (o : AAUOperation × UInt32) :
    latencies latency (ops ++ [o]) = latencies latency ops + latency o.1 o.2 := by
  simp [latencies]

/-- **The invariant**: what a busy unit has done and what is left make up the latency it computed,
    and the cycles are those of the finished operations and of this one. -/
structure Serving (config : AAUConfig) (a : AAU) (l : Log) : Prop where
  configured : a.config = config
  idle : a.busy = false → l.current = none ∧ l.progress = 0
  busy : a.busy = true → ∃ o, l.current = some o ∧
    l.progress + a.remainingCycles.toNat = (latency config o.1 o.2).toNat
  finished : ∀ o ∈ l.finished, 0 < (latency config o.1 o.2).toNat
  total : a.totalCycles =
    latencies (fun op n => (latency config op n).toNat) l.finished + l.progress

section Steps

variable {config : AAUConfig} {a : AAU} {l : Log} (S : Serving config a l)

include S

theorem Serving.start (op : AAUOperation) (n : UInt32) :
    Serving config (a.startOperation op n).2 ((a.shows (.startOperation op n)).foldl Log.event l) := by
  unfold shows
  cases hbusy : a.busy with
  | true =>
      rw [startOperation_busy hbusy]
      exact S
  | false =>
      obtain ⟨a', hstart, T⟩ := startOperation_idle hbusy op n
      rw [hstart]
      refine ⟨T.config.trans S.configured, fun h => ?_, fun _ => ⟨(op, n), rfl, ?_⟩, S.finished, ?_⟩
      · rw [T.busy] at h
        cases h
      · show 0 + a'.remainingCycles.toNat = _
        rw [T.remaining, S.configured, Nat.zero_add]
      · show a'.totalCycles = _ + 0
        rw [T.cycles, S.total, (S.idle hbusy).2]
        rfl

theorem Serving.update :
    Serving config a.update ((a.shows .update).foldl Log.event l) := by
  unfold shows
  by_cases h : a.busy ∧ a.remainingCycles > 0
  · rw [if_pos h]
    have hleft := UInt32.lt_iff_toNat_lt.mp h.2
    rw [UInt32.toNat_zero] at hleft
    obtain ⟨hone, htotal, hconfig, hbusy⟩ := update_busy h.1 hleft
    obtain ⟨o, hcurrent, hcount⟩ := S.busy h.1
    have hworked : l.progress + 1 + a.update.remainingCycles.toNat =
        (latency config o.1 o.2).toNat := by omega
    cases hmore : a.update.busy with
    | true =>
        refine ⟨hconfig.trans S.configured, fun hnot => ?_, fun _ => ⟨o, hcurrent, hworked⟩,
          S.finished, ?_⟩
        · rw [hmore] at hnot
          cases hnot
        · rw [htotal, S.total]
          rfl
    | false =>
        -- the last cycle: the operation moves to the finished ones
        rw [hmore, eq_comm, decide_eq_false_iff_not] at hbusy
        refine ⟨hconfig.trans S.configured, fun _ => ⟨rfl, rfl⟩, fun hnot => ?_, fun o' ho' => ?_, ?_⟩
        · rw [hmore] at hnot
          cases hnot
        · rcases List.mem_append.mp ho' with ho' | ho'
          · exact S.finished o' ho'
          · obtain rfl : o' = o := by simpa [Log.event, hcurrent, eq_comm] using ho'
            omega
        · show a.update.totalCycles = latencies _ (l.finished ++ l.current.toList) + 0
          rw [hcurrent, Option.toList_some, latencies_append, htotal, S.total]
          omega
  · have hrest : a.busy = false ∨ a.remainingCycles.toNat = 0 := by
      rw [not_and_or, Bool.not_eq_true, gt_iff_lt, UInt32.lt_iff_toNat_lt, UInt32.toNat_zero,
        Nat.pos_iff_ne_zero, not_not] at h
      exact h
    rw [if_neg h, update_rest hrest]
    exact S

end Steps

/-- **The counters of every run.** -/
theorem run_serving {config : AAUConfig} {a : AAU} {h : List Event}
    (hr : Exec machine (new config) a h) : Serving config a (Log.of h) := by
  refine hr.invariant (P := fun a h => Serving config a (Log.of h))
    ⟨rfl, fun _ => ⟨rfl, rfl⟩, Bool.noConfusion, fun _ ho => absurd ho List.not_mem_nil, rfl⟩ ?_
  intro a h c a' S hs
  rw [Log.of_append]
  cases c with
  | startOperation op n =>
      simp only [machine] at hs
      split at hs
      · cases hs
        exact S.start op n
      · cases hs
  | update =>
      cases hs
      exact S.update

/-- Sums of terms below others are equal exactly when the terms are. -/
theorem latencies_eq_iff {f g : AAUOperation → UInt32 → Nat} (hle : ∀ op n, f op n ≤ g op n)
    (ops : List (AAUOperation × UInt32)) :
    latencies f ops = latencies g ops ↔ ∀ o ∈ ops, f o.1 o.2 = g o.1 o.2 := by
  constructor
  · intro heq
    by_contra hne
    push Not at hne
    obtain ⟨o, ho, hlt⟩ := hne
    have hless := List.sum_lt_sum (l := ops) (fun o => f o.1 o.2) (fun o => g o.1 o.2)
      (fun o _ => hle o.1 o.2) ⟨o, ho, lt_of_le_of_ne (hle o.1 o.2) hlt⟩
    exact absurd heq (Nat.ne_of_lt hless)
  · intro h
    exact congrArg List.sum (List.map_congr_left h)

/-- **Exactly when the unit keeps the documented latency**, for every configuration with a vector
    width. An idle unit serves an operation for its documented latency if and only if the number of
    elements and the vector width stay within the 32 bits, the latency does, and it is not 0. In
    every run the counted cycles are the documented latencies of the finished operations and the
    progress of the current one if and only if every finished operation is such. -/
theorem serves_documented_latency (config : AAUConfig) (hwidth : 1 ≤ config.vectorWidth) :
    (∀ a : AAU, a.config = config → a.busy = false → ∀ (op : AAUOperation) (numElements : UInt32),
      (op.isReduction = true → 1 ≤ numElements) →
        (BusyFor a op numElements (documentedLatency config op numElements) ↔
          Fits config op numElements)) ∧
      ∀ (a : AAU) (h : List Event), Exec machine (new config) a h →
        (a.totalCycles =
            latencies (documentedLatency config) (Log.of h).finished + (Log.of h).progress ↔
          ∀ o ∈ (Log.of h).finished, Fits config o.1 o.2) := by
  constructor
  · intro a hconfig hidle op n _
    rw [busyFor_iff hidle, hconfig]
    exact (fits_iff hwidth op n).symm
  · intro a h hr
    have S := run_serving hr
    rw [S.total, Nat.add_right_cancel_iff, latencies_eq_iff (latency_toNat_le hwidth)]
    refine forall₂_congr fun o ho => ?_
    rw [fits_iff hwidth]
    constructor
    · intro heq
      exact ⟨heq, heq ▸ S.finished o ho⟩
    · exact fun h => h.1

/-- The unit as it is built serves a `GELU` of 40 elements for 14 cycles. -/
theorem serves_gelu_forty :
    BusyFor (new {}) .gelu 40 14 ∧
      ∃ a h, Exec machine (new {}) a h ∧ (Log.of h).finished = [] ∧
        a.totalCycles = (Log.of h).progress ∧ a.totalCycles = 1 := by
  obtain ⟨hbusy, hruns⟩ := serves_documented_latency {} (by decide)
  refine ⟨(hbusy (new {}) rfl rfl .gelu 40 (by decide)).mpr ⟨⟨by decide, by decide⟩, by decide⟩, ?_⟩
  have hr : Exec machine (new {}) ((new {}).startOperation .gelu 40).2.update
      [.taken .gelu 40, .worked] := by
    have hrun : machine.run [.startOperation .gelu 40, .update] (new {}) =
        some (((new {}).startOperation .gelu 40).2.update, [.taken .gelu 40, .worked]) := rfl
    exact exec_of_run hrun
  refine ⟨_, _, hr, rfl, ?_, rfl⟩
  have htotal := (hruns _ _ hr).mpr fun _ ho => absurd ho List.not_mem_nil
  exact htotal.trans (Nat.zero_add _)

/-- **A unit that stays busy, and one that is done too early**: with a base latency of 0, a `GELU`
    of no elements takes no cycle, and the unit is busy after it; with the configuration as built,
    the longest `GELU` wraps to the base latency. -/
theorem gelu_not_served :
    ¬ BusyFor (new { latencyCycles := 0 }) .gelu 0
        (documentedLatency { latencyCycles := 0 } .gelu 0) ∧
      ¬ BusyFor (new {}) .gelu 4294967295 (documentedLatency {} .gelu 4294967295) := by
  constructor
  · intro h
    have hfree := h.available [] ⟨by decide, .inl rfl⟩
    exact absurd hfree (by decide)
  · intro h
    have hlatency := h.returned
    exact absurd hlatency (by decide)

end AAU

end Ahasd.PIMSimulator
