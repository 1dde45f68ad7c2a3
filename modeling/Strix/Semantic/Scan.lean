import Strix.Engine.Service
import Strix.Foundation.FirstMax

/-! # What the scan of the L0 slots computes

The loop threads three accumulators and a state. Each slot is visited once, so
its effect splits into three independent results: the expired slots become
dead, the first maximum runs over the matchable slots, and the reusable slot is
the first that was dead or expired.
-/
namespace Strix
open FirstMax Scoring

/-- A reservation that has outlived its span at clock reading `t`. -/
def MetaNode.expired (t : UInt64) (node : MetaNode) : Bool :=
  node.loadControl.state = .pending ∧ node.createdAt ≠ 0 ∧
    pendingLifespan.toUInt64 < t - node.createdAt

/-- The scan scores the slot. -/
def MetaNode.matchable (t : UInt64) (node : MetaNode) : Bool :=
  node.loadControl.state = .ready ∨ node.loadControl.state = .migrating ∨
    (node.loadControl.state = .pending ∧ node.createdAt ≠ 0 ∧
      ¬ pendingLifespan.toUInt64 < t - node.createdAt)

def MetaNode.reusable (t : UInt64) (node : MetaNode) : Bool :=
  node.loadControl.state = .dead ∨ node.expired t

def MetaNode.expire (node : MetaNode) : MetaNode :=
  ⟨0,packControl .dead node.loadControl.refBit node.loadControl.length
    node.loadControl.virtualOffset⟩

/-- A slot index as the service's signed id, with -1 for none. -/
def slotId (i : Option ℕ) : ℤ := i.elim (-1) (fun i => i)

section Scan
variable {K : Type*} [Scoring K]

def expireBelow (t : UInt64) (n : ℕ) (arena : MemoryArena (Vec K)) : MemoryArena (Vec K) :=
  { arena with
    metadata := fun i =>
      if i < n ∧ (arena.metadata i).expired t then (arena.metadata i).expire
      else arena.metadata i }

def slotScore (query : Vec K) (t : UInt64) (arena : MemoryArena (Vec K)) (i : ℕ) : Option K :=
  if (arena.metadata i).matchable t then some (cosineSimilarity query (arena.vectors i)) else none

def bestSlot (query : Vec K) (t : UInt64) (arena : MemoryArena (Vec K)) (n : ℕ) : K × Option ℕ :=
  firstMax greater (slotScore query t arena) minusOne n

def reusableSlot (t : UInt64) (arena : MemoryArena (Vec K)) (n : ℕ) : Option ℕ :=
  (List.range n).find? (fun i => (arena.metadata i).reusable t)

variable {query : Vec K} {t : UInt64} {arena : MemoryArena (Vec K)} {n i : ℕ}

omit [Scoring K] in
theorem expireBelow_metadata_ge (h : n ≤ i) :
    (expireBelow t n arena).metadata i = arena.metadata i := by
  simp [expireBelow, Nat.not_lt.mpr h]

omit [Scoring K] in
theorem expireBelow_succ : expireBelow t (n + 1) arena =
    if (arena.metadata n).expired t then
      ((expireBelow t n arena).storeControl n
        (arena.metadata n).expire.controlBlock).storeCreatedAt n 0
    else expireBelow t n arena := by
  have hother : ∀ i, i ≠ n → (i < n + 1 ↔ i < n) := by omega
  cases he : (arena.metadata n).expired t with
  | true =>
    simp only [if_true, expireBelow, MemoryArena.storeControl, MemoryArena.storeCreatedAt]
    congr 1
    funext i
    by_cases hi : i = n
    · subst hi
      simp [he, MetaNode.expire]
    · rw [Function.update_of_ne hi, Function.update_of_ne hi]
      simp only [hother i hi]
  | false =>
    simp only [Bool.false_eq_true, if_false, expireBelow]
    congr 1
    funext i
    by_cases hi : i = n
    · subst hi
      simp [he]
    · simp only [hother i hi]

theorem slotId_eq_neg_one {i : Option ℕ} : slotId i = -1 ↔ i = none := by
  cases i <;> simp [slotId]

omit [Scoring K] in
theorem slotId_reusableSlot_succ : slotId (reusableSlot t arena (n + 1)) =
    if (arena.metadata n).reusable t ∧ slotId (reusableSlot t arena n) = -1 then (n : ℤ)
    else slotId (reusableSlot t arena n) := by
  have hsucc : reusableSlot t arena (n + 1) = (reusableSlot t arena n).or
      (if (arena.metadata n).reusable t then some n else none) := by
    simp [reusableSlot, List.range_succ, List.find?_append, List.find?_cons]
    cases (arena.metadata n).reusable t <;> rfl
  rw [hsucc]
  simp only [slotId_eq_neg_one]
  cases reusableSlot t arena n with
  | some m => simp
  | none => cases (arena.metadata n).reusable t <;> simp [slotId]

theorem scoreSlot_bestSlot (r : ℤ) :
    (if (arena.metadata n).matchable t then
      scoreSlot query (arena.vectors n) n
        ⟨(bestSlot query t arena n).1,slotId (bestSlot query t arena n).2,r⟩
    else ⟨(bestSlot query t arena n).1,slotId (bestSlot query t arena n).2,r⟩) =
      ⟨(bestSlot query t arena (n + 1)).1,slotId (bestSlot query t arena (n + 1)).2,r⟩ := by
  cases hm : (arena.metadata n).matchable t with
  | true =>
    have hkey : slotScore query t arena n = some (cosineSimilarity query (arena.vectors n)) := by
      simp [slotScore, hm]
    rw [bestSlot, bestSlot, firstMax_succ_some hkey, if_pos rfl, scoreSlot]
    split <;> simp_all [slotId]
  | false =>
    have hkey : slotScore query t arena n = none := by simp [slotScore, hm]
    rw [bestSlot, bestSlot, firstMax_succ_none hkey, if_neg Bool.false_ne_true]

/-- The loop body by what the slot's node is: an expired reservation is stored
dead, a matchable slot is scored, the first reusable slot is kept. -/
theorem scanSlot_eq (scan : Scan K) : scanSlot query t (arena, scan) i =
    (if (arena.metadata i).expired t then
      (arena.storeControl i (arena.metadata i).expire.controlBlock).storeCreatedAt i 0
    else arena,
    { (if (arena.metadata i).matchable t then scoreSlot query (arena.vectors i) i scan
        else scan) with
      reusableNodeId := if (arena.metadata i).reusable t ∧ scan.reusableNodeId = -1 then (i : ℤ)
        else scan.reusableNodeId }) := by
  cases hstate : (unpackControl (arena.metadata i).controlBlock).state with
  | dead | ready | migrating =>
    simp [scanSlot, scoreSlot, MetaNode.expired, MetaNode.matchable, MetaNode.reusable,
      MetaNode.loadControl, hstate]
  | pending =>
    by_cases hborn : (arena.metadata i).createdAt = 0
    · simp [scanSlot, MetaNode.expired, MetaNode.matchable, MetaNode.reusable,
        MetaNode.loadControl, hstate, hborn]
    · by_cases hage : pendingLifespan.toUInt64 < t - (arena.metadata i).createdAt
      · simp [scanSlot, MetaNode.expired, MetaNode.matchable, MetaNode.reusable, MetaNode.expire,
          MetaNode.loadControl, MemoryArena.compareExchange, hstate, hborn, hage]
      · simp [scanSlot, scoreSlot, MetaNode.expired, MetaNode.matchable, MetaNode.reusable,
          MetaNode.loadControl, hstate, hborn, hage]

/-- The scan over the first `n` slots, as its three results. -/
theorem scan_range (n : ℕ) :
    (List.range n).foldl (scanSlot query t)
        (arena, { maxScore := minusOne, bestNodeId := -1, reusableNodeId := -1 }) =
      (expireBelow t n arena,
        ⟨(bestSlot query t arena n).1,slotId (bestSlot query t arena n).2,
          slotId (reusableSlot t arena n)⟩) := by
  induction n with
  | zero => simp [expireBelow, bestSlot, firstMax, reusableSlot, slotId]
  | succ n ih =>
    have hnode : (expireBelow t n arena).metadata n = arena.metadata n :=
      expireBelow_metadata_ge le_rfl
    have hvec : (expireBelow t n arena).vectors = arena.vectors := rfl
    rw [List.range_succ, List.foldl_append, ih, List.foldl_cons, List.foldl_nil, scanSlot_eq,
      hnode, hvec, scoreSlot_bestSlot, ← expireBelow_succ, ← slotId_reusableSlot_succ]

def expireSlots (t : UInt64) (arena : MemoryArena (Vec K)) : MemoryArena (Vec K) :=
  expireBelow t l0MaxSlots arena

theorem scanL0_eq : scanL0 query t arena = (expireSlots t arena,
    ⟨(bestSlot query t arena l0MaxSlots).1,slotId (bestSlot query t arena l0MaxSlots).2,
      slotId (reusableSlot t arena l0MaxSlots)⟩) := scan_range l0MaxSlots

end Scan

end Strix
