import Strix.Ring.Allocation
import Strix.Foundation.StepBudget
import Mathlib.Data.Finset.Card
import Mathlib.Tactic.Common

/-! # An allocation is held up by other allocations only

A turn of the loop of `AllocatePayload` that reserves nothing has met a head which
another call has moved in the meantime, or an exchange that has failed spuriously.
So some call always gets through, and a call takes no more turns than there are
other calls that return while it runs.
-/
namespace Strix
open RunHistory ThreadPool

section Model
variable {V : Type*}

def Allocator.hasReturned : Allocator → Bool
  | .returned _ _ => true
  | .collector | .idle | .allocating _ _ | .raised _ _ => false

def Allocator.failsSpuriously (arena : MemoryArena V) : Allocator → AllocateAction → Bool
  | .allocating _ (.exchanging currWrite), .proceed true => currWrite = arena.writeHead
  | _, _ => false

def spuriousFailures (i : Option ℕ) (es : List (AllocateBeat V)) : ℕ :=
  total (fun τ =>
    if τ.act.1 = i ∧ (τ.before.threads i).failsSpuriously τ.before.shared τ.act.2 then 1 else 0) es

def overtakings (i : Option ℕ) (es : List (AllocateBeat V)) : ℕ :=
  total (fun τ => if τ.act.1 ≠ i ∧ (τ.after.threads τ.act.1).hasReturned then 1 else 0) es

def Allocator.rank (arena : MemoryArena V) : Allocator → ℕ
  | .idle => 4
  | .allocating _ .loadingHead => 3
  | .allocating _ (.loadingTail currWrite) => if currWrite = arena.writeHead then 2 else 4
  | .allocating _ (.exchanging currWrite) => if currWrite = arena.writeHead then 1 else 3
  | .collector | .returned _ _ | .raised _ _ => 0

end Model

section Steps
variable {V : Type*} {arena arena' : MemoryArena V} {caller next : Allocator}
  {action : AllocateAction}

theorem Allocator.rank_le (caller : Allocator) (arena arena' : MemoryArena V) :
    caller.rank arena' ≤ caller.rank arena + 2 := by
  cases caller with
  | allocating length phase =>
    cases phase with
    | loadingHead => exact Nat.le_add_right _ _
    | loadingTail | exchanging =>
      simp only [rank]
      split <;> split <;> omega
  | collector | idle | returned | raised => exact Nat.le_add_right _ _

theorem Allocator.rank_of_head_eq (caller : Allocator) (h : arena'.writeHead = arena.writeHead) :
    caller.rank arena' = caller.rank arena := by
  cases caller with
  | allocating length phase => cases phase <;> simp only [rank, h]
  | collector | idle | returned | raised => rfl

theorem AllocateStep.rank_lt (h : AllocateStep arena caller action arena' next)
    (hclient : caller ≠ .collector) : next ≠ .collector ∧ next.rank arena' + 1 ≤
      caller.rank arena + 2 * (if caller.failsSpuriously arena action then 1 else 0) := by
  cases h with
  | call => exact ⟨by simp,by simp [Allocator.rank]⟩
  | advance => exact absurd rfl hclient
  | @proceed _ length phase spurious _ h =>
    cases phase with
    | loadingHead =>
      obtain ⟨rfl,rfl⟩ := Prod.mk.inj h
      exact ⟨by simp,by simp [Allocator.rank]⟩
    | loadingTail currWrite =>
      simp only [allocateStep] at h
      split at h <;> obtain ⟨rfl,rfl⟩ := Prod.mk.inj h <;> refine ⟨by simp,?_⟩ <;>
        simp only [Allocator.rank] <;> split <;> omega
    | exchanging currWrite =>
      simp only [allocateStep] at h
      split at h <;> obtain ⟨rfl,rfl⟩ := Prod.mk.inj h
      · refine ⟨by simp,?_⟩
        simp only [Allocator.rank]
        split <;> omega
      · rename_i hfailed
        refine ⟨by simp,?_⟩
        -- the loop turns with the current head: the old one or the exchange was to blame
        by_cases hhead : currWrite = arena.writeHead
        · have hspurious : spurious = true := by
            by_contra hsound
            exact hfailed ⟨hhead.symm,Bool.eq_false_iff.mpr hsound⟩
          simp [Allocator.rank, Allocator.failsSpuriously, hspurious, hhead]
        · simp [Allocator.rank, hhead]

end Steps

section Runs
variable {V : Type*} {arena : MemoryArena V} {es : List (AllocateBeat V)} {pool : AllocatePool V}
  {i : ℕ}

theorem collector_of_run (hrun : Run (Moves AllocateStep) (startAllocation arena) es pool) :
    pool.threads none = .collector :=
  run_local (J := fun i c => i = none → c = Allocator.collector)
    (fun i s l a s' l' hstep hJ hi => by
      have hl := hJ hi
      subst hl
      exact hstep.collector_eq) hrun (fun i hi => by subst hi; rfl) none rfl

theorem AllocateStep.not_returned {arena arena' : MemoryArena V} {caller next : Allocator}
    {action : AllocateAction} (h : AllocateStep arena caller action arena' next) :
    caller.hasReturned = false := by
  cases h <;> rfl

theorem overtakings_le (hrun : Run (Moves AllocateStep) (startAllocation arena) es pool)
    {callers : Finset ℕ} (hcallers : ∀ τ ∈ es, ∀ j, τ.act.1 = some j → j ∈ callers) :
    overtakings (some i) es ≤
      ((callers.erase i).filter fun j => (pool.threads (some j)).hasReturned).card := by
  refine hrun.historyInvariant_of_run (I := fun es u => overtakings (some i) es ≤
      ((callers.erase i).filter fun j => (u.threads (some j)).hasReturned).card)
    (P := fun τ => ∀ j, τ.act.1 = some j → j ∈ callers) ?_ hcallers (Nat.zero_le _)
  rintro es ⟨u,⟨id,action⟩,v⟩ hbefore hmove hcaller ih
  have hrunning := hmove.own.not_returned
  simp only [overtakings, total_append, total_cons, total_nil, add_zero] at ih hrunning ⊢
  -- who has returned before the step has returned after it
  have hkeep : ∀ j ∈ (callers.erase i).filter fun j => (u.threads (some j)).hasReturned,
      j ∈ (callers.erase i).filter fun j => (v.threads (some j)).hasReturned := by
    intro j hj
    obtain ⟨hmem,hreturned⟩ := Finset.mem_filter.mp hj
    have hother : some j ≠ id := by
      rintro rfl
      rw [hrunning] at hreturned
      cases hreturned
    rw [← hmove.others (some j) hother] at hreturned
    exact Finset.mem_filter.mpr ⟨hmem,hreturned⟩
  by_cases hreturn : id ≠ some i ∧ (v.threads id).hasReturned = true
  · rw [if_pos hreturn]
    obtain ⟨hne,hreturned⟩ := hreturn
    cases id with
    | none =>
      rw [collector_of_run (hbefore.snoc hmove)] at hreturned
      cases hreturned
    | some j =>
      have hj : j ∈ callers.erase i :=
        Finset.mem_erase.mpr ⟨fun h => hne (congrArg some h),hcaller j rfl⟩
      have hnew : j ∉ (callers.erase i).filter fun j => (u.threads (some j)).hasReturned := by
        simp [hrunning]
      refine (Nat.add_le_add_right ih 1).trans ?_
      rw [← Finset.card_insert_of_notMem hnew]
      exact Finset.card_le_card
        (Finset.insert_subset (Finset.mem_filter.mpr ⟨hj,hreturned⟩) hkeep)
  · rw [if_neg hreturn, add_zero]
    exact ih.trans (Finset.card_le_card hkeep)

/-- `AllocatePayload` is lock-free: a call is over after four steps, and two more for each
spurious failure of its own exchange and for each other call that has returned. So
among any number of callers it is over after twice as many steps, and two. -/
theorem allocatePayload_lockFree
    (hrun : Run (Moves AllocateStep) (startAllocation arena) es pool) (i : ℕ) :
    stepsOf (some i) es ≤ 4 + 2 * (spuriousFailures (some i) es + overtakings (some i) es) ∧
    ∀ callers : Finset ℕ, (∀ τ ∈ es, ∀ j, τ.act.1 = some j → j ∈ callers) → i ∈ callers →
      stepsOf (some i) es ≤ 2 * callers.card + 2 + 2 * spuriousFailures (some i) es := by
  have hbudget : stepsOf (some i) es ≤
      4 + 2 * (spuriousFailures (some i) es + overtakings (some i) es) := by
    have hsteps := (steps_le (i := some i) (J := fun c => c ≠ Allocator.collector)
      (fun arena c => c.rank arena)
      (fun τ => 2 * ((if τ.act.1 = some i ∧ (τ.before.threads (some i)).failsSpuriously
          τ.before.shared τ.act.2 then 1 else 0) +
        if τ.act.1 ≠ some i ∧ (τ.after.threads τ.act.1).hasReturned then 1 else 0))
      ?_ ?_ hrun (by simp [startAllocation])).2
    · rw [total_mul, total_add] at hsteps
      exact (Nat.le_add_right _ _).trans hsteps
    · intro τ hi hown hclient
      obtain ⟨hclient',hlt⟩ := hown.rank_lt hclient
      refine ⟨hclient',hlt.trans ?_⟩
      simp [hi]
    · rintro ⟨u,⟨id,action⟩,v⟩ hmove hid -
      rcases allocateStep_cases hmove.own with ⟨hhead,-⟩ | ⟨length,-,hnext,-⟩
      · rw [Allocator.rank_of_head_eq _ hhead]
        exact Nat.le_add_right _ _
      · have hreturned : (v.threads id).hasReturned = true := by
          simp only at hnext
          rw [hnext]
          rfl
        refine (Allocator.rank_le _ u.shared v.shared).trans ?_
        simp only at hid
        simp [hid, hreturned]
  refine ⟨hbudget,fun callers hcallers hi => ?_⟩
  have hothers := (overtakings_le (i := i) hrun hcallers).trans (Finset.card_filter_le _ _)
  rw [Finset.card_erase_of_mem hi] at hothers
  have hpos := Finset.card_pos.mpr ⟨i,hi⟩
  omega

/-- The first caller has loaded the head when the second one returns: its exchange fails,
and it takes the two steps more that the bound allows it. -/
theorem allocatePayload_lockFree_replay : ∃ (es : List (AllocateBeat Unit))
    (pool : AllocatePool Unit), Run (Moves AllocateStep) (startAllocation (.initial ())) es pool ∧
      stepsOf (some 0) es = 6 ∧ spuriousFailures (some 0) es = 0 ∧ overtakings (some 0) es = 1 ∧
      pool.threads (some 0) = .returned 5 19 ∧ stepsOf (some 0) es ≤ 2 * 2 + 2 + 2 * 0 := by
  have hfirst := run_caller (.nil _) 0 (a := .call 5) .call
  have hhead := run_caller hfirst 0 (a := .proceed false) (.proceed rfl)
  have htail := run_caller hhead 0 (a := .proceed false) (.proceed rfl)
  have hsecond := run_caller htail 1 (a := .call 7) .call
  have hhead' := run_caller hsecond 1 (a := .proceed false) (.proceed rfl)
  have htail' := run_caller hhead' 1 (a := .proceed false) (.proceed rfl)
  have hreturned := run_caller htail' 1 (a := .proceed false) (.proceed rfl)
  have hfailed := run_caller hreturned 0 (a := .proceed false) (.proceed rfl)
  have hretried := run_caller hfailed 0 (a := .proceed false) (.proceed rfl)
  have hrun := run_caller hretried 0 (a := .proceed false) (.proceed rfl)
  refine ⟨_,_,hrun,rfl,rfl,rfl,rfl,?_⟩
  exact (allocatePayload_lockFree hrun 0).2 {0,1} (by simp) (by simp)

end Runs

end Strix
