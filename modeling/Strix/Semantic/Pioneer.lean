import Strix.Semantic.Publication

/-! # One pioneer for a query

Checks for one query run at once in an engine with no live slot similar to it.
Before the first claim every scan stays below the threshold. After it the scans
either still have the claimed slot ahead of them, or hold it as their reusable
or their best slot, as long as no scan judges it while its claim is unfinished
and none has gone past it with another slot in hand.
-/
namespace Strix
open RunHistory ThreadPool Scoring

section Conditions
variable {K : Type*}

/-- The scan has yet to judge slot `n`, or is past it with `n` as its reusable slot. -/
def CheckPhase.Clears (n : ℕ) : CheckPhase K → Prop
  | .scanning i scan => i ≤ n ∨ scan.reusableNodeId = n
  | .aging i scan _ => i ≤ n ∨ scan.reusableNodeId = n
  | .expiring i scan _ _ => i < n ∨ (n < i ∧ scan.reusableNodeId = n)
  | .resetting i scan => i < n ∨ scan.reusableNodeId = n
  | .scoring i scan => i < n ∨ (n < i ∧ scan.reusableNodeId = n)
  | .claiming id => id = n
  | .exchanging id _ => id = n
  | _ => True

/-- A claim finds every other call under way with the slot still ahead or in hand. -/
def ClaimSeen (start : AtomicPool K) (τ : AtomicBeat K) : Prop :=
  ∀ query t id w, τ.before.threads τ.act.1 = .checking query t (.exchanging id w) →
    (τ.before.shared.metadata (toSize id)).controlBlock = w →
      ∀ j query' t' phase, j ≠ τ.act.1 → start.threads j = .idle →
        τ.before.threads j = .checking query' t' phase → phase.Clears (toSize id)

/-- A scan takes the age of a slot that another call has claimed after that call's last
store, and finds it born and young. -/
def StampSeen (start : AtomicPool K) (τ : AtomicBeat K) : Prop :=
  ∀ query t i scan w, τ.before.threads τ.act.1 = .checking query t (.aging i scan w) →
    ∀ j, start.threads j = .idle → (τ.before.threads j).claimed = some (i : ℤ) →
      (∃ reply, τ.before.threads j = .finished reply) ∧
      (τ.before.shared.metadata i).createdAt ≠ 0 ∧
      ¬pendingLifespan.toUInt64 < t - (τ.before.shared.metadata i).createdAt

def Asks (start : AtomicPool K) (query : Vec K) (τ : AtomicBeat K) : Prop :=
  start.threads τ.act.1 = .idle ∧
    ((∃ prompt t, τ.act.2 = .check prompt (.ok query) t) ∨ ∃ spurious, τ.act.2 = .proceed spurious)

def Reply.Unreserved : Reply → Prop
  | .checked (.ok response) =>
    response.checkState = .pending ∨ (response.checkState = .miss ∧ response.nodeId = -1)
  | .checked (.error _) => True
  | .stored _ => False
  | .collected => False

end Conditions

section Scans
variable {K : Type*} [Scoring K]

def Scan.Below (scan : Scan K) : Prop :=
  atLeast scan.maxScore (similarityThreshold : K) = false

/-- The scan ends at slot `n`: as its best slot, or as the one to claim. -/
def Scan.Resolved (n : ℕ) (scan : Scan K) : Prop :=
  (scan.Below ∧ scan.reusableNodeId = n) ∨
    (atLeast scan.maxScore (similarityThreshold : K) = true ∧ scan.bestNodeId = n)

/-- The phases of a check that has met no similar slot among those that were `live`. -/
def CheckPhase.Searching (live : ℕ → Prop) : CheckPhase K → Prop
  | .scanning _ scan => scan.Below
  | .aging i scan _ => scan.Below ∧ live i
  | .expiring _ scan _ _ => scan.Below
  | .resetting _ scan => scan.Below
  | .scoring i scan => scan.Below ∧ live i
  | .claiming _ => True
  | .exchanging _ _ => True
  | _ => False

/-- The phases of a check while slot `n` is claimed by another; `filled` says that the
slot holds the query. -/
def CheckPhase.Following (live : ℕ → Prop) (n : ℕ) (filled : Prop) : CheckPhase K → Prop
  | .scanning i scan => (i ≤ n ∧ scan.Below) ∨ (n < i ∧ scan.Resolved n)
  | .aging i scan _ => ((i ≤ n ∧ scan.Below) ∨ (n < i ∧ scan.Resolved n)) ∧ (i ≠ n → live i)
  | .expiring i scan _ _ => (i < n ∧ scan.Below) ∨ (n < i ∧ scan.Resolved n)
  | .resetting i scan => (i < n ∧ scan.Below) ∨ (n ≤ i ∧ scan.Resolved n)
  | .scoring i scan => (i < n ∧ scan.Below ∧ live i) ∨ (i = n ∧ scan.Below ∧ filled) ∨
      (n < i ∧ scan.Resolved n ∧ live i)
  | .answering scan => scan.bestNodeId = n
  | .claiming id => id = n
  | .exchanging id _ => id = n
  | _ => False

def Actor.Asking (query : Vec K) (P : CheckPhase K → Prop) : Actor K → Prop
  | .idle => True
  | .checking query' _ phase => query' = query ∧ P phase
  | .finished reply => reply.Unreserved
  | _ => False

variable {scan : Scan K} {n : ℕ}

theorem Scan.Below.score {query vector : Vec K} (h : scan.Below) (i : ℕ)
    (hv : ¬Similar query vector) : (scoreSlot query vector i scan).Below := by
  simp only [scoreSlot, Scan.Below]
  split
  · exact Bool.eq_false_iff.mpr hv
  · exact h

theorem Scan.Resolved.reuse (h : scan.Resolved n) {p : Prop} [Decidable p]
    (hp : p → scan.reusableNodeId = -1) (i : ℕ) :
    ({ scan with reusableNodeId := if p then (i : ℤ) else scan.reusableNodeId } :
      Scan K).Resolved n := by
  rcases h with ⟨hbelow,hreusable⟩ | hbest
  · refine .inl ⟨hbelow,?_⟩
    rw [if_neg fun h => by have := hp h; omega]
    exact hreusable
  · exact .inr hbest

end Scans

section Exact
variable {K : Type*} [Field K] [LinearOrder K] [IsStrictOrderedRing K] {scan : Scan K} {n i : ℕ}
  {query vector : Vec K}

theorem Scan.below_iff : scan.Below ↔ scan.maxScore < exactThreshold := by
  rw [Scan.Below]
  exact decide_eq_false_iff_not.trans not_le

theorem Scan.Below.resolve (h : scan.Below) (hv : Similar query vector) :
    (scoreSlot query vector n scan).Resolved n := by
  have hbetter : scan.maxScore < cosineSimilarity query vector :=
    (Scan.below_iff.mp h).trans_le (similar_iff.mp hv)
  have hgreater : greater (cosineSimilarity query vector) scan.maxScore = true :=
    decide_eq_true hbetter
  refine .inr ⟨?_,?_⟩
  · simp only [scoreSlot, hgreater, if_true]
    exact hv
  · simp only [scoreSlot, hgreater, if_true]

theorem Scan.Resolved.score (h : scan.Resolved n) (i : ℕ) (hv : ¬Similar query vector) :
    (scoreSlot query vector i scan).Resolved n := by
  rcases h with ⟨hbelow,hreusable⟩ | ⟨hbest,hnode⟩
  · exact .inl ⟨hbelow.score i hv,hreusable⟩
  · have hworse : cosineSimilarity query vector < scan.maxScore :=
      (not_similar_iff.mp hv).trans_le (of_decide_eq_true hbest)
    have hgreater : greater (cosineSimilarity query vector) scan.maxScore = false :=
      decide_eq_false hworse.le.not_gt
    refine .inr ⟨?_,?_⟩
    · simpa only [scoreSlot, hgreater, Bool.false_eq_true, if_false] using hbest
    · simpa only [scoreSlot, hgreater, Bool.false_eq_true, if_false] using hnode

variable {arena arena' : MemoryArena (Vec K)} {t : UInt64} {phase : CheckPhase K} {next : Actor K}
  {live : ℕ → Prop}

omit [Field K] [LinearOrder K] [IsStrictOrderedRing K] in
theorem live_of_storeDead {i j : ℕ} {ctrl : UnpackedControl}
    (h : (arena.storeControl i
      (packControl .dead ctrl.refBit ctrl.length ctrl.virtualOffset)).stateOf j ≠ .dead) :
    arena.stateOf j ≠ .dead := by
  rw [MemoryArena.stateOf_storeControl] at h
  split at h
  · simp at h
  · exact h

/-- Before the first claim: a check goes on below the threshold, or it claims a slot. -/
theorem searching_step (h : checkStep query t arena phase = .ok (arena', next))
    (hphase : phase.Searching live) (hlive : ∀ i, arena.stateOf i ≠ .dead → live i)
    (hapart : ∀ i < l0MaxSlots, live i → ¬Similar query (arena.vectors i))
    (hwell : phase.WellFormed t) :
    (next.Asking query (CheckPhase.Searching live) ∧ arena'.vectors = arena.vectors ∧
      ∀ i, arena'.stateOf i ≠ .dead → arena.stateOf i ≠ .dead) ∨
    ∃ id, phase = .exchanging id (arena.metadata (toSize id)).controlBlock ∧
      next = .checking query t (.copying id) ∧
      arena' = arena.storeControl (toSize id) (packControl .pending .hot 0 0) := by
  have hloaded : ∀ {i}, (unpackControl (arena.metadata i).controlBlock).state ≠ .dead → live i :=
    fun {i} hi => hlive i hi
  cases phase with
  | scanning i scan =>
    have hbelow : scan.Below := hphase
    simp only [checkStep] at h
    split at h
    · split at h <;> rename_i hstate <;> obtain ⟨rfl,rfl⟩ := Prod.mk.inj (Except.ok.inj h)
      · exact .inl ⟨⟨rfl,hbelow,hloaded (by rw [hstate]; decide)⟩,rfl,fun _ => id⟩
      · exact .inl ⟨⟨rfl,hbelow,hloaded (by rw [hstate]; decide)⟩,rfl,fun _ => id⟩
      · exact .inl ⟨⟨rfl,hbelow,hloaded (by rw [hstate]; decide)⟩,rfl,fun _ => id⟩
      · exact .inl ⟨⟨rfl,hbelow⟩,rfl,fun _ => id⟩
    · rw [show atLeast scan.maxScore (similarityThreshold : K) = false from hbelow] at h
      obtain ⟨rfl,rfl⟩ := Prod.mk.inj (Except.ok.inj h)
      refine .inl ⟨?_,rfl,fun _ => id⟩
      unfold beginClaim
      split
      · trivial
      · exact ⟨rfl,trivial⟩
  | aging i scan w =>
    obtain ⟨hbelow,hi⟩ := hphase
    simp only [checkStep] at h
    split at h
    · obtain ⟨rfl,rfl⟩ := Prod.mk.inj (Except.ok.inj h)
      exact .inl ⟨⟨rfl,hbelow⟩,rfl,fun _ => id⟩
    split at h <;> obtain ⟨rfl,rfl⟩ := Prod.mk.inj (Except.ok.inj h)
    · exact .inl ⟨⟨rfl,hbelow⟩,rfl,fun _ => id⟩
    · exact .inl ⟨⟨rfl,hbelow,hi⟩,rfl,fun _ => id⟩
  | expiring i scan w birthTime =>
    have hbelow : scan.Below := hphase
    rcases checkStep_expiring h with ⟨-,rfl,rfl⟩ | ⟨rfl,rfl⟩
    · exact .inl ⟨⟨rfl,hbelow⟩,rfl,fun _ => live_of_storeDead⟩
    · exact .inl ⟨⟨rfl,hbelow⟩,rfl,fun _ => id⟩
  | resetting i scan =>
    obtain ⟨rfl,rfl⟩ := Prod.mk.inj (Except.ok.inj h)
    exact .inl ⟨⟨rfl,hphase⟩,rfl,fun j hj => by rwa [MemoryArena.stateOf_storeCreatedAt] at hj⟩
  | scoring i scan =>
    obtain ⟨rfl,rfl⟩ := Prod.mk.inj (Except.ok.inj h)
    exact .inl ⟨⟨rfl,hphase.1.score i (hapart i hwell.1 hphase.2)⟩,rfl,fun _ => id⟩
  | claiming id =>
    simp only [checkStep] at h
    split at h
    · simp only [reduceCtorEq] at h
    split at h <;> obtain ⟨rfl,rfl⟩ := Prod.mk.inj (Except.ok.inj h)
    · exact .inl ⟨⟨rfl,trivial⟩,rfl,fun _ hj => hj⟩
    · exact .inl ⟨.inr ⟨rfl,rfl⟩,rfl,fun _ hj => hj⟩
  | exchanging id w =>
    rcases checkStep_exchanging h with ⟨rfl,rfl,rfl⟩ | ⟨rfl,rfl⟩
    · exact .inr ⟨id,rfl,rfl,rfl⟩
    · exact .inl ⟨.inr ⟨rfl,rfl⟩,rfl,fun _ hj => hj⟩
  | answering | reading | touching | copying | stamping => exact hphase.elim

theorem following_scanning {n i : ℕ} {scan : Scan K} {filled : Prop} (hn : n < l0MaxSlots)
    (h : checkStep query t arena (.scanning i scan) = .ok (arena', next))
    (hplace : (i ≤ n ∧ scan.Below) ∨ (n < i ∧ scan.Resolved n))
    (hpending : arena.stateOf n = .pending)
    (hlive : ∀ i, i ≠ n → arena.stateOf i ≠ .dead → live i) :
    arena' = arena ∧ next.Asking query (CheckPhase.Following live n filled) := by
  simp only [checkStep] at h
  split at h
  · have hstill : (unpackControl (arena.metadata i).controlBlock).state ≠ .pending → i ≠ n := by
      rintro hother rfl
      exact hother hpending
    have hreuse := fun hres : scan.Resolved n => hres.reuse
      (p := (unpackControl (arena.metadata i).controlBlock).state = .dead ∧
        scan.reusableNodeId = -1) And.right i
    have hload : i ≠ n → (unpackControl (arena.metadata i).controlBlock).state ≠ .dead →
        live i := fun hne hi => hlive i hne hi
    -- a live slot beside the claimed one
    have hscore : ∀ {state}, (unpackControl (arena.metadata i).controlBlock).state = state →
        state ≠ .pending → state ≠ .dead → (i < n ∧ scan.Below ∧ live i) ∨
          (i = n ∧ scan.Below ∧ filled) ∨
          (n < i ∧ ({ scan with reusableNodeId :=
            if (unpackControl (arena.metadata i).controlBlock).state = .dead ∧
              scan.reusableNodeId = -1 then (i : ℤ)
            else scan.reusableNodeId } : Scan K).Resolved n ∧ live i) := by
      intro state hstate hpend hdead
      have hne := hstill (by rw [hstate]; exact hpend)
      have hi := hload hne (by rw [hstate]; exact hdead)
      rcases hplace with ⟨hle,hbelow⟩ | ⟨hlt,hres⟩
      · exact .inl ⟨lt_of_le_of_ne hle hne,hbelow,hi⟩
      · exact .inr (.inr ⟨hlt,hreuse hres,hi⟩)
    split at h <;> rename_i hstate <;> obtain ⟨rfl,rfl⟩ := Prod.mk.inj (Except.ok.inj h)
    · refine ⟨rfl,rfl,?_,fun hne => hload hne (by rw [hstate]; decide)⟩
      exact hplace.imp id fun hlt => ⟨hlt.1,hreuse hlt.2⟩
    · exact ⟨rfl,rfl,hscore hstate (by decide) (by decide)⟩
    · exact ⟨rfl,rfl,hscore hstate (by decide) (by decide)⟩
    · have hne := hstill (by rw [hstate]; decide)
      refine ⟨rfl,rfl,?_⟩
      rcases hplace with ⟨hle,hbelow⟩ | ⟨hlt,hres⟩
      · exact .inl ⟨lt_of_le_of_ne hle hne,hbelow⟩
      · exact .inr ⟨by omega,hreuse hres⟩
  · rename_i hi
    rcases hplace.resolve_left fun hle => hi (hle.1.trans_lt hn) with
      ⟨-,⟨hbelow,hreusable⟩ | ⟨hbest,hnode⟩⟩
    · rw [show atLeast scan.maxScore (similarityThreshold : K) = false from hbelow,
        hreusable, beginClaim, if_neg (show (n : ℤ) ≠ -1 by omega)] at h
      obtain ⟨rfl,rfl⟩ := Prod.mk.inj (Except.ok.inj h)
      exact ⟨rfl,rfl,rfl⟩
    · rw [hbest] at h
      obtain ⟨rfl,rfl⟩ := Prod.mk.inj (Except.ok.inj h)
      exact ⟨rfl,rfl,hnode⟩

theorem following_aging {n i : ℕ} {scan : Scan K} {w : UInt64} {filled : Prop}
    (h : checkStep query t arena (.aging i scan w) = .ok (arena', next))
    (hplace : (i ≤ n ∧ scan.Below) ∨ (n < i ∧ scan.Resolved n)) (hi : i ≠ n → live i)
    (hstamp : i = n → filled ∧ (arena.metadata n).createdAt ≠ 0 ∧
      ¬pendingLifespan.toUInt64 < t - (arena.metadata n).createdAt) :
    arena' = arena ∧ next.Asking query (CheckPhase.Following live n filled) := by
  simp only [checkStep] at h
  by_cases hne : i = n
  · obtain ⟨hfilled,hborn,hyoung⟩ := hstamp hne
    subst hne
    rw [if_neg hborn, if_neg hyoung] at h
    obtain ⟨rfl,rfl⟩ := Prod.mk.inj (Except.ok.inj h)
    have hbelow := (hplace.resolve_right fun hlt => hlt.1.false).2
    exact ⟨rfl,rfl,.inr (.inl ⟨rfl,hbelow,hfilled⟩)⟩
  · have hstrict : (i < n ∧ scan.Below) ∨ (n < i ∧ scan.Resolved n) :=
      hplace.imp_left fun hle => ⟨lt_of_le_of_ne hle.1 hne,hle.2⟩
    split at h
    · obtain ⟨rfl,rfl⟩ := Prod.mk.inj (Except.ok.inj h)
      refine ⟨rfl,rfl,?_⟩
      exact hstrict.imp (fun hlt => ⟨hlt.1,hlt.2⟩) fun hlt => ⟨by omega,hlt.2⟩
    split at h <;> obtain ⟨rfl,rfl⟩ := Prod.mk.inj (Except.ok.inj h)
    · exact ⟨rfl,rfl,hstrict⟩
    · refine ⟨rfl,rfl,?_⟩
      rcases hstrict with ⟨hlt,hbelow⟩ | ⟨hlt,hres⟩
      · exact .inl ⟨hlt,hbelow,hi hne⟩
      · exact .inr (.inr ⟨hlt,hres,hi hne⟩)

/-- While slot `n` is claimed: a check goes on with the slot ahead or in hand, and the
slot stays claimed. -/
theorem following_step {n : ℕ} (hn : n < l0MaxSlots)
    (h : checkStep query t arena phase = .ok (arena', next))
    (hphase : phase.Following live n (arena.vectors n = query))
    (hpending : arena.stateOf n = .pending)
    (hlive : ∀ i, i ≠ n → arena.stateOf i ≠ .dead → live i)
    (hapart : ∀ i < l0MaxSlots, i ≠ n → live i → ¬Similar query (arena.vectors i))
    (hunit : Normalized query) (hwell : phase.WellFormed t)
    (hstamp : ∀ scan w, phase = .aging n scan w → arena.vectors n = query ∧
      (arena.metadata n).createdAt ≠ 0 ∧
        ¬pendingLifespan.toUInt64 < t - (arena.metadata n).createdAt) :
    next.Asking query (CheckPhase.Following live n (arena.vectors n = query)) ∧
      arena'.vectors = arena.vectors ∧ arena'.stateOf n = .pending ∧
      ∀ i, arena'.stateOf i ≠ .dead → arena.stateOf i ≠ .dead := by
  have hrange : n < totalMaxSlots := hn.trans_le l0MaxSlots_le_totalMaxSlots
  have hnode : NodeState.ofBits ((arena.metadata n).controlBlock >>> 62) = .pending := hpending
  cases phase with
  | scanning i scan =>
    obtain ⟨rfl,hasking⟩ := following_scanning hn h hphase hpending hlive
    exact ⟨hasking,rfl,hpending,fun _ => id⟩
  | aging i scan w =>
    obtain ⟨rfl,hasking⟩ :=
      following_aging h hphase.1 hphase.2 fun hi => hstamp scan w (by rw [hi])
    exact ⟨hasking,rfl,hpending,fun _ => id⟩
  | expiring i scan w birthTime =>
    have hplace : (i < n ∧ scan.Below) ∨ (n < i ∧ scan.Resolved n) := hphase
    have hne : n ≠ i := by
      rcases hplace with hlt | hlt
      · exact hlt.1.ne'
      · exact hlt.1.ne
    rcases checkStep_expiring h with ⟨-,rfl,rfl⟩ | ⟨rfl,rfl⟩
    · refine ⟨⟨rfl,?_⟩,rfl,?_,fun _ => live_of_storeDead⟩
      · exact hplace.imp id fun hlt => ⟨hlt.1.le,hlt.2.reuse id i⟩
      · rw [MemoryArena.stateOf_storeControl, if_neg hne]
        exact hpending
    · refine ⟨⟨rfl,?_⟩,rfl,hpending,fun _ => id⟩
      exact hplace.imp (fun hlt => ⟨hlt.1,hlt.2⟩) fun hlt => ⟨by omega,hlt.2⟩
  | resetting i scan =>
    obtain ⟨rfl,rfl⟩ := Prod.mk.inj (Except.ok.inj h)
    have hplace : (i < n ∧ scan.Below) ∨ (n ≤ i ∧ scan.Resolved n) := hphase
    refine ⟨⟨rfl,?_⟩,rfl,by rwa [MemoryArena.stateOf_storeCreatedAt],
      fun j hj => by rwa [MemoryArena.stateOf_storeCreatedAt] at hj⟩
    exact hplace.imp (fun hlt => ⟨hlt.1,hlt.2⟩) fun hle => ⟨by omega,hle.2⟩
  | scoring i scan =>
    obtain ⟨rfl,rfl⟩ := Prod.mk.inj (Except.ok.inj h)
    refine ⟨⟨rfl,?_⟩,rfl,hpending,fun _ => id⟩
    rcases hphase with ⟨hlt,hbelow,hi⟩ | ⟨rfl,hbelow,hfilled⟩ | ⟨hlt,hres,hi⟩
    · exact .inl ⟨hlt,hbelow.score i (hapart i hwell.1 hlt.ne hi)⟩
    · refine .inr ⟨by omega,?_⟩
      rw [hfilled]
      exact hbelow.resolve hunit.similar
    · exact .inr ⟨by omega,hres.score i (hapart i hwell.1 hlt.ne' hi)⟩
  | answering scan =>
    have hbest : scan.bestNodeId = n := hphase
    simp only [checkStep, hbest, toSize_natCast hrange, arena.getNode_of_lt hrange,
      show (arena.metadata n).loadControl.state = .pending from hpending, Except.ok.injEq,
      Prod.mk.injEq] at h
    obtain ⟨rfl,rfl⟩ := h
    exact ⟨.inl rfl,rfl,hpending,fun _ => id⟩
  | claiming id =>
    obtain rfl : id = n := hphase
    simp only [checkStep, toSize_natCast hrange, arena.getNode_of_lt hrange, hnode, reduceCtorEq,
      if_false, Except.ok.injEq, Prod.mk.injEq] at h
    obtain ⟨rfl,rfl⟩ := h
    exact ⟨.inr ⟨rfl,rfl⟩,rfl,hpending,fun _ hj => hj⟩
  | exchanging id w =>
    obtain rfl : id = n := hphase
    rcases checkStep_exchanging h with ⟨hw,-⟩ | ⟨rfl,rfl⟩
    -- the word loaded was dead, the slot is pending
    · rw [toSize_natCast hrange] at hw
      subst hw
      exact absurd (hwell.2.symm.trans hpending) (by decide)
    · exact ⟨.inr ⟨rfl,rfl⟩,rfl,hpending,fun _ hj => hj⟩
  | reading | touching | copying | stamping => exact hphase.elim

end Exact

section Herd
variable {K : Type*} [Field K] [LinearOrder K] [IsStrictOrderedRing K] {start pool : AtomicPool K}
  {query : Vec K} {es : List (AtomicBeat K)} {σ : AtomicBeat K} {n : ℕ}

structure BeforeClaim (start pool : AtomicPool K) (query : Vec K) : Prop where
  vectors : pool.shared.vectors = start.shared.vectors
  live : ∀ i, pool.shared.stateOf i ≠ .dead → start.shared.stateOf i ≠ .dead
  calls : ∀ j, start.threads j = .idle →
    (pool.threads j).Asking query (CheckPhase.Searching fun i => start.shared.stateOf i ≠ .dead)

structure AfterClaim (start pool : AtomicPool K) (query : Vec K) (pioneer : Option ℕ) (n : ℕ) :
    Prop where
  slot : n < l0MaxSlots
  caller : start.threads pioneer = .idle
  claim : (∃ t, pool.threads pioneer = .checking query t (.copying n)) ∨
    (pool.shared.vectors n = query ∧
      ((∃ t, pool.threads pioneer = .checking query t (.stamping n)) ∨
        pool.threads pioneer = .finished (.checked (.ok ⟨.miss,n,[]⟩))))
  pending : pool.shared.stateOf n = .pending
  vectors : ∀ i, i ≠ n → pool.shared.vectors i = start.shared.vectors i
  live : ∀ i, i ≠ n → pool.shared.stateOf i ≠ .dead → start.shared.stateOf i ≠ .dead
  calls : ∀ j, j ≠ pioneer → start.threads j = .idle → (pool.threads j).Asking query
    (CheckPhase.Following (fun i => start.shared.stateOf i ≠ .dead) n
      (pool.shared.vectors n = query))

theorem asking_cases {arena arena' : MemoryArena (Vec K)} {actor actor' : Actor K}
    {action : Action K} {P : CheckPhase K → Prop}
    (h : AtomicStep arena actor action arena' actor')
    (hact : (∃ prompt t, action = .check prompt (.ok query) t) ∨
      ∃ spurious, action = .proceed spurious) (hasking : actor.Asking query P) :
    (arena' = arena ∧ ∃ prompt t, actor' = beginCheck prompt (.ok query) t) ∨
      ∃ t phase, actor = .checking query t phase ∧ P phase ∧
        checkStep query t arena phase = .ok (arena', actor') := by
  cases h with
  | @check prompt embedding t =>
    rcases hact with ⟨prompt',t',hact⟩ | ⟨spurious,hact⟩ <;> cases hact
    exact .inl ⟨rfl,prompt,t,rfl⟩
  | set => rcases hact with ⟨_,_,hact⟩ | ⟨_,hact⟩ <;> cases hact
  | checking h =>
    obtain ⟨rfl,hphase⟩ := hasking
    exact .inr ⟨_,_,rfl,hphase,h⟩
  | setting | collecting => exact hasking.elim

theorem beginCheck_asking {P : CheckPhase K → Prop} (prompt : List UInt8) (t : UInt64)
    (h : P (.scanning 0 ⟨minusOne,-1,-1⟩)) :
    (beginCheck prompt (.ok query) t).Asking query P := by
  unfold beginCheck
  split
  · trivial
  · exact ⟨rfl,h⟩

theorem CheckPhase.Searching.follow {live : ℕ → Prop} {filled : Prop} {phase : CheckPhase K}
    (h : phase.Searching live) (hclears : phase.Clears n) : phase.Following live n filled := by
  cases phase with
  | scanning i scan =>
    rcases Nat.lt_or_ge n i with hlt | hle
    · exact .inr ⟨hlt,.inl ⟨h,hclears.resolve_left (by omega)⟩⟩
    · exact .inl ⟨hle,h⟩
  | aging i scan w =>
    refine ⟨?_,fun _ => h.2⟩
    rcases Nat.lt_or_ge n i with hlt | hle
    · exact .inr ⟨hlt,.inl ⟨h.1,hclears.resolve_left (by omega)⟩⟩
    · exact .inl ⟨hle,h.1⟩
  | expiring i scan w birthTime =>
    exact hclears.imp (fun hlt => ⟨hlt,h⟩) fun hlt => ⟨hlt.1,.inl ⟨h,hlt.2⟩⟩
  | resetting i scan =>
    rcases Nat.lt_or_ge i n with hlt | hle
    · exact .inl ⟨hlt,h⟩
    · exact .inr ⟨hle,.inl ⟨h,hclears.resolve_left (by omega)⟩⟩
  | scoring i scan =>
    rcases hclears with hlt | ⟨hlt,hreusable⟩
    · exact .inl ⟨hlt,h.1,h.2⟩
    · exact .inr (.inr ⟨hlt,.inl ⟨h.1,hreusable⟩,h.2⟩)
  | claiming | exchanging => exact hclears
  | answering | reading | touching | copying | stamping => exact h.elim

theorem CheckPhase.Following.mono {live : ℕ → Prop} {p q : Prop} {phase : CheckPhase K}
    (h : phase.Following live n p) (hpq : p → q) : phase.Following live n q := by
  cases phase with
  | scoring i scan => exact h.imp_right (Or.imp_left fun hn => ⟨hn.1,hn.2.1,hpq hn.2.2⟩)
  | _ => exact h

omit [Field K] [LinearOrder K] [IsStrictOrderedRing K] in
theorem Actor.Asking.mono {P Q : CheckPhase K → Prop} {actor : Actor K}
    (h : actor.Asking query P)
    (hPQ : ∀ t phase, actor = .checking query t phase → P phase → Q phase) :
    actor.Asking query Q := by
  cases actor with
  | checking query' t phase =>
    obtain ⟨rfl,hphase⟩ := h
    exact ⟨rfl,hPQ t phase rfl hphase⟩
  | idle => trivial
  | finished reply => exact h
  | collector | setting => exact h.elim

theorem BeforeClaim.step (h : BeforeClaim start σ.before query)
    (hmove : Moves AtomicStep σ.before σ.act σ.after) (hasks : Asks start query σ)
    (hseen : ClaimSeen start σ)
    (hwell : ∀ j, start.threads j = .idle → (σ.before.threads j).WellFormed)
    (hapart : ∀ i < l0MaxSlots, start.shared.stateOf i ≠ .dead →
      ¬Similar query (start.shared.vectors i)) :
    BeforeClaim start σ.after query ∨ ∃ n, AfterClaim start σ.after query σ.act.1 n := by
  have hother : ∀ j, j ≠ σ.act.1 → start.threads j = .idle → (σ.after.threads j).Asking query
      (CheckPhase.Searching fun i => start.shared.stateOf i ≠ .dead) := fun j hj hidle => by
    rw [hmove.others j hj]
    exact h.calls j hidle
  have hcalls : (σ.after.threads σ.act.1).Asking query
      (CheckPhase.Searching fun i => start.shared.stateOf i ≠ .dead) →
      ∀ j, start.threads j = .idle → (σ.after.threads j).Asking query
        (CheckPhase.Searching fun i => start.shared.stateOf i ≠ .dead) := by
    intro hown j hidle
    by_cases hj : j = σ.act.1
    · rw [hj]
      exact hown
    · exact hother j hj hidle
  rcases asking_cases hmove.own hasks.2 (h.calls _ hasks.1) with
    ⟨hshared,prompt,t,hnext⟩ | ⟨t,phase,hactor,hphase,hstep⟩
  · refine .inl ⟨by rw [hshared, h.vectors],by rw [hshared]; exact h.live,hcalls ?_⟩
    rw [hnext]
    exact beginCheck_asking prompt t minusOne_below
  · have hown := hwell _ hasks.1
    rw [hactor] at hown
    rcases searching_step hstep hphase h.live (by rw [h.vectors]; exact hapart) hown with
      ⟨hasking,hvec,hlive⟩ | ⟨id,rfl,hnext,hclaimed⟩
    · exact .inl ⟨hvec.trans h.vectors,fun i hi => h.live i (hlive i hi),hcalls hasking⟩
    · obtain ⟨n,hn,rfl⟩ := hown.1
      have hsize : toSize (n : ℤ) = n := toSize_natCast (hn.trans_le l0MaxSlots_le_totalMaxSlots)
      rw [hsize] at hclaimed
      refine .inr ⟨n,hn,hasks.1,.inl ⟨t,hnext⟩,?_,fun i _ => ?_,fun i hi hne => ?_,
        fun j hj hidle => ?_⟩
      · simp [hclaimed, MemoryArena.stateOf_storeControl]
      · rw [hclaimed, ← h.vectors]
        rfl
      · rw [hclaimed, MemoryArena.stateOf_storeControl, if_neg hi] at hne
        exact h.live i hne
      · have hclears := hseen query t n _ hactor rfl j
        rw [hmove.others j hj]
        refine (h.calls j hidle).mono fun t' phase' hphase' hsearching => ?_
        have := hclears query t' phase' hj hidle hphase'
        rw [hsize] at this
        exact hsearching.follow this

theorem AtomicStep.check_eq {arena arena' : MemoryArena (Vec K)} {actor' : Actor K}
    {action : Action K} {t : UInt64} {phase : CheckPhase K}
    (h : AtomicStep arena (.checking query t phase) action arena' actor') :
    checkStep query t arena phase = .ok (arena', actor') := by
  cases h with
  | checking h => exact h

theorem AfterClaim.step_pioneer (h : AfterClaim start σ.before query σ.act.1 n)
    (hmove : Moves AtomicStep σ.before σ.act σ.after) :
    AfterClaim start σ.after query σ.act.1 n := by
  have hsize : toSize (n : ℤ) = n := toSize_natCast (h.slot.trans_le l0MaxSlots_le_totalMaxSlots)
  have hown := hmove.own
  have hrunning := hmove.own.running
  rcases h.claim with ⟨t,hcopying⟩ | ⟨hfilled,⟨t,hstamping⟩ | hfinished⟩
  · rw [hcopying] at hown
    obtain ⟨harena,hnext⟩ := Prod.mk.inj (Except.ok.inj hown.check_eq)
    rw [hsize] at harena
    have hfilled : σ.after.shared.vectors n = query := by simp [← harena]
    refine ⟨h.slot,h.caller,.inr ⟨hfilled,.inl ⟨t,hnext.symm⟩⟩,?_,fun i hi => ?_,fun i hi => ?_,
      fun j hj hidle => ?_⟩
    · rw [← harena]
      exact h.pending
    · rw [← harena, ← h.vectors i hi]
      simp [hi]
    · rw [← harena]
      exact h.live i hi
    · rw [hmove.others j hj]
      exact (h.calls j hj hidle).mono fun _ _ _ hphase => hphase.mono fun _ => hfilled
  · rw [hstamping] at hown
    obtain ⟨harena,hnext⟩ := Prod.mk.inj (Except.ok.inj hown.check_eq)
    rw [hsize] at harena
    have hvec : σ.after.shared.vectors = σ.before.shared.vectors := by rw [← harena]; rfl
    have hstate : ∀ i, σ.after.shared.stateOf i = σ.before.shared.stateOf i := fun i => by
      rw [← harena, MemoryArena.stateOf_storeCreatedAt]
    refine ⟨h.slot,h.caller,.inr ⟨by rw [hvec]; exact hfilled,.inr hnext.symm⟩,
      (hstate n).trans h.pending,by rw [hvec]; exact h.vectors,fun i hi => ?_,fun j hj hidle => ?_⟩
    · rw [hstate i]
      exact h.live i hi
    · rw [hmove.others j hj, hvec]
      exact h.calls j hj hidle
  · exact absurd hfinished (hrunning _)

theorem AfterClaim.step_other {pioneer : Option ℕ}
    (h : AfterClaim start σ.before query pioneer n)
    (hmove : Moves AtomicStep σ.before σ.act σ.after) (hby : σ.act.1 ≠ pioneer)
    (hasks : Asks start query σ) (hseen : StampSeen start σ)
    (hwell : ∀ j, start.threads j = .idle → (σ.before.threads j).WellFormed)
    (hunit : Normalized query) (hapart : ∀ i < l0MaxSlots, start.shared.stateOf i ≠ .dead →
      ¬Similar query (start.shared.vectors i)) :
    AfterClaim start σ.after query pioneer n := by
  have hpioneer := hmove.others pioneer (Ne.symm hby)
  have hnext : (σ.after.threads σ.act.1).Asking query
        (CheckPhase.Following (fun i => start.shared.stateOf i ≠ .dead) n
          (σ.before.shared.vectors n = query)) ∧
      σ.after.shared.vectors = σ.before.shared.vectors ∧ σ.after.shared.stateOf n = .pending ∧
      ∀ i, σ.after.shared.stateOf i ≠ .dead → σ.before.shared.stateOf i ≠ .dead := by
    rcases asking_cases hmove.own hasks.2 (h.calls _ hby hasks.1) with
      ⟨hshared,prompt,t,hnext⟩ | ⟨t,phase,hactor,hphase,hstep⟩
    · rw [hshared, hnext]
      exact ⟨beginCheck_asking prompt t (.inl ⟨Nat.zero_le n,minusOne_below⟩),rfl,h.pending,
        fun _ => id⟩
    · have hown := hwell _ hasks.1
      rw [hactor] at hown
      refine following_step h.slot hstep hphase h.pending h.live (fun i hi hne hlive => ?_) hunit
        hown fun scan w haging => ?_
      · rw [h.vectors i hne]
        exact hapart i hi hlive
      · subst haging
        have hclaimed : (σ.before.threads pioneer).claimed = some (n : ℤ) := by
          rcases h.claim with ⟨t,ht⟩ | ⟨-,⟨t,ht⟩ | ht⟩ <;> rw [ht]
          · rfl
          · rfl
          · have hid : (n : ℤ) ≠ -1 := by omega
            simp [Actor.claimed, hid]
        obtain ⟨⟨reply,hreply⟩,hborn,hyoung⟩ := hseen query t n scan w hactor pioneer h.caller
          hclaimed
        refine ⟨?_,hborn,hyoung⟩
        rcases h.claim with ⟨t,ht⟩ | ⟨hfilled,-⟩
        · rw [hreply] at ht
          cases ht
        · exact hfilled
  obtain ⟨hasking,hvec,hpending,hlive⟩ := hnext
  refine ⟨h.slot,h.caller,by rw [hpioneer, hvec]; exact h.claim,hpending,
    by rw [hvec]; exact h.vectors,fun i hi hne => h.live i hi (hlive i hne),fun j hj hidle => ?_⟩
  rw [hvec]
  by_cases hjσ : j = σ.act.1
  · rw [hjσ]
    exact hasking
  · rw [hmove.others j hjσ]
    exact h.calls j hj hidle

/-- The calls for a query that no live slot is similar to have one pioneer: every other
one is told to wait, gets a miss without a slot or an error. -/
theorem one_pioneer (hunit : Normalized query)
    (hapart : ∀ i < l0MaxSlots, start.shared.stateOf i ≠ .dead →
      ¬Similar query (start.shared.vectors i))
    (hrun : Run (Moves AtomicStep) start es pool) (hasks : ∀ τ ∈ es, Asks start query τ)
    (hclaims : ∀ τ ∈ es, ClaimSeen start τ) (hstamps : ∀ τ ∈ es, StampSeen start τ) :
    ∃ pioneer, ∀ j reply, start.threads j = .idle → pool.threads j = .finished reply →
      reply.Unreserved ∨ (j = pioneer ∧ ∃ n : ℕ, reply = .checked (.ok ⟨.miss,n,[]⟩)) := by
  have hherd : (BeforeClaim start pool query ∨ ∃ pioneer n, AfterClaim start pool query pioneer n) ∧
      ∀ j, start.threads j = .idle → (pool.threads j).WellFormed := by
    refine hrun.invariant (I := fun u => (BeforeClaim start u query ∨
        ∃ pioneer n, AfterClaim start u query pioneer n) ∧
        ∀ j, start.threads j = .idle → (u.threads j).WellFormed)
      (P := fun τ => Asks start query τ ∧ ClaimSeen start τ ∧ StampSeen start τ) ?_
      (fun τ hτ => ⟨hasks τ hτ,hclaims τ hτ,hstamps τ hτ⟩) ?_
    · rintro σ hmove ⟨hask,hclaim,hstamp⟩ ⟨hherd,hwell⟩
      refine ⟨?_,fun j hidle => ?_⟩
      · rcases hherd with h | ⟨pioneer,n,h⟩
        · rcases h.step hmove hask hclaim hwell hapart with h | ⟨n,h⟩
          · exact .inl h
          · exact .inr ⟨_,n,h⟩
        · by_cases hby : σ.act.1 = pioneer
          · subst hby
            exact .inr ⟨_,n,h.step_pioneer hmove⟩
          · exact .inr ⟨pioneer,n,h.step_other hmove hby hask hstamp hwell hunit hapart⟩
      · by_cases hj : j = σ.act.1
        · subst hj
          exact atomicStep_wellFormed hmove.own (hwell _ hidle)
        · rw [hmove.others j hj]
          exact hwell j hidle
    · exact ⟨.inl ⟨rfl,fun _ => id,fun j hidle => by rw [hidle]; trivial⟩,
        fun j hidle => by rw [hidle]; trivial⟩
  rcases hherd.1 with h | ⟨pioneer,n,h⟩
  · refine ⟨none,fun j reply hidle hreply => .inl ?_⟩
    have hcall := h.calls j hidle
    rw [hreply] at hcall
    exact hcall
  · refine ⟨pioneer,fun j reply hidle hreply => ?_⟩
    by_cases hj : j = pioneer
    · subst hj
      refine .inr ⟨rfl,n,?_⟩
      rcases h.claim with ⟨t,ht⟩ | ⟨-,⟨t,ht⟩ | ht⟩ <;> rw [hreply] at ht <;> cases ht
      rfl
    · have hcall := h.calls j hj hidle
      rw [hreply] at hcall
      exact .inl hcall

end Herd

section Replay

theorem asks_of_check {es : List (AtomicBeat ℚ)} {i : ℕ} {t : UInt64}
    (h : ∀ τ ∈ es, τ.act = (some i, .check [1] (.ok (axis 0)) t) ∨
      τ.act = (some i, .proceed false)) :
    ∀ τ ∈ es, Asks (startAtomic (freshArena ℚ)) (axis 0) τ := by
  intro τ hτ
  rcases h τ hτ with hact | hact <;> rw [Asks, hact]
  · exact ⟨rfl,.inl ⟨_,_,rfl⟩⟩
  · exact ⟨rfl,.inr ⟨_,rfl⟩⟩

theorem seen_of_alone {start pool : AtomicPool ℚ} {es : List (AtomicBeat ℚ)} {i : Option ℕ}
    (hrun : Run (Moves AtomicStep) start es pool) (hby : ∀ τ ∈ es, τ.act.1 = i) {τ : AtomicBeat ℚ}
    (hτ : τ ∈ es) : ClaimSeen start τ ∧ StampSeen start τ := by
  obtain ⟨fs,gs,rfl⟩ := List.append_of_mem hτ
  obtain ⟨hbefore,-,-⟩ := hrun.split_at
  have hothers : ∀ j, j ≠ i → τ.before.threads j = start.threads j := fun j hj =>
    threads_of_run hbefore fun σ hσ => by rw [hby σ (by simp [hσ])]; exact Ne.symm hj
  constructor
  · intro query t id w _ _ j query' t' phase hj hidle hphase
    rw [hby τ (by simp)] at hj
    rw [hothers j hj, hidle] at hphase
    cases hphase
  · intro query t k scan w haging j hidle hclaimed
    by_cases hj : j = i
    · rw [hj, ← hby τ (by simp), haging] at hclaimed
      cases hclaimed
    · rw [hothers j hj, hidle] at hclaimed
      cases hclaimed

theorem seen_of_phase {start : AtomicPool ℚ} {τ : AtomicBeat ℚ}
    (hclaim : ∀ query t id w,
      τ.before.threads τ.act.1 ≠ .checking query t (.exchanging id w))
    (hstamp : ∀ query t i scan w,
      τ.before.threads τ.act.1 ≠ .checking query t (.aging i scan w)) :
    ClaimSeen start τ ∧ StampSeen start τ :=
  ⟨fun query t id w h => absurd h (hclaim query t id w),
    fun query t i scan w h => absurd h (hstamp query t i scan w)⟩

theorem seen_of_second {pool : AtomicPool ℚ} {scan : Scan ℚ} {w : UInt64} {q : AtomicPool ℚ}
    (hfirst : pool.threads (some 0) = .finished (.checked (.ok ⟨.miss,0,[]⟩)))
    (hsecond : pool.threads (some 1) = .checking (axis 0) 1 (.aging 0 scan w))
    (hothers : ∀ j, j ≠ some 0 → j ≠ some 1 →
      pool.threads j = (startAtomic (freshArena ℚ)).threads j)
    (hborn : (pool.shared.metadata 0).createdAt = 1) :
    ClaimSeen (startAtomic (freshArena ℚ)) ⟨pool,(some 1, .proceed false),q⟩ ∧
      StampSeen (startAtomic (freshArena ℚ)) ⟨pool,(some 1, .proceed false),q⟩ := by
  constructor
  · intro query t id v hphase
    rw [hsecond] at hphase
    cases hphase
  · intro query t i scan' v hphase j hj hclaimed
    rw [hsecond] at hphase
    cases hphase
    obtain rfl : j = some 0 := by
      by_contra hzero
      by_cases hone : j = some 1
      · subst hone
        rw [hsecond] at hclaimed
        cases hclaimed
      · rw [hothers j hzero hone, hj] at hclaimed
        cases hclaimed
    simp only [hborn]
    exact ⟨⟨_,hfirst⟩,by decide,by decide⟩

/-- The first call claims a slot and fills it; a second one meets it there. -/
theorem one_pioneer_replay : ∃ (es : List (AtomicBeat ℚ)) (pool : AtomicPool ℚ) (scan : Scan ℚ)
    (pioneer : Option ℕ), AtomicRun es pool ∧
      pool.threads (some 0) = .finished (.checked (.ok ⟨.miss,0,[]⟩)) ∧
      pool.threads (some 1) = .checking (axis 0) 1 (.scoring 0 scan) ∧
      pool.shared.vectors 0 = axis 0 ∧
      ∀ j reply, (startAtomic (freshArena ℚ)).threads j = .idle →
        pool.threads j = .finished reply →
          reply.Unreserved ∨ (j = pioneer ∧ ∃ n : ℕ, reply = .checked (.ok ⟨.miss,n,[]⟩)) := by
  obtain ⟨es,pool,hrun,hacts,-,-,hnode,-,hthreads,hfinished,hvec⟩ := exists_firstPublished
  have hidle : pool.threads (some 1) = .idle := hthreads (some 1) (by simp)
  set w := packControl .pending .hot 0 0 with hw
  have hstate : (unpackControl w).state = .pending := by simp [hw]
  set begun : AtomicPool ℚ := ⟨pool.shared,Function.update pool.threads (some 1)
    (beginCheck [1] (.ok (axis 0)) 1)⟩ with hbegun
  set loaded : AtomicPool ℚ := ⟨pool.shared,Function.update begun.threads (some 1)
    (.checking (axis 0) 1 (.aging 0 ⟨minusOne,-1,-1⟩ w))⟩ with hloaded
  set aged : AtomicPool ℚ := ⟨pool.shared,Function.update loaded.threads (some 1)
    (.checking (axis 0) 1 (.scoring 0 ⟨minusOne,-1,-1⟩))⟩ with haged
  have hscanning : begun.threads (some 1) =
      .checking (axis 0) 1 (.scanning 0 ⟨minusOne,-1,-1⟩) := by simp [hbegun, beginCheck]
  have haging : loaded.threads (some 1) =
      .checking (axis 0) 1 (.aging 0 ⟨minusOne,-1,-1⟩ w) := by simp [hloaded]
  have hbegin : Moves AtomicStep pool (some 1, .check [1] (.ok (axis 0)) 1) begun :=
    moves_update (by rw [hidle]; exact .check)
  have hload : Moves AtomicStep begun (some 1, .proceed false) loaded :=
    moves_check hscanning (by
      have hslot : (0 : ℕ) < l0MaxSlots := by decide
      simp [checkStep, hslot, hbegun, hnode, hstate])
  have hage : Moves AtomicStep loaded (some 1, .proceed false) aged :=
    moves_check haging (by simp [checkStep, hloaded, hnode])
  have hall := ((hrun.snoc hbegin).snoc hload).snoc hage
  have hby : ∀ τ ∈ es, τ.act.1 = some 0 := fun τ hτ => by
    rcases hacts τ hτ with h | h <;> rw [h]
  have hlive : ∀ i < l0MaxSlots, (startAtomic (freshArena ℚ)).shared.stateOf i ≠ .dead →
      ¬Similar (axis 0) ((startAtomic (freshArena ℚ)).shared.vectors i) :=
    fun i _ hlive => absurd (freshArena_state i) hlive
  have hseen₁ : ClaimSeen (startAtomic (freshArena ℚ))
        ⟨pool,(some 1, .check [1] (.ok (axis 0)) 1),begun⟩ ∧
      StampSeen (startAtomic (freshArena ℚ)) ⟨pool,(some 1, .check [1] (.ok (axis 0)) 1),begun⟩ :=
    seen_of_phase (by simp [hidle]) (by simp [hidle])
  have hseen₂ : ClaimSeen (startAtomic (freshArena ℚ)) ⟨begun,(some 1, .proceed false),loaded⟩ ∧
      StampSeen (startAtomic (freshArena ℚ)) ⟨begun,(some 1, .proceed false),loaded⟩ :=
    seen_of_phase (by simp [hscanning]) (by simp [hscanning])
  have hseen₃ := seen_of_second (q := aged) (by simpa [hloaded, hbegun] using hfinished) haging
    (fun j hzero hone => by simpa [hloaded, hbegun, hone] using hthreads j hzero)
    (by simp [hloaded, hnode])
  obtain ⟨pioneer,h⟩ := one_pioneer (axis_normalized 0) hlive hall
    (by
      simp only [List.forall_mem_append, List.forall_mem_singleton]
      exact ⟨⟨⟨asks_of_check hacts,rfl,.inl ⟨_,_,rfl⟩⟩,rfl,.inr ⟨_,rfl⟩⟩,rfl,.inr ⟨_,rfl⟩⟩)
    (by
      simp only [List.forall_mem_append, List.forall_mem_singleton]
      exact ⟨⟨⟨fun τ hτ => (seen_of_alone hrun hby hτ).1,hseen₁.1⟩,hseen₂.1⟩,hseen₃.1⟩)
    (by
      simp only [List.forall_mem_append, List.forall_mem_singleton]
      exact ⟨⟨⟨fun τ hτ => (seen_of_alone hrun hby hτ).2,hseen₁.2⟩,hseen₂.2⟩,hseen₃.2⟩)
  exact ⟨_,aged,⟨minusOne,-1,-1⟩,pioneer,hall,by simpa [haged, hloaded, hbegun] using hfinished,
    by simp [haged],hvec,h⟩

/-- Between the claim of a slot and its stamp a second call passes it over and claims the
next one: both are pioneers. -/
theorem two_pioneers : ∃ (es : List (AtomicBeat ℚ)) (pool : AtomicPool ℚ), AtomicRun es pool ∧
    (∀ τ ∈ es, Asks (startAtomic (freshArena ℚ)) (axis 0) τ) ∧
      (∀ i, (freshArena ℚ).stateOf i = .dead) ∧
      pool.threads (some 0) = .finished (.checked (.ok ⟨.miss,0,[]⟩)) ∧
      pool.threads (some 1) = .finished (.checked (.ok ⟨.miss,1,[]⟩)) := by
  set start := startAtomic (freshArena ℚ) with hstart
  have hdead : ∀ n, start.shared.stateOf n = .dead := freshArena_state
  set w := packControl .pending .hot 0 0 with hw
  have hstate : (unpackControl w).state = .pending := by simp [hw]
  -- the first call, up to its claim of slot 0
  have hexchange : Proceeds (start.shared, .checking (axis 0) 1
      (.exchanging 0 (start.shared.metadata 0).controlBlock))
      (start.shared.storeControl 0 w, .checking (axis 0) 1 (.copying 0)) :=
    proceeds_check (by simp [checkStep, toSize, start.shared.compareExchange_self, hw])
  obtain ⟨es,hes,hacts⟩ := run_check start 0 [1] (.ok (axis 0)) 1 rfl
    ((proceeds_claimFirst (by decide) fun j _ _ => hdead j).trans hexchange)
  set claimed := start.shared.storeControl 0 w with hclaimed
  -- the second call skips slot 0 and claims slot 1
  have hload : Proceeds (claimed, .checking (axis 0) 1 (.scanning 0 ⟨minusOne,-1,-1⟩))
      (claimed, .checking (axis 0) 1 (.aging 0 ⟨minusOne,-1,-1⟩ w)) := proceeds_check (by
    have hslot : (0 : ℕ) < l0MaxSlots := by decide
    simp [checkStep, hslot, hclaimed, hstate])
  have hskip : Proceeds (claimed, .checking (axis 0) 1 (.aging 0 ⟨minusOne,-1,-1⟩ w))
      (claimed, .checking (axis 0) 1 (.scanning 1 ⟨minusOne,-1,-1⟩)) := proceeds_check (by
    have hborn : (claimed.metadata 0).createdAt = 0 := rfl
    simp [checkStep, hborn])
  have hfirst : Proceeds (claimed, .checking (axis 0) 1 (.scanning 1 ⟨minusOne,-1,-1⟩))
      (claimed, .checking (axis 0) 1 (.exchanging 1 (claimed.metadata 1).controlBlock)) :=
    proceeds_claimFirst (by decide) fun j hj _ => by
      have hstays := start.shared.stateOf_storeControl w 0 j
      rw [if_neg (by omega)] at hstays
      exact hstays.trans (hdead j)
  have hexchange' : Proceeds (claimed, .checking (axis 0) 1
      (.exchanging 1 (claimed.metadata 1).controlBlock))
      (claimed.storeControl 1 w, .checking (axis 0) 1 (.copying 1)) :=
    proceeds_check (by simp [checkStep, toSize, claimed.compareExchange_self, hw])
  have hpublish : ∀ (arena : MemoryArena (Vec ℚ)) (id : ℤ), ∃ arena',
      Proceeds (arena, .checking (axis 0) 1 (.copying id))
        (arena', .finished (.checked (.ok ⟨.miss,id,[]⟩))) := fun arena id =>
    ⟨_,(proceeds_check rfl).trans (proceeds_check rfl)⟩
  obtain ⟨two,htwo⟩ := hpublish (claimed.storeControl 1 w) 1
  obtain ⟨fs,hfs,hacts'⟩ := run_check
    ⟨claimed,Function.update start.threads (some 0) (.checking (axis 0) 1 (.copying 0))⟩
    1 [1] (.ok (axis 0)) 1 (by simp [hstart, startAtomic])
    ((((hload.trans hskip).trans hfirst).trans hexchange').trans htwo)
  -- the first call goes on to its own stamp
  set second : AtomicPool ℚ := ⟨two,Function.update (Function.update start.threads (some 0)
    (.checking (axis 0) 1 (.copying 0))) (some 1) (.finished (.checked (.ok ⟨.miss,1,[]⟩)))⟩
    with hsecond
  obtain ⟨one,hone⟩ := hpublish two 0
  obtain ⟨gs,hgs,hacts''⟩ := run_proceeds second (some 0) (by simpa [hsecond] using hone)
  refine ⟨_,_,Run.append (Run.append hes hfs) hgs,?_,hdead,by simp,by simp [hsecond]⟩
  intro τ hτ
  rcases List.mem_append.mp hτ with hτ | hτ
  · rcases List.mem_append.mp hτ with hτ | hτ
    · exact asks_of_check hacts τ hτ
    · exact asks_of_check hacts' τ hτ
  · exact asks_of_check (t := 1) (fun τ hτ => .inr (hacts'' τ hτ)) τ hτ

end Replay

end Strix
