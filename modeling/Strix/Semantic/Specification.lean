import Strix.Ring.Records
import Strix.Semantic.Separation

/-! # The calls against their specification

What a whole `CheckCache` promises its caller is stated here over slots and a
ring of bytes, in terms of the best matchable and the first free slot and
without a scan; the call computes it. A call that fails has changed nothing.
-/
namespace Strix
open FirstMax Scoring ByteRing

@[ext]
structure Slot (K : Type*) where
  createdAt : UInt64
  control : UnpackedControl
  vector : Vec K

@[ext]
structure CacheView (K : Type*) where
  slots : ℕ → Slot K
  ring : ℕ → UInt8
  writeHead : UInt64
  readTail : UInt64

section Spec
variable {K : Type*} {query : Vec K} {t : ℕ}

def Slot.Matchable (t : ℕ) (s : Slot K) : Prop :=
  s.control.state = .ready ∨ s.control.state = .migrating ∨
    (s.control.state = .pending ∧ s.createdAt ≠ 0 ∧
      t - s.createdAt.toNat ≤ pendingLifespan.toNat)

def Slot.Expired (t : ℕ) (s : Slot K) : Prop :=
  s.control.state = .pending ∧ s.createdAt ≠ 0 ∧
    pendingLifespan.toNat < t - s.createdAt.toNat

instance (t : ℕ) (s : Slot K) : Decidable (s.Expired t) := inferInstanceAs (Decidable (_ ∧ _ ∧ _))

def Slot.Free (t : ℕ) (s : Slot K) : Prop := s.control.state = .dead ∨ s.Expired t

def Slot.sweep (t : ℕ) (s : Slot K) : Slot K :=
  if s.Expired t then { s with createdAt := 0, control := { s.control with state := .dead } } else s

def CacheView.sweep (t : ℕ) (v : CacheView K) : CacheView K :=
  { v with slots := fun i => if i < l0MaxSlots then (v.slots i).sweep t else v.slots i }

def CacheView.store (v : CacheView K) (n : ℕ) (s : Slot K) : CacheView K :=
  { v with slots := Function.update v.slots n s }

def CacheView.designated (v : CacheView K) (control : UnpackedControl) : List UInt8 :=
  (List.range control.length.toNat).map fun j =>
    v.ring ((control.virtualOffset.toNat + 12 + j) % 2 ^ 32)

structure FirstFree (t : ℕ) (slots : ℕ → Slot K) (n : ℕ) : Prop where
  lt : n < l0MaxSlots
  free : (slots n).Free t
  first : ∀ i < n, ¬ (slots i).Free t

variable [Field K] [LinearOrder K]

structure Best (query : Vec K) (t : ℕ) (slots : ℕ → Slot K) (n : ℕ) : Prop where
  lt : n < l0MaxSlots
  matchable : (slots n).Matchable t
  greatest : ∀ i < l0MaxSlots, (slots i).Matchable t →
    query ⬝ᵥ (slots i).vector ≤ query ⬝ᵥ (slots n).vector
  first : ∀ i < n, (slots i).Matchable t →
    query ⬝ᵥ (slots i).vector < query ⬝ᵥ (slots n).vector

def Reached (query : Vec K) (t : ℕ) (slots : ℕ → Slot K) : Prop :=
  ∃ i < l0MaxSlots, (slots i).Matchable t ∧ exactThreshold ≤ query ⬝ᵥ (slots i).vector

/-- The answer of a `CheckCache` at clock reading `t`, and what it leaves. -/
inductive CheckSpec (query : Vec K) (t : UInt64) (v : CacheView K) :
    Except Status CheckCacheResponse → CacheView K → Prop
  | hit {n : ℕ} (reached : Reached query t.toNat v.slots) (best : Best query t.toNat v.slots n)
      (filled : (v.slots n).control.state = .ready ∨ (v.slots n).control.state = .migrating) :
      CheckSpec query t v (.ok ⟨.hit,-1,v.designated (v.slots n).control⟩)
        ((v.sweep t.toNat).store n
          { v.slots n with control := { (v.slots n).control with refBit := .hot } })
  | pending {n : ℕ} (reached : Reached query t.toNat v.slots)
      (best : Best query t.toNat v.slots n) (reserved : (v.slots n).control.state = .pending) :
      CheckSpec query t v (.ok ⟨.pending,n,[]⟩) (v.sweep t.toNat)
  | miss {n : ℕ} (below : ¬ Reached query t.toNat v.slots) (free : FirstFree t.toNat v.slots n) :
      CheckSpec query t v (.ok ⟨.miss,n,[]⟩)
        ((v.sweep t.toNat).store n ⟨t,⟨.pending,.hot,0,0⟩,query⟩)
  | full (below : ¬ Reached query t.toNat v.slots)
      (none : ∀ i < l0MaxSlots, ¬ (v.slots i).Free t.toNat) :
      CheckSpec query t v (.error ⟨.internal,"Encounter error: " ++ "High traffic"⟩)
        (v.sweep t.toNat)

omit [Field K] [LinearOrder K] in
theorem FirstFree.unique {slots : ℕ → Slot K} {m n : ℕ} (h : FirstFree t slots m)
    (h' : FirstFree t slots n) : m = n := by
  rcases lt_trichotomy m n with hlt | rfl | hlt
  · exact absurd h.free (h'.first m hlt)
  · rfl
  · exact absurd h'.free (h.first n hlt)

theorem Best.unique {slots : ℕ → Slot K} {m n : ℕ} (h : Best query t slots m)
    (h' : Best query t slots n) : m = n := by
  rcases lt_trichotomy m n with hlt | rfl | hlt
  · exact absurd (h'.first m hlt h.matchable) (not_lt.mpr (h.greatest n h'.lt h'.matchable))
  · rfl
  · exact absurd (h.first n hlt h'.matchable) (not_lt.mpr (h'.greatest m h.lt h.matchable))

theorem CheckSpec.unique {t : UInt64} {v w w' : CacheView K}
    {reply reply' : Except Status CheckCacheResponse} (h : CheckSpec query t v reply w)
    (h' : CheckSpec query t v reply' w') : reply = reply' ∧ w = w' := by
  cases h with
  | hit reached best filled =>
    cases h' with
    | hit _ best' _ =>
      obtain rfl := best.unique best'
      exact ⟨rfl,rfl⟩
    | pending _ best' reserved =>
      obtain rfl := best.unique best'
      simp [reserved] at filled
    | miss below | full below => exact absurd reached below
  | pending reached best reserved =>
    cases h' with
    | hit _ best' filled =>
      obtain rfl := best.unique best'
      simp [reserved] at filled
    | pending _ best' _ =>
      obtain rfl := best.unique best'
      exact ⟨rfl,rfl⟩
    | miss below | full below => exact absurd reached below
  | miss below free =>
    cases h' with
    | hit reached | pending reached => exact absurd reached below
    | miss _ free' =>
      obtain rfl := free.unique free'
      exact ⟨rfl,rfl⟩
    | full _ none => exact absurd free.free (none _ free.lt)
  | full below none =>
    cases h' with
    | hit reached | pending reached => exact absurd reached below
    | miss _ free => exact absurd free.free (none _ free.lt)
    | full => exact ⟨rfl,rfl⟩

end Spec

section View
variable {K : Type*} {arena : MemoryArena (Vec K)} {t w : UInt64} {i n : ℕ}

def slotOf (arena : MemoryArena (Vec K)) (i : ℕ) : Slot K :=
  ⟨(arena.metadata i).createdAt,(arena.metadata i).loadControl,arena.vectors i⟩

/-- What the arena means to its callers. -/
def viewOf (arena : MemoryArena (Vec K)) : CacheView K :=
  ⟨slotOf arena,arena.bufferPayload,arena.writeHead,arena.readTail⟩

theorem MetaNode.eq_of_fields {a b : MetaNode} (hc : a.createdAt = b.createdAt)
    (hw : a.loadControl = b.loadControl) : a = b := by
  have hword : a.controlBlock = b.controlBlock := unpackControl_injective hw
  cases a
  cases b
  simp_all

/-- The view forgets nothing of the arena. -/
theorem viewOf_injective {arena' : MemoryArena (Vec K)} (h : viewOf arena = viewOf arena') :
    arena = arena' := by
  rw [CacheView.ext_iff] at h
  obtain ⟨hslots,hring,hhead,htail⟩ := h
  have hslot : ∀ i, slotOf arena i = slotOf arena' i := congrFun hslots
  simp only [slotOf, Slot.mk.injEq] at hslot
  have hmeta : arena.metadata = arena'.metadata := by
    funext i
    exact MetaNode.eq_of_fields (hslot i).1 (hslot i).2.1
  have hvec : arena.vectors = arena'.vectors := by
    funext i
    exact (hslot i).2.2
  cases arena
  cases arena'
  simp_all [viewOf]

theorem age_toNat (h : (arena.metadata i).createdAt ≤ t) :
    (t - (arena.metadata i).createdAt).toNat = t.toNat - (arena.metadata i).createdAt.toNat :=
  UInt64.toNat_sub_of_le _ _ h

theorem matchable_iff (h : (arena.metadata i).createdAt ≤ t) :
    (arena.metadata i).matchable t = true ↔ (slotOf arena i).Matchable t.toNat := by
  rw [MetaNode.matchable_eq_true, UInt64.lt_iff_toNat_lt, age_toNat h, not_lt]
  rfl

theorem expired_iff (h : (arena.metadata i).createdAt ≤ t) :
    (arena.metadata i).expired t = true ↔ (slotOf arena i).Expired t.toNat := by
  rw [MetaNode.expired_eq_true, UInt64.lt_iff_toNat_lt, age_toNat h]
  rfl

theorem reusable_iff (h : (arena.metadata i).createdAt ≤ t) :
    (arena.metadata i).reusable t = true ↔ (slotOf arena i).Free t.toNat := by
  rw [MetaNode.reusable_eq_true, expired_iff h]
  rfl

theorem readPayload_eq_designated (ctrl : UnpackedControl) :
    arena.readPayload ctrl.virtualOffset ctrl.length = (viewOf arena).designated ctrl := by
  refine readPayload_eq (v := ctrl.virtualOffset.toNat) (fun j hj => ?_) rfl ?_
  · simp [CacheView.designated, viewOf]
  · simp [CacheView.designated]

theorem viewOf_storeControl : viewOf (arena.storeControl n w) =
    (viewOf arena).store n { slotOf arena n with control := unpackControl w } := by
  ext1
  · funext i
    by_cases hi : i = n
    · subst hi
      simp [viewOf, slotOf, CacheView.store, MetaNode.loadControl]
    · simp [viewOf, slotOf, CacheView.store, hi]
  all_goals rfl

theorem viewOf_claim (vector : Vec K) :
    viewOf (((arena.storeControl n w).storeVector n vector).storeCreatedAt n t) =
      (viewOf arena).store n ⟨t,unpackControl w,vector⟩ := by
  ext1
  · funext i
    by_cases hi : i = n
    · subst hi
      simp [viewOf, slotOf, CacheView.store, MetaNode.loadControl]
    · simp [viewOf, slotOf, CacheView.store, hi]
  all_goals rfl

theorem expire_loadControl (node : MetaNode) :
    node.expire.loadControl = { node.loadControl with state := .dead } := by
  simp [MetaNode.expire, MetaNode.loadControl, UnpackedControl.ext_iff]

theorem slotOf_expireSlots (hclock : i < l0MaxSlots → (arena.metadata i).createdAt ≤ t) :
    slotOf (expireSlots t arena) i =
      if i < l0MaxSlots then (slotOf arena i).sweep t.toNat else slotOf arena i := by
  by_cases hi : i < l0MaxSlots
  swap
  · simp [slotOf, expireSlots_metadata, hi]
  have hex := expired_iff (hclock hi)
  rw [if_pos hi, Slot.sweep, slotOf, expireSlots_metadata]
  by_cases he : (arena.metadata i).expired t = true
  · rw [if_pos ⟨hi,he⟩, if_pos (hex.mp he), expire_loadControl]
    rfl
  · rw [if_neg fun h => he h.2, if_neg (mt hex.mpr he)]
    rfl

theorem viewOf_expireSlots (hclock : ∀ i < l0MaxSlots, (arena.metadata i).createdAt ≤ t) :
    viewOf (expireSlots t arena) = (viewOf arena).sweep t.toNat := by
  ext1
  · funext i
    exact slotOf_expireSlots (hclock i)
  all_goals rfl

end View

section Check
variable {K : Type*} [Field K] [LinearOrder K] [IsStrictOrderedRing K] {query : Vec K}
  {t : UInt64} {arena arena' : MemoryArena (Vec K)} {n : ℕ}
  {reply : Except Status CheckCacheResponse}

theorem reached_iff (hclock : ∀ i < l0MaxSlots, (arena.metadata i).createdAt ≤ t) :
    Reached query t.toNat (slotOf arena) ↔
      atLeast (bestSlot query t arena l0MaxSlots).1 (similarityThreshold : K) = true := by
  rw [← not_iff_not, Bool.not_eq_true, below_iff, Reached]
  simp only [not_exists, not_and, similar_iff, cosineSimilarity_eq_dotProduct]
  refine forall_congr' fun i => forall_congr' fun hi => ?_
  rw [matchable_iff (hclock i hi)]
  rfl

theorem best_of_bestSlot (hclock : ∀ i < l0MaxSlots, (arena.metadata i).createdAt ≤ t)
    (h : (bestSlot query t arena l0MaxSlots).2 = some n) :
    Best query t.toNat (slotOf arena) n := by
  obtain ⟨hn,hm,hscore⟩ := matchable_of_best h
  rw [cosineSimilarity_eq_dotProduct] at hscore
  have hkey : ∀ i < l0MaxSlots, (slotOf arena i).Matchable t.toNat →
      slotScore query t arena i = some (query ⬝ᵥ (slotOf arena i).vector) := by
    intro i hi hmi
    rw [slotScore, if_pos ((matchable_iff (hclock i hi)).mpr hmi), cosineSimilarity_eq_dotProduct]
    rfl
  refine ⟨hn,(matchable_iff (hclock n hn)).mp hm,fun i hi hmi => ?_,fun i hi hmi => ?_⟩
  · exact (key_le (minusOne : K) hi (hkey i hi hmi)).trans hscore.ge
  · exact (lt_of_before h hi (hkey i (hi.trans hn) hmi)).trans_eq hscore.symm

omit [Field K] [LinearOrder K] [IsStrictOrderedRing K] in
theorem firstFree_of_reusableSlot
    (hclock : ∀ i < l0MaxSlots, (arena.metadata i).createdAt ≤ t)
    (h : reusableSlot t arena l0MaxSlots = some n) : FirstFree t.toNat (slotOf arena) n := by
  obtain ⟨hr,hn,hbefore⟩ := List.find?_range_eq_some.mp h
  rw [List.mem_range] at hn
  refine ⟨hn,(reusable_iff (hclock n hn)).mp hr,fun i hi hfree => ?_⟩
  have := hbefore i hi
  rw [(reusable_iff (hclock i (hi.trans hn))).mpr hfree] at this
  simp at this

omit [Field K] [LinearOrder K] [IsStrictOrderedRing K] in
theorem not_free_of_reusableSlot
    (hclock : ∀ i < l0MaxSlots, (arena.metadata i).createdAt ≤ t)
    (h : reusableSlot t arena l0MaxSlots = none) :
    ∀ i < l0MaxSlots, ¬ (slotOf arena i).Free t.toNat := by
  intro i hi hfree
  exact List.find?_eq_none.mp h i (List.mem_range.mpr hi) ((reusable_iff (hclock i hi)).mpr hfree)

/-- Each outcome of the code is the one specified. -/
theorem CheckOutcome.spec (h : CheckOutcome query t arena reply arena')
    (hclock : ∀ i < l0MaxSlots, (arena.metadata i).createdAt ≤ t) :
    CheckSpec query t (viewOf arena) reply (viewOf arena') := by
  have hreached : Reached query t.toNat (slotOf arena) ↔ _ := reached_iff hclock
  have hsweep := viewOf_expireSlots hclock
  cases h with
  | @hit n best above filled =>
    have hnode := (expireSlots_of_best best).2
    rw [readPayload_eq_designated, viewOf_storeControl, hsweep]
    have hslot : slotOf (expireSlots t arena) n = slotOf arena n := by
      rw [slotOf, hnode]
      rfl
    have hword : unpackControl (packControl (arena.metadata n).loadControl.state .hot
        (arena.metadata n).loadControl.length (arena.metadata n).loadControl.virtualOffset) =
        { (arena.metadata n).loadControl with refBit := .hot } := by
      simp [MetaNode.loadControl, UnpackedControl.ext_iff]
    rw [hslot, hword]
    exact .hit (hreached.mpr above) (best_of_bestSlot hclock best) filled
  | @pending n best above reserved =>
    rw [hsweep]
    exact .pending (hreached.mpr above) (best_of_bestSlot hclock best) reserved
  | @miss n below free =>
    have hbelow : ¬ Reached query t.toNat (slotOf arena) := by
      rw [hreached, below]
      exact Bool.false_ne_true
    have hword : unpackControl (packControl .pending .hot 0 0) = ⟨.pending,.hot,0,0⟩ := by decide
    rw [viewOf_claim, hsweep, hword]
    exact .miss hbelow (firstFree_of_reusableSlot hclock free)
  | full below free =>
    have hbelow : ¬ Reached query t.toNat (slotOf arena) := by
      rw [hreached, below]
      exact Bool.false_ne_true
    have hfull := CheckSpec.full (v := viewOf arena) hbelow (not_free_of_reusableSlot hclock free)
    rwa [← hsweep, expireSlots_eq_self free] at hfull

/-- A whole `CheckCache` has exactly one outcome, the one specified. -/
theorem checkCache_specified {prompt : List UInt8} (hprompt : prompt ≠ [])
    (hclock : ∀ i < l0MaxSlots, (arena.metadata i).createdAt ≤ t) :
    (∃ reply arena', checkCache prompt (.ok query) t arena = .ok (reply, arena')) ∧
    ∀ reply arena', checkCache prompt (.ok query) t arena = .ok (reply, arena') ↔
      CheckSpec query t (viewOf arena) reply (viewOf arena') := by
  obtain ⟨reply,arena',hout⟩ := exists_checkOutcome query t arena
  have hcall := hout.checkCache_eq hprompt
  have hspec := hout.spec hclock
  refine ⟨⟨reply,arena',hcall⟩,fun reply'' arena'' => ⟨fun h => ?_,fun h => ?_⟩⟩
  · rw [hcall, Except.ok.injEq, Prod.mk.injEq] at h
    obtain ⟨rfl,rfl⟩ := h
    exact hspec
  · obtain ⟨rfl,hview⟩ := h.unique hspec
    rw [viewOf_injective hview, hcall]

/-- At second 40: an expired reservation, and a cold answer to the same query behind it. -/
def answeredArena : MemoryArena (Vec ℚ) := { freshArena ℚ with
  metadata := Function.update (Function.update (freshArena ℚ).metadata 0
    ⟨1,packControl .pending .hot 0 0⟩) 1 ⟨2,packControl .ready .cold 1 0⟩
  vectors := fun _ => axis 0 }

/-- The answer is found, and the reservation before it is given up on the way. -/
theorem checkCache_specified_replay : ∃ (reply : Except Status CheckCacheResponse)
    (arena' : MemoryArena (Vec ℚ)),
    (slotOf answeredArena 0).Expired 40 ∧ (slotOf answeredArena 1).Matchable 40 ∧
      CheckSpec (axis 0) 40 (viewOf answeredArena) reply (viewOf arena') ∧
      reply = .ok ⟨.hit,-1,[0]⟩ ∧ arena'.stateOf 0 = .dead ∧
      (arena'.metadata 1).loadControl.refBit = .hot := by
  have hfirst : answeredArena.metadata 0 = ⟨1,packControl .pending .hot 0 0⟩ := rfl
  have hsecond : answeredArena.metadata 1 = ⟨2,packControl .ready .cold 1 0⟩ := rfl
  have hrest : ∀ i, i ≠ 0 → i ≠ 1 → answeredArena.metadata i = ⟨0,0⟩ := by
    intro i h0 h1
    simp only [answeredArena, Function.update_of_ne h0, Function.update_of_ne h1]
    rfl
  have hclock : ∀ i < l0MaxSlots, (answeredArena.metadata i).createdAt ≤ 40 := by
    intro i _
    by_cases h0 : i = 0
    · rw [h0, hfirst]
      decide
    by_cases h1 : i = 1
    · rw [h1, hsecond]
      decide
    · rw [hrest i h0 h1]
      decide
  have ho : CheckOutcome (axis 0) 40 answeredArena _ _ := hitOutcome (n := 1) (by decide)
    (by rw [hsecond]; decide) (axis_normalized 0).similar (by
      intro i _ h1 hm
      by_cases h0 : i = 0
      · rw [h0, hfirst] at hm
        exact absurd hm (by decide)
      · rw [hrest i h0 h1] at hm
        exact absurd hm (by decide))
  have hspec := ((checkCache_specified (show [1] ≠ [] by simp) hclock).2 _ _).mp
    (ho.checkCache_eq (by simp))
  have hword : (⟨2,packControl .ready .cold 1 0⟩ : MetaNode).loadControl = ⟨.ready,.cold,1,0⟩ := by
    decide
  refine ⟨_,_,(expired_iff (hclock 0 (by decide))).mp (by rw [hfirst]; decide),
    (matchable_iff (hclock 1 (by decide))).mp (by rw [hsecond]; decide),hspec,?_,?_,?_⟩
  · rw [hsecond, hword]
    rfl
  · rw [MemoryArena.stateOf, MemoryArena.storeControl_of_ne _ _ _ (by decide), expireSlots_metadata,
      if_pos ⟨by decide,by rw [hfirst]; decide⟩]
    exact MetaNode.expire_state
  · simp [MetaNode.loadControl]

end Check

section Failure
variable {K : Type*} [Scoring K] {arena arena' : MemoryArena (Vec K)} {call : Call K}
  {reply : Reply}

def Reply.Failed : Reply → Prop
  | .checked (.error _) | .stored (.error _) => True
  | _ => False

theorem CheckOutcome.of_error {query : Vec K} {t : UInt64} {status : Status}
    (h : CheckOutcome query t arena (.error status) arena') :
    arena' = arena ∧ reusableSlot t arena l0MaxSlots = none := by
  generalize hreply : (.error status : Except Status CheckCacheResponse) = result at h
  cases h with
  | hit | pending | miss => simp at hreply
  | full below free => exact ⟨rfl,free⟩

/-- Without a reusable slot the scan has expired none. -/
theorem scan_untouched {query : Vec K} {t : UInt64} (h : reusableSlot t arena l0MaxSlots = none) :
    (scanL0 query t arena).1 = arena ∧ ∀ i < l0MaxSlots, (arena.metadata i).expired t = false := by
  refine ⟨by rw [scanL0_eq, expireSlots_eq_self h],fun i hi => ?_⟩
  have hnone := List.find?_eq_none.mp h i (List.mem_range.mpr hi)
  rw [MetaNode.reusable_eq_true, not_or, Bool.not_eq_true] at hnone
  exact hnone.2

/-- A call that fails leaves the arena as it was; a `CheckCache` that finds no slot
has expired none on the way. -/
theorem failed_untouched (h : perform call arena = .ok (reply, arena')) (hfail : reply.Failed) :
    arena' = arena ∧ ∀ prompt query t, prompt ≠ [] → call = .checkCache prompt (.ok query) t →
      (scanL0 query t arena).1 = arena ∧
        ∀ i < l0MaxSlots, (arena.metadata i).expired t = false := by
  have hfire : Fires arena (call, reply) arena' := h
  rcases fires_cases hfire with ⟨prompt,embedding,t,result,hact,hc⟩ |
    ⟨nodeId,payload,result,hact,hc⟩ | ⟨hact,-⟩
  · obtain ⟨rfl,rfl⟩ := Prod.mk.inj hact
    cases result with
    | ok response => exact absurd hfail id
    | error status =>
      refine ⟨?_,fun prompt' query t' hprompt hcall => ?_⟩
      · rcases checkCache_cases hc with ⟨-,hsame⟩ | ⟨query,-,-,ho⟩
        · exact hsame
        · exact ho.of_error.1
      · obtain ⟨rfl,rfl,rfl⟩ := Call.checkCache.inj hcall
        obtain ⟨reply,arena'',ho⟩ := exists_checkOutcome query t arena
        rw [ho.checkCache_eq hprompt, Except.ok.injEq, Prod.mk.injEq] at hc
        obtain ⟨rfl,rfl⟩ := hc
        exact scan_untouched ho.of_error.2
  · obtain ⟨rfl,rfl⟩ := Prod.mk.inj hact
    refine ⟨?_,by simp⟩
    rcases setCache_cases hc with ⟨-,hsame⟩ | ⟨-,offset,written,-,⟨-,rfl,-⟩ | ⟨-,rfl,-⟩⟩
    · exact hsame
    · exact absurd hfail id
    · exact absurd hfail id
  · obtain ⟨rfl,rfl⟩ := Prod.mk.inj hact
    exact absurd hfail id

/-- Every slot is a fresh reservation for another query. -/
def reservedArena : MemoryArena (Vec ℚ) := { freshArena ℚ with
  metadata := fun _ => ⟨1,packControl .pending .hot 0 0⟩
  vectors := fun _ => axis 1 }

theorem failed_untouched_replay : ∃ arena arena' : MemoryArena (Vec ℚ), ∃ status,
    perform (.checkCache [1] (.ok (axis 0)) 1) arena = .ok (.checked (.error status), arena') ∧
      (arena.metadata 0).loadControl.state = .pending ∧ arena' = arena := by
  have hfree : reusableSlot 1 reservedArena l0MaxSlots = none := by
    refine List.find?_eq_none.mpr fun i _ => ?_
    have : (⟨1,packControl .pending .hot 0 0⟩ : MetaNode).reusable 1 = false := by decide
    simp [reservedArena, this]
  have hout : CheckOutcome (axis 0) 1 reservedArena _ _ :=
    .full (below_iff.mpr fun i _ _ => axis_not_similar (by decide)) hfree
  have hcall := fires_checkCache.mpr (hout.checkCache_eq (show [1] ≠ [] by simp))
  exact ⟨reservedArena,reservedArena,_,hcall,by decide,(failed_untouched hcall trivial).1⟩

end Failure

end Strix
