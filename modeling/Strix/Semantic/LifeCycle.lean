import Strix.Ring.SecondChance

/-! # The life cycle of a node

A node goes from dead to pending by a claim, on to ready by a publication, and
back to dead by an expiry or an eviction. The collector keeps to this as long as
it takes no leaked record for the one of a pending node, whose stored offset is
a placeholder.
-/
namespace Strix
open RunHistory Scoring

section Conditions
variable {K : Type*}

/-- What a whole call can do to the state of node `n`. -/
inductive Changes (n : ℕ) (τ : Step K) : Prop
  | kept (same : τ.after.stateOf n = τ.before.stateOf n)
  | claimed {prompt : List UInt8} {query : Vec K} {t : UInt64}
    (act : τ.act = (.checkCache prompt (.ok query) t, .checked (.ok ⟨.miss,n,[]⟩)))
    (old : τ.before.stateOf n = .dead) (new : τ.after.stateOf n = .pending)
  | published {nodeId : ℤ} {payload : List UInt8}
    (act : τ.act = (.setCache nodeId payload, .stored (.ok true))) (node : wireNode nodeId = n)
    (old : τ.before.stateOf n = .pending) (new : τ.after.stateOf n = .ready)
  | expired {prompt : List UInt8} {query : Vec K} {t : UInt64} {reply : Reply}
    (act : τ.act = (.checkCache prompt (.ok query) t, reply))
    (due : (τ.before.metadata n).expired t = true) (old : τ.before.stateOf n = .pending)
    (new : τ.after.stateOf n = .dead)
  | evicted {header : PayloadHeader} (act : τ.act = (.collect, .collected))
    (meets : τ.before.sight = .record header) (node : header.nodeId.toNat = n)
    (refers : (τ.before.metadata n).loadControl.virtualOffset =
      τ.before.readTail &&& virtualOffsetMask)
    (cold : (τ.before.metadata n).loadControl.refBit = .cold) (old : τ.before.stateOf n = .ready)
    (new : τ.after.stateOf n = .dead)

/-- The states change along the life cycle, and a pass leaves pending nodes alone. -/
def LifeCycle (τ : Step K) : Prop :=
  (∀ n, Changes n τ) ∧ (τ.act.1 = .collect → ∀ n, τ.before.stateOf n = .pending →
    τ.after.metadata n = τ.before.metadata n)

/-- The collector's next iteration finds a record of a pending node at the offset that
the node has stored. -/
def MeetsPending (arena : MemoryArena (Vec K)) : Prop :=
  ∃ header, arena.sight = .record header ∧ arena.stateOf header.nodeId.toNat = .pending ∧
    (arena.metadata header.nodeId.toNat).loadControl.virtualOffset =
      arena.readTail &&& virtualOffsetMask

def PlaceholderMissed (τ : Step K) : Prop := τ.act.1 = .collect → ¬MeetsPending τ.before

end Conditions

theorem MetaNode.Settles.not_migrating {old new : MetaNode} (h : old.Settles new)
    (hold : old.loadControl.state ≠ .migrating) : new.loadControl.state ≠ .migrating := by
  rcases h with ⟨-,hd⟩ | ⟨-,hs | ⟨-,hr⟩⟩
  · simp [hd]
  · rwa [hs]
  · simp [hr]

theorem MetaNode.Frees.not_migrating {old new : MetaNode} (h : old.Frees new)
    (hold : old.loadControl.state ≠ .migrating) : new.loadControl.state ≠ .migrating := by
  rcases h with hd | ⟨-,hs⟩
  · simp [hd]
  · rwa [hs]

section Steps
variable {K : Type*} {arena arena' : MemoryArena (Vec K)} {t : UInt64} {n : ℕ}

theorem expireSlots_state (t : UInt64) (arena : MemoryArena (Vec K)) (n : ℕ) :
    (expireSlots t arena).stateOf n = arena.stateOf n ∨
    ((arena.metadata n).expired t = true ∧ arena.stateOf n = .pending ∧
      (expireSlots t arena).stateOf n = .dead) := by
  unfold MemoryArena.stateOf
  rw [expireSlots_metadata]
  split
  · next h => exact .inr ⟨h.2,(MetaNode.expired_eq_true.mp h.2).1,MetaNode.expire_state⟩
  · exact .inl rfl

theorem changes_of_check [Scoring K] {prompt : List UInt8} {embedding : Except String (Vec K)}
    {result : Except Status CheckCacheResponse}
    (h : checkCache prompt embedding t arena = .ok (result, arena')) :
    Changes n (⟨arena,(.checkCache prompt embedding t, .checked result),arena'⟩ : Step K) := by
  rcases checkCache_cases h with ⟨-,rfl⟩ | ⟨query,rfl,-,ho⟩
  · exact .kept rfl
  have hscan : arena'.stateOf n = (expireSlots t arena).stateOf n →
      Changes n (⟨arena,(.checkCache prompt (.ok query) t, .checked result),arena'⟩ : Step K) := by
    intro hsame
    rcases expireSlots_state t arena n with hkept | ⟨hdue,hold,hnew⟩
    · exact .kept (hsame.trans hkept)
    · exact .expired rfl hdue hold (hsame.trans hnew)
  cases ho with
  | @hit m best above filled =>
    by_cases hn : n = m
    · subst hn
      exact .kept (by rw [MemoryArena.stateOf_storeControl, if_pos rfl]; simp [MemoryArena.stateOf])
    · exact hscan (by rw [MemoryArena.stateOf_storeControl, if_neg hn])
  | pending => exact hscan rfl
  | @miss m below free =>
    have hstate :
        ((((expireSlots t arena).storeControl m (packControl .pending .hot 0 0)).storeVector
          m query).storeCreatedAt m t).stateOf n =
        if n = m then .pending else (expireSlots t arena).stateOf n := by
      rw [MemoryArena.stateOf_storeCreatedAt]
      refine (MemoryArena.stateOf_storeControl _ _ _ _).trans ?_
      simp
    by_cases hn : n = m
    · subst hn
      rw [if_pos rfl] at hstate
      rcases MetaNode.reusable_eq_true.mp (reusable_of_free free).2 with hdead | hdue
      · exact .claimed rfl hdead hstate
      · exact .kept (hstate.trans (MetaNode.expired_eq_true.mp hdue).1.symm)
    · exact hscan (by rw [hstate, if_neg hn])
  | full => exact .kept rfl

theorem changes_of_set {nodeId : ℤ} {payload : List UInt8} {result : Except Status Bool}
    (h : setCache nodeId payload arena = .ok (result, arena')) :
    Changes n (⟨arena,(.setCache nodeId payload, .stored result),arena'⟩ : Step K) := by
  rcases setCache_cases h with ⟨-,rfl⟩ | ⟨hw,offset,written,hwrite,hout⟩
  · exact .kept rfl
  obtain ⟨hmeta,-⟩ := writePayload_fields hwrite
  rcases hout with ⟨-,-,rfl⟩ | ⟨hpending,rfl,rfl⟩
  · exact .kept (by simp only [MemoryArena.stateOf, hmeta])
  · by_cases hn : n = wireNode nodeId
    · subst hn
      exact .published rfl rfl hpending (by simp [MemoryArena.stateOf, MetaNode.loadControl])
    · exact .kept (by
        simp only [MemoryArena.stateOf, MemoryArena.storeControl_of_ne _ _ _ hn, hmeta])

theorem meetsPending_iff {header : PayloadHeader} (hs : arena.sight = .record header)
    (current : MemoryArena.stale (arena.metadata header.nodeId.toNat).loadControl arena.readTail =
      false) : MeetsPending arena ↔ arena.stateOf header.nodeId.toNat = .pending := by
  constructor
  · rintro ⟨header',hs',hpending,-⟩
    obtain rfl := MemoryArena.Sighting.record.inj (hs.symm.trans hs')
    exact hpending
  · exact fun hpending => ⟨header,hs,hpending,(stale_eq_false.mp current).2⟩

theorem not_meetsPending_of_stale {header : PayloadHeader} (hs : arena.sight = .record header)
    (old : MemoryArena.stale (arena.metadata header.nodeId.toNat).loadControl arena.readTail =
      true) : ¬MeetsPending arena := by
  rintro ⟨header',hs',hpending,hoffset⟩
  obtain rfl := MemoryArena.Sighting.record.inj (hs.symm.trans hs')
  have hlive : (arena.metadata header.nodeId.toNat).loadControl.state ≠ .dead := by
    rw [show (arena.metadata header.nodeId.toNat).loadControl.state = .pending from hpending]
    decide
  rw [stale_eq_false.mpr ⟨hlive,hoffset⟩] at old
  cases old

theorem ready_of_current
    (current : MemoryArena.stale (arena.metadata n).loadControl arena.readTail = false)
    (hpending : arena.stateOf n ≠ .pending) (hmigrating : arena.stateOf n ≠ .migrating) :
    arena.stateOf n = .ready := by
  have hdead := (stale_eq_false.mp current).1
  unfold MemoryArena.stateOf at hpending hmigrating ⊢
  cases hs : (arena.metadata n).loadControl.state <;> simp_all

theorem evict_lifeCycle_iff {header : PayloadHeader} (hs : arena.sight = .record header)
    (current : MemoryArena.stale (arena.metadata header.nodeId.toNat).loadControl arena.readTail =
      false)
    (cold : (arena.metadata header.nodeId.toNat).loadControl.refBit = .cold)
    (hmigrating : arena.stateOf header.nodeId.toNat ≠ .migrating) :
    LifeCycle (⟨arena,(.collect, .collected),((arena.evictExchange header.nodeId.toNat
      (arena.metadata header.nodeId.toNat).loadControl).storeCreatedAt
        header.nodeId.toNat 0).advanceReadTail (MemoryArena.recordSize header).toUInt64⟩ : Step K) ↔
      arena.stateOf header.nodeId.toNat ≠ .pending := by
  rw [evictExchange_eq]
  set w := packControl .dead (arena.metadata header.nodeId.toNat).loadControl.refBit
    (arena.metadata header.nodeId.toNat).loadControl.length
    (arena.metadata header.nodeId.toNat).loadControl.virtualOffset with hw
  have hafter : ∀ n, (((arena.storeControl header.nodeId.toNat w).storeCreatedAt
      header.nodeId.toNat 0).advanceReadTail (MemoryArena.recordSize header).toUInt64).stateOf n =
      if n = header.nodeId.toNat then .dead else arena.stateOf n := fun n => by
    refine (MemoryArena.stateOf_storeCreatedAt ..).trans ?_
    rw [MemoryArena.stateOf_storeControl, hw, unpackControl_packControl_state]
  constructor
  · rintro ⟨-,hcalm⟩ hpending
    have hsame := congrArg (fun node => node.loadControl.state) (hcalm rfl _ hpending)
    have hdead := hafter header.nodeId.toNat
    rw [if_pos rfl] at hdead
    exact absurd (hdead.symm.trans (hsame.trans hpending)) (by decide)
  · refine fun hpending => ⟨fun n => ?_,fun _ n hn => ?_⟩
    · by_cases hn : n = header.nodeId.toNat
      · subst hn
        exact .evicted rfl hs rfl (stale_eq_false.mp current).2 cold
          (ready_of_current current hpending hmigrating) ((hafter _).trans (if_pos rfl))
      · exact .kept ((hafter n).trans (if_neg hn))
    · have hne : n ≠ header.nodeId.toNat := by
        rintro rfl
        exact hpending hn
      simp [hne]

/-- A rescue keeps every state, but takes the hot bit of a pending node. -/
theorem rescue_lifeCycle_iff {header : PayloadHeader} {offset : UInt64}
    {rescued : MemoryArena (Vec K)}
    (hot : (arena.metadata header.nodeId.toNat).loadControl.refBit = .hot)
    (hrescue : arena.rescuePayload arena.readTail header = .ok (offset, rescued)) :
    LifeCycle (⟨arena,(.collect, .collected),(rescued.rehomeExchange header.nodeId.toNat
      (arena.metadata header.nodeId.toNat).loadControl offset).advanceReadTail
        (MemoryArena.recordSize header).toUInt64⟩ : Step K) ↔
      arena.stateOf header.nodeId.toNat ≠ .pending := by
  obtain ⟨hmeta,-⟩ := rescuePayload_fields hrescue
  have hexchange := rehomeExchange_eq rescued header.nodeId.toNat offset (by rw [hmeta, hot])
  rw [hmeta] at hexchange
  rw [hexchange]
  set w := packControl (arena.metadata header.nodeId.toNat).loadControl.state .cold
    (arena.metadata header.nodeId.toNat).loadControl.length offset with hw
  have hafter : ∀ n, ((rescued.storeControl header.nodeId.toNat w).advanceReadTail
      (MemoryArena.recordSize header).toUInt64).stateOf n = arena.stateOf n := fun n => by
    refine (MemoryArena.stateOf_storeControl ..).trans ?_
    split
    · rename_i hn
      rw [hn, hw, unpackControl_packControl_state]
      rfl
    · simp only [MemoryArena.stateOf, hmeta]
  constructor
  · rintro ⟨-,hcalm⟩ hpending
    have hsame := congrArg (fun node => node.loadControl.refBit) (hcalm rfl _ hpending)
    simp only [MemoryArena.advanceReadTail_metadata, MemoryArena.storeControl_self,
      MetaNode.loadControl, hw, unpackControl_packControl_refBit] at hsame
    exact absurd (hsame.trans hot) (by decide)
  · refine fun hpending => ⟨fun n => .kept (hafter n),fun _ n hn => ?_⟩
    have hne : n ≠ header.nodeId.toNat := by
      rintro rfl
      exact hpending hn
    simp [hne, hmeta]

/-- A pass that completes keeps to the life cycle exactly if it meets no record of a
pending node at its stored offset. -/
theorem collect_lifeCycle_iff (h : arena.runGarbageCollectorPass = .ok arena')
    (hstates : ∀ n, arena.stateOf n ≠ .migrating) :
    LifeCycle (⟨arena,(.collect, .collected),arena'⟩ : Step K) ↔ ¬MeetsPending arena := by
  -- a pass that changes no node
  have hquiet : arena'.metadata = arena.metadata →
      LifeCycle (⟨arena,(.collect, .collected),arena'⟩ : Step K) := fun hmeta =>
    ⟨fun n => .kept (by simp only [MemoryArena.stateOf, hmeta]),fun _ n _ => by rw [hmeta]⟩
  have hblind : (∀ header, arena.sight ≠ .record header) → ¬MeetsPending arena := by
    rintro hno ⟨header,hs,-⟩
    exact hno header hs
  cases pass_move h with
  | asleep hs => exact iff_of_true (hquiet rfl) (hblind fun header => by rw [hs]; simp)
  | leap hs => exact iff_of_true (hquiet rfl) (hblind fun header => by rw [hs]; simp)
  | resync hs => exact iff_of_true (hquiet rfl) (hblind fun header => by rw [hs]; simp)
  | skip hs _ old => exact iff_of_true (hquiet rfl) (not_meetsPending_of_stale hs old)
  | evict hs _ current cold =>
    rw [meetsPending_iff hs current]
    exact evict_lifeCycle_iff hs current cold (hstates _)
  | rescue hs _ current hot hrescue =>
    rw [meetsPending_iff hs current]
    exact rescue_lifeCycle_iff hot hrescue

theorem lifeCycle_iff [Scoring K] {τ : Step K} (h : Fires τ.before τ.act τ.after)
    (hstates : ∀ n, τ.before.stateOf n ≠ .migrating) : LifeCycle τ ↔ PlaceholderMissed τ := by
  obtain ⟨before,act,after⟩ := τ
  rcases fires_cases h with ⟨prompt,embedding,t,result,rfl,hc⟩ |
    ⟨nodeId,payload,result,rfl,hc⟩ | ⟨rfl,hc⟩
  · exact iff_of_true ⟨fun n => changes_of_check hc,by simp⟩ (by simp [PlaceholderMissed])
  · exact iff_of_true ⟨fun n => changes_of_set hc,by simp⟩ (by simp [PlaceholderMissed])
  · rw [collect_lifeCycle_iff hc hstates]
    simp [PlaceholderMissed]

end Steps

section Runs
variable {K : Type*} [Scoring K] {es : List (Step K)} {arena : MemoryArena (Vec K)}

theorem EngineRun.not_migrating (hrun : EngineRun es arena) (n : ℕ) :
    arena.stateOf n ≠ .migrating := by
  refine hrun.invariant (I := fun u => ∀ n, u.stateOf n ≠ .migrating) (P := fun _ => True) ?_
    (fun _ _ => trivial) (fun n => ?_) n
  · intro τ hfire _ hτ n hmigrating
    rcases step_effect hfire with ⟨-,-,hsettle | ⟨-,hfree⟩⟩ | ⟨m,query,prompt,t,-,-,hclaim⟩
    · exact (hsettle n).not_migrating (hτ n) hmigrating
    · exact (hfree n).not_migrating (hτ n) hmigrating
    · by_cases hn : n = m
      · subst hn
        rw [MemoryArena.stateOf, hclaim.node] at hmigrating
        simp [MetaNode.loadControl] at hmigrating
      · exact (hclaim.settles hn).not_migrating (hτ n) hmigrating
  · rw [show (freshArena K).stateOf n = .dead from freshArena_state n]
    decide

/-- In every run of whole calls the nodes keep to their life cycle exactly if no pass
meets a record of a pending node at the offset that the node has stored. -/
theorem lifeCycle_iff_placeholderMissed (hrun : EngineRun es arena) :
    (∀ τ ∈ es, LifeCycle τ) ↔ ∀ τ ∈ es, PlaceholderMissed τ :=
  hrun.forall_iff fun _ _ hbefore _ hfire =>
    lifeCycle_iff hfire fun n => EngineRun.not_migrating hbefore n

end Runs

section Replay

/-- An answer is published, rescued once and evicted. -/
theorem lifeCycle_replay : ∃ (es : List (Step ℚ)) (τ : Step ℚ), EngineRun (es ++ [τ]) τ.after ∧
    Evicts 0 τ ∧ Happened (Rescues 0) es ∧ ∀ σ ∈ es ++ [τ], LifeCycle σ := by
  obtain ⟨es,τ,hrun,hcalm,hevicts,hrescued⟩ := exists_evicted (axis 0 : Vec ℚ)
  refine ⟨es,τ,hrun,hevicts,hrescued,(lifeCycle_iff_placeholderMissed hrun).mpr ?_⟩
  rintro σ hσ hact ⟨header,-,hpending,-⟩
  exact hcalm σ hσ hact _ hpending

/-- A leaked record of node 0 lies at the start of the ring, where the placeholder of a
pending node points: the collector rescues it and moves the pending node. -/
theorem pendingNode_rescued : ∃ (es : List (Step ℚ)) (arena arena' : MemoryArena (Vec ℚ)),
    EngineRun es arena ∧ (∀ τ ∈ es, Bounded τ) ∧ arena.stateOf 0 = .pending ∧
      arena.runGarbageCollectorPass = .ok arena' ∧
      (arena'.metadata 0).controlBlock ≠ (arena.metadata 0).controlBlock := by
  have hring : LiveRing (freshArena ℚ) 0 [] 0 := liveRing_initial _
  obtain ⟨fs,filled,unused,hfill,hfs,hmeta,-,hids,hring'⟩ :=
    exists_fill (n := 0) (d := 2 ^ 31) (by decide) hring (by rw [freshArena_state]; decide)
      (by omega) (by omega) (by omega)
  rw [List.nil_append, Nat.zero_add] at hring'
  have hdead : ∀ i, filled.stateOf i = .dead := fun i => by
    rw [MemoryArena.stateOf, hmeta]
    exact freshArena_state i
  obtain ⟨claimed,hclaim,hnode,hbuf,hhead,htail⟩ := exists_miss (n := 0) (axis 0) 1 (by decide)
    (MetaNode.reusable_eq_true.mpr (.inl (hdead 0))) (fun i hi => by omega)
    (fun i _ hm => by
      rw [MetaNode.not_matchable_of_dead (hdead i)] at hm
      exact absurd hm Bool.false_ne_true)
  have hring := hring'.congr hbuf hhead htail
  cases unused with
  | nil =>
    have hempty : 0 = 2 ^ 31 := hring.holds.laid
    omega
  | cons e unused =>
    have hid : e.item.nodeId = 0 := hids e List.mem_cons_self
    have hfront : e.offset = 0 := hring.front.1
    have hlen := e.item.length_lt
    have hsize := e.item.encode_length
    have hpass := hring.pass
    have hctrl : (claimed.metadata 0).loadControl = ⟨.pending,.hot,0,0⟩ := by
      rw [hnode.node]
      decide
    have hcurrent :
        MemoryArena.stale (claimed.metadata 0).loadControl claimed.readTail = false := by
      rw [hctrl, hring.tail]
      decide
    have hpending : claimed.stateOf 0 = .pending := by rw [MemoryArena.stateOf, hctrl]
    generalize hout : claimed.runGarbageCollectorPass = out at hpass
    rw [← hid] at hcurrent hctrl
    cases hpass with
    | asleep low => omega
    | leap _ gap => omega
    | skip _ _ old =>
      rw [hcurrent] at old
      cases old
    | evict _ _ _ cold =>
      rw [hctrl] at cold
      cases cold
    | exhausted _ _ _ _ full => omega
    | rescue past front current hot room written =>
      refine ⟨_,claimed,_,(hfill.snoc hclaim),?_,hpending,hout,fun hsame => ?_⟩
      · rw [List.forall_mem_append, List.forall_mem_singleton]
        exact ⟨fun τ hτ => (hfs τ hτ).1,bounded_of_head_eq hhead.symm⟩
      · rw [hid] at hsame
        have hcold := congrArg (fun w => (unpackControl w).refBit) hsame
        have hhot : (unpackControl (claimed.metadata 0).controlBlock).refBit = .hot := by
          have := congrArg UnpackedControl.refBit hctrl
          rwa [hid] at this
        simp [hhot] at hcold

end Replay

end Strix
