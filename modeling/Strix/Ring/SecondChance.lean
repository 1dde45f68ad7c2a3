import Strix.Ring.Exhaustion
import Strix.Semantic.Effect

/-! # The second chance

A publication and a hit leave the node's reference bit hot, and only a rescue
makes a ready node cold. So the collector frees no ready node that it has not
rescued since the node was last used, whatever the ring contains.
-/
namespace Strix
open ByteRing FramedLog RunHistory Scoring

section Events
variable {K : Type*}

/-- A `SetCache` on node `n` returned success, or a `CheckCache` answered from it. -/
def Uses [Scoring K] (n : ℕ) (τ : Step K) : Prop :=
  (∃ payload, publishes τ = some (n, payload)) ∨ ∃ payload, HitFrom τ n payload

/-- The collector's next iteration copies the record of node `n` to the head. -/
def RescueDue (arena : MemoryArena (Vec K)) (n : ℕ) : Prop :=
  ∃ header, arena.sight = .record header ∧ header.nodeId.toNat = n ∧
    MemoryArena.stale (arena.metadata n).loadControl arena.readTail = false ∧
    (arena.metadata n).loadControl.refBit = .hot

def Rescues (n : ℕ) (τ : Step K) : Prop := τ.act = (.collect, .collected) ∧ RescueDue τ.before n

def Evicts (n : ℕ) (τ : Step K) : Prop :=
  τ.act = (.collect, .collected) ∧ τ.before.stateOf n = .ready ∧ τ.after.stateOf n = .dead

end Events

section Calls
variable {K : Type*} {arena arena' : MemoryArena (Vec K)} {n : ℕ}

theorem stateOf_eq_of_metadata (h : arena'.metadata n = arena.metadata n) :
    arena'.stateOf n = arena.stateOf n := by
  rw [MemoryArena.stateOf, MemoryArena.stateOf, h]

theorem CheckOutcome.use [Scoring K] {query : Vec K} {t : UInt64}
    {reply : Except Status CheckCacheResponse} (h : CheckOutcome query t arena reply arena')
    (n : ℕ) :
    (∃ payload, reply = .ok ⟨.hit,-1,payload⟩ ∧ (scanL0 query t arena).2.bestNodeId = n ∧
      (arena'.metadata n).loadControl.refBit = .hot) ∨
    ((∀ response, reply = .ok response → response.checkState = .hit →
        (scanL0 query t arena).2.bestNodeId ≠ n) ∧
      (arena'.stateOf n = .ready → arena'.metadata n = arena.metadata n)) := by
  have hscan : arena'.metadata n = (expireSlots t arena).metadata n →
      arena'.stateOf n = .ready → arena'.metadata n = arena.metadata n := by
    intro hsame hready
    rw [hsame, expireSlots_metadata]
    split
    · next hex =>
      rw [MemoryArena.stateOf, hsame, expireSlots_metadata, if_pos hex,
        MetaNode.expire_state] at hready
      cases hready
    · rfl
  cases h with
  | @hit m best above filled =>
    have hbest : (scanL0 query t arena).2.bestNodeId = m := by
      rw [scanL0_eq, best]
      rfl
    by_cases hn : n = m
    · subst hn
      exact .inl ⟨_,rfl,hbest,by simp [MetaNode.loadControl]⟩
    · refine .inr ⟨fun _ _ _ => ?_,hscan (MemoryArena.storeControl_of_ne _ _ _ hn)⟩
      rw [hbest]
      exact fun heq => hn (Int.ofNat.inj heq).symm
  | pending =>
    refine .inr ⟨?_,hscan rfl⟩
    rintro _ ⟨⟩ hhit
    cases hhit
  | @miss m below free =>
    refine .inr ⟨?_,fun hready => ?_⟩
    · rintro _ ⟨⟩ hhit
      cases hhit
    · by_cases hn : n = m
      · subst hn
        simp [MemoryArena.stateOf, MetaNode.loadControl] at hready
      · refine hscan ?_ hready
        rw [MemoryArena.storeCreatedAt_of_ne _ _ _ hn, MemoryArena.storeVector_metadata,
          MemoryArena.storeControl_of_ne _ _ _ hn]
  | full => exact .inr ⟨by simp,fun _ => rfl⟩

theorem setCache_use {nodeId : ℤ} {payload : List UInt8} {reply : Except Status Bool}
    (h : setCache nodeId payload arena = .ok (reply, arena')) (n : ℕ) :
    (reply = .ok true ∧ wireNode nodeId = n ∧ (arena'.metadata n).loadControl.refBit = .hot) ∨
      ((reply = .ok true → wireNode nodeId ≠ n) ∧ arena'.metadata n = arena.metadata n) := by
  rcases setCache_cases h with ⟨⟨status,rfl⟩,rfl⟩ | ⟨-,offset,written,hwrite,hout⟩
  · exact .inr ⟨by simp,rfl⟩
  obtain ⟨hmeta,-⟩ := writePayload_fields hwrite
  rcases hout with ⟨-,rfl,rfl⟩ | ⟨-,rfl,rfl⟩
  · exact .inr ⟨by simp,by rw [hmeta]⟩
  · by_cases hn : n = wireNode nodeId
    · subst hn
      exact .inl ⟨rfl,rfl,by simp [MetaNode.loadControl]⟩
    · exact .inr ⟨fun _ => Ne.symm hn,by rw [MemoryArena.storeControl_of_ne _ _ _ hn, hmeta]⟩

theorem collect_use (h : arena.runGarbageCollectorPass = .ok arena') (n : ℕ) :
    (RescueDue arena n ∧ arena'.stateOf n = arena.stateOf n) ∨
    ((arena.metadata n).loadControl.refBit = .cold ∧ arena'.stateOf n = .dead) ∨
      arena'.metadata n = arena.metadata n := by
  cases pass_move h with
  | asleep | leap | resync | skip => exact .inr (.inr rfl)
  | @evict header _ _ _ cold =>
    rw [evictExchange_eq]
    by_cases hn : n = header.nodeId.toNat
    · subst hn
      exact .inr (.inl ⟨cold,by simp [MemoryArena.stateOf, MetaNode.loadControl]⟩)
    · exact .inr (.inr (by simp [hn]))
  | @rescue header offset rescued hs hnode current hot hrescue =>
    obtain ⟨hmeta,-⟩ := rescuePayload_fields hrescue
    have hexchange := rehomeExchange_eq rescued header.nodeId.toNat offset (by rw [hmeta, hot])
    rw [hmeta] at hexchange
    rw [hexchange]
    by_cases hn : n = header.nodeId.toNat
    · subst hn
      exact .inl ⟨⟨header,hs,rfl,current,hot⟩,by simp [MemoryArena.stateOf, MetaNode.loadControl]⟩
    · exact .inr (.inr (by simp [hn, hmeta]))

end Calls

section Runs
variable {K : Type*} [Scoring K] {es es₁ es₂ : List (Step K)} {arena : MemoryArena (Vec K)}
  {τ : Step K} {n : ℕ}

/-- A step that uses the node leaves it hot; any other step that leaves it ready has
found it ready and made it cold only by a rescue. -/
theorem Fires.use (h : Fires τ.before τ.act τ.after) (n : ℕ) :
    (Uses n τ ∧ (τ.after.metadata n).loadControl.refBit = .hot) ∨
    (¬ Uses n τ ∧ (τ.after.stateOf n = .ready → τ.before.stateOf n = .ready ∧
      (Rescues n τ ∨ τ.after.metadata n = τ.before.metadata n))) := by
  obtain ⟨before,act,after⟩ := τ
  simp only at h
  rcases fires_cases h with ⟨prompt,embedding,t,result,rfl,hc⟩ |
    ⟨nodeId,payload,result,rfl,hc⟩ | ⟨rfl,hc⟩
  · rcases checkCache_cases hc with ⟨⟨status,rfl⟩,rfl⟩ | ⟨query,rfl,-,ho⟩
    · refine .inr ⟨?_,fun hready => ⟨hready,.inr rfl⟩⟩
      rintro (⟨_,hpub⟩ | ⟨_,_,_,_,_,hact,-⟩)
      · cases hpub
      · cases hact
    rcases ho.use n with ⟨answer,rfl,hbest,hhot⟩ | ⟨hother,hkeep⟩
    · refine .inl ⟨.inr ⟨answer,prompt,query,t,_,rfl,rfl,rfl,?_⟩,hhot⟩
      simp only
      exact hbest
    · refine .inr ⟨?_,fun hready => ?_⟩
      · rintro (⟨_,hpub⟩ | ⟨_,_,query',t',response,hact,hhit,-,hbest⟩)
        · cases hpub
        · simp only at hbest
          simp only [Prod.mk.injEq, Call.checkCache.injEq, Except.ok.injEq,
            Reply.checked.injEq] at hact
          obtain ⟨⟨-,rfl,rfl⟩,hreply⟩ := hact
          exact hother response hreply hhit hbest
      · have hsame := hkeep hready
        exact ⟨(stateOf_eq_of_metadata hsame).symm.trans hready,.inr hsame⟩
  · rcases setCache_use hc n with ⟨rfl,rfl,hhot⟩ | ⟨hother,hsame⟩
    · exact .inl ⟨.inl ⟨payload,rfl⟩,hhot⟩
    · refine .inr ⟨?_,fun hready =>
        ⟨(stateOf_eq_of_metadata hsame).symm.trans hready,.inr hsame⟩⟩
      rintro (⟨_,hpub⟩ | ⟨_,_,_,_,_,hact,-⟩)
      · cases result with
        | error status => cases hpub
        | ok success =>
          cases success with
          | false => cases hpub
          | true => exact hother rfl (congrArg Prod.fst (Option.some.inj hpub))
      · cases hact
  · refine .inr ⟨?_,fun hready => ?_⟩
    · rintro (⟨_,hpub⟩ | ⟨_,_,_,_,_,hact,-⟩)
      · cases hpub
      · cases hact
    · rcases collect_use hc n with ⟨hdue,hstate⟩ | ⟨-,hdead⟩ | hsame
      · exact ⟨hstate.symm.trans hready,.inl ⟨rfl,hdue⟩⟩
      · rw [hready] at hdead
        cases hdead
      · exact ⟨(stateOf_eq_of_metadata hsame).symm.trans hready,.inr hsame⟩

/-- A ready node has been used, and since then rescued if it is cold. -/
theorem ready_used (hrun : EngineRun es arena) (hready : arena.stateOf n = .ready) :
    ∃ since, SinceLast (Uses n) es since ∧
      ((arena.metadata n).loadControl.refBit = .cold → Happened (Rescues n) since) := by
  induction hrun with
  | nil =>
    rw [MemoryArena.stateOf, freshArena_state] at hready
    cases hready
  | @snoc before after es act run fire ih =>
    rcases Fires.use (τ := ⟨before,act,after⟩) fire n with ⟨huse,hhot⟩ | ⟨huse,hkept⟩
    · refine ⟨[],sinceLast_last es huse,fun hcold => ?_⟩
      rw [hhot] at hcold
      cases hcold
    · obtain ⟨hbefore,hcause⟩ := hkept hready
      obtain ⟨since,hlast,hcold⟩ := ih hbefore
      refine ⟨_,hlast.snoc huse,fun hnow => ?_⟩
      rcases hcause with hrescue | hsame
      · exact happened_last since hrescue
      · exact (hcold (by rw [← hsame]; exact hnow)).mono _

/-- Whenever the collector frees a ready node it has rescued its record since the
node was last published or hit. Every use before has been followed by a rescue, so
an entry survives the pass that comes next after its use. -/
theorem second_chance (hrun : EngineRun (es₁ ++ τ :: es₂) arena) (hevict : Evicts n τ) :
    (∃ since, SinceLast (Uses n) es₁ since ∧ Happened (Rescues n) since) ∧
    ∀ before use after, es₁ = before ++ use :: after → Uses n use →
      Happened (Rescues n) after := by
  obtain ⟨hbefore,hfire,-⟩ := Run.split_at hrun
  obtain ⟨hact,hready,hdead⟩ := hevict
  obtain ⟨since,hlast,hcold⟩ := ready_used hbefore hready
  rw [hact, fires_collect] at hfire
  have hrescued : Happened (Rescues n) since := by
    rcases collect_use hfire n with ⟨-,hstate⟩ | ⟨hbit,-⟩ | hsame
    · rw [hstate, hready] at hdead
      cases hdead
    · exact hcold hbit
    · rw [stateOf_eq_of_metadata hsame, hready] at hdead
      cases hdead
  exact ⟨⟨since,hlast,hrescued⟩,fun _ _ _ hsplit huse =>
    hrescued.of_suffix (hlast.suffix huse hsplit)⟩

end Runs

section Replay
variable {V : Type*} {arena : MemoryArena V} {T H : ℕ} {e : Entry PayloadRecord}
  {log : List (Entry PayloadRecord)}

theorem LiveRing.pass_evict (hring : LiveRing arena T (e :: log) H) (hpast : T + 2 ^ 31 ≤ H)
    (hfront : e.offset = T)
    (hcurrent : MemoryArena.stale (arena.metadata e.item.nodeId).loadControl arena.readTail = false)
    (hcold : (arena.metadata e.item.nodeId).loadControl.refBit = .cold) :
    ∃ arena', arena.runGarbageCollectorPass = .ok arena' ∧
      arena'.stateOf e.item.nodeId = .dead := by
  have hpass := hring.pass
  generalize arena.runGarbageCollectorPass = out at hpass
  cases hpass with
  | evict => exact ⟨_,rfl,by simp [MemoryArena.stateOf, MetaNode.loadControl]⟩
  | asleep low => omega
  | leap _ gap => omega
  | skip _ _ old => simp [hcurrent] at old
  | exhausted _ _ _ hot => simp [hcold] at hot
  | rescue _ _ _ hot => simp [hcold] at hot

theorem exists_evicted {K : Type*} [Field K] [LinearOrder K] [IsStrictOrderedRing K]
    (query : Vec K) : ∃ (es : List (Step K)) (τ : Step K), EngineRun (es ++ [τ]) τ.after ∧
      (∀ σ ∈ es ++ [τ], σ.act.1 = .collect → ∀ n, σ.before.stateOf n ≠ .pending) ∧
      Evicts 0 τ ∧ Happened (Rescues 0) es := by
  obtain ⟨es,arena,e,log,hrun,-,hcalm,hoff,hid,-,hother,hnode,-,hring⟩ := exists_cold query
  obtain ⟨evicted,hevict,hdead⟩ := hring.pass_evict le_rfl hoff
    (by rw [hid, hnode, hring.tail]; decide) (by rw [hid, hnode]; decide)
  rw [hid] at hdead
  have hready : arena.stateOf 0 = .ready := by
    rw [MemoryArena.stateOf, hnode]
    decide
  obtain ⟨since,⟨before,use,hes,-⟩,hrescued⟩ := ready_used hrun hready
  refine ⟨es,⟨arena,(.collect,.collected),evicted⟩,hrun.snoc (fires_collect.mpr hevict),?_,
    ⟨rfl,hready,hdead⟩,(hrescued (by rw [hnode]; decide)).of_suffix ⟨before ++ [use],by simp [hes]⟩⟩
  rw [List.forall_mem_append, List.forall_mem_singleton]
  refine ⟨hcalm,fun _ n => ?_⟩
  by_cases hn : n = 0
  · rw [hn, hready]
    decide
  · rw [MemoryArena.stateOf, hother n hn]
    decide

theorem second_chance_replay : ∃ (es : List (Step ℚ)) (τ : Step ℚ), EngineRun (es ++ [τ]) τ.after ∧
    Evicts 0 τ ∧ ∃ since, SinceLast (Uses 0) es since ∧ Happened (Rescues 0) since := by
  obtain ⟨es,τ,hrun,-,hevicts,-⟩ := exists_evicted (axis 0 : Vec ℚ)
  exact ⟨es,τ,hrun,hevicts,(second_chance hrun hevicts).1⟩

end Replay

end Strix
