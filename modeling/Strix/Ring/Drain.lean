import Strix.Ring.Exhaustion

/-! # Draining the ring

Left alone, the collector empties the ring down to its watermark. A rescue frees
nothing and may even add padding, but it turns its node cold, so the number of
hot nodes and then the used bytes decrease along the passes.
-/
namespace Strix
open ByteRing FramedLog RunHistory

section Rank
variable {V : Type*}

def hotNodes (arena : MemoryArena V) : Finset ℕ :=
  (Finset.range totalMaxSlots).filter fun i => (arena.metadata i).loadControl.refBit = .hot

/-- Hot nodes first, then used bytes, which never exceed the ring. -/
def rank (arena : MemoryArena V) : ℕ :=
  (hotNodes arena).card * (2 ^ 32 + 1) + (arena.writeHead - arena.readTail).toNat

variable {arena arena' : MemoryArena V} {T H : ℕ} {log : List (Entry PayloadRecord)}

theorem rank_lt_of_used {T' H' : ℕ} {log' : List (Entry PayloadRecord)}
    (hring : LiveRing arena T log H) (hring' : LiveRing arena' T' log' H')
    (hhot : ∀ i, (arena'.metadata i).loadControl.refBit = (arena.metadata i).loadControl.refBit)
    (hused : H' - T' < H - T) : rank arena' < rank arena := by
  have hsame : hotNodes arena' = hotNodes arena := by simp only [hotNodes, hhot]
  rw [rank, rank, hsame, hring.used_toNat, hring'.used_toNat]
  omega

theorem rank_lt_of_cold {T' H' n : ℕ} {log' : List (Entry PayloadRecord)}
    (hring' : LiveRing arena' T' log' H') (hn : n < totalMaxSlots)
    (hot : (arena.metadata n).loadControl.refBit = .hot)
    (cold : (arena'.metadata n).loadControl.refBit = .cold)
    (hother : ∀ i, i ≠ n → arena'.metadata i = arena.metadata i) : rank arena' < rank arena := by
  have hcard : (hotNodes arena').card < (hotNodes arena).card := by
    refine Finset.card_lt_card ((Finset.ssubset_iff_of_subset fun i hi => ?_).mpr ⟨n,?_,?_⟩)
    · rw [hotNodes, Finset.mem_filter] at hi ⊢
      by_cases hin : i = n
      · rw [hin, cold] at hi
        simp at hi
      · rwa [hother i hin] at hi
    · rw [hotNodes, Finset.mem_filter]
      exact ⟨Finset.mem_range.mpr hn,hot⟩
    · rw [hotNodes, Finset.mem_filter, cold]
      simp
  have hroom := hring'.room
  rw [rank, rank, hring'.used_toNat]
  omega

theorem LiveRing.pass_asleep (h : LiveRing arena T log H) (hlow : H < T + 2 ^ 31) :
    arena.runGarbageCollectorPass = .ok arena := by
  have hpass := h.pass
  generalize hout : arena.runGarbageCollectorPass = out at hpass
  cases hpass with
  | asleep => rfl
  | _ => omega

theorem PassOutcome.rank_lt (h : PassOutcome arena T H log (.ok arena'))
    (hring : LiveRing arena T log H) (hpast : T + 2 ^ 31 ≤ H) : rank arena' < rank arena := by
  generalize hout : (.ok arena' : Except Fault (MemoryArena V)) = out at h
  cases h with
  | asleep low => omega
  | leap past gap =>
    obtain rfl := Except.ok.inj hout
    exact rank_lt_of_used hring hring.leap (fun i => rfl) (by omega)
  | @skip e log past front old =>
    obtain rfl := Except.ok.inj hout
    have hpos := e.item.encode_pos
    exact rank_lt_of_used hring (hring.drop front) (fun i => rfl) (by omega)
  | @evict e log past front current cold =>
    obtain rfl := Except.ok.inj hout
    have hpos := e.item.encode_pos
    refine rank_lt_of_used hring ((hring.drop front).congr rfl rfl rfl) (fun i => ?_) (by omega)
    by_cases hi : i = e.item.nodeId
    · subst hi
      simp [MetaNode.loadControl]
    · simp [hi]
  | exhausted => simp at hout
  | @rescue e log buf past front current hot room written =>
    obtain rfl := Except.ok.inj hout
    obtain ⟨hplace,hgap⟩ := place_bounds H
    have hsize := e.item.encode_length
    have hring' := (hring.drop front).append (r := e.item) (by exact written) (by omega)
    refine rank_lt_of_cold (hring'.congr rfl rfl rfl) e.item.nodeId_lt hot ?_ fun i hi => ?_
    · simp [MetaNode.loadControl]
    · simp [hi]

end Rank

section Ages
variable {V : Type*} {arena arena' : MemoryArena V} {T H : ℕ} {log : List (Entry PayloadRecord)}

/-- What passes of the collector do to a node: it is freed, or its state and the
length of its payload stay. -/
def MetaNode.Ages (old new : MetaNode) : Prop :=
  new.loadControl.state = .dead ∨ (new.loadControl.state = old.loadControl.state ∧
    new.loadControl.length = old.loadControl.length)

theorem MetaNode.Ages.refl (node : MetaNode) : node.Ages node := .inr ⟨rfl,rfl⟩

theorem MetaNode.Ages.trans {a b c : MetaNode} (h : a.Ages b) (k : b.Ages c) : a.Ages c := by
  rcases k with k | ⟨hs,hl⟩
  · exact .inl k
  · rcases h with h | ⟨hs',hl'⟩
    · exact .inl (hs.trans h)
    · exact .inr ⟨hs.trans hs',hl.trans hl'⟩

theorem PassOutcome.ages (h : PassOutcome arena T H log (.ok arena')) (i : ℕ) :
    (arena.metadata i).Ages (arena'.metadata i) := by
  generalize hout : (.ok arena' : Except Fault (MemoryArena V)) = out at h
  cases h with
  | asleep | leap | skip =>
    obtain rfl := Except.ok.inj hout
    exact .refl _
  | @evict e log past front current cold =>
    obtain rfl := Except.ok.inj hout
    by_cases hi : i = e.item.nodeId
    · subst hi
      exact .inl (by simp [MetaNode.loadControl])
    · simp only [MemoryArena.advanceReadTail_metadata, ne_eq, hi, not_false_eq_true,
        MemoryArena.storeCreatedAt_of_ne, MemoryArena.storeControl_of_ne]
      exact .refl _
  | exhausted => simp at hout
  | @rescue e log buf past front current hot room written =>
    obtain rfl := Except.ok.inj hout
    by_cases hi : i = e.item.nodeId
    · subst hi
      exact .inr (by simp [MetaNode.loadControl])
    · simp only [MemoryArena.advanceReadTail_metadata, ne_eq, hi, not_false_eq_true,
        MemoryArena.storeControl_of_ne]
      exact .refl _

end Ages

section Drain
variable {K : Type*} [Scoring K] {arena : MemoryArena (Vec K)} {T H : ℕ}
  {log : List (Entry PayloadRecord)} {content : ℕ → Option (List UInt8)}

/-- The next pass throws, or its rescue overruns the ring. -/
def Blocked (arena : MemoryArena (Vec K)) : Prop :=
  ∀ arena', arena.runGarbageCollectorPass = .ok arena' →
    ¬ Bounded (⟨arena,(.collect,.collected),arena'⟩ : Step K)

/-- Completed passes alone lead to an arena at which the collector has nothing
left to do or is blocked. -/
structure Drained (arena : MemoryArena (Vec K)) (content : ℕ → Option (List UInt8))
    (fs : List (Step K)) (arena' : MemoryArena (Vec K)) (T' H' : ℕ)
    (log' : List (Entry PayloadRecord)) : Prop where
  run : Run Fires arena fs arena'
  passes : ∀ τ ∈ fs, τ.act = (.collect, .collected) ∧ Bounded τ
  ring : LiveRing arena' T' log' H'
  served : Served arena'.metadata log' content
  ages : ∀ i, (arena.metadata i).Ages (arena'.metadata i)
  done : H' < T' + 2 ^ 31 ∨ Blocked arena'

/-- Left alone, the collector comes below its watermark unless a pass is blocked. -/
theorem LiveRing.exists_drained (hring : LiveRing arena T log H)
    (hserved : Served arena.metadata log content) :
    ∃ fs arena' T' H' log', Drained arena content fs arena' T' H' log' := by
  induction hm : rank arena using Nat.strong_induction_on generalizing arena T H log with
  | h m ih =>
    by_cases hdone : H < T + 2 ^ 31 ∨ Blocked arena
    · exact ⟨[],arena,T,H,log,.nil _,by simp,hring,hserved,fun i => .refl _,hdone⟩
    rw [not_or] at hdone
    obtain ⟨hpast,hfree⟩ := hdone
    simp only [Blocked, not_forall, not_not] at hfree
    obtain ⟨next,hpass,hb⟩ := hfree
    have hout := hring.pass
    rw [hpass] at hout
    obtain ⟨T₁,log₁,H₁,hring₁,hserved₁,-⟩ := hout.preserves hring hserved
    have hlt := hout.rank_lt hring (by omega)
    obtain ⟨fs,arena',T',H',log',hdrained⟩ := ih _ (hm ▸ hlt) hring₁ hserved₁ rfl
    refine ⟨_,arena',T',H',log',hdrained.run.cons (fires_collect.mpr hpass),?_,hdrained.ring,
      hdrained.served,fun i => (hout.ages i).trans (hdrained.ages i),hdrained.done⟩
    rw [List.forall_mem_cons]
    exact ⟨⟨rfl,hb⟩,hdrained.passes⟩

end Drain

section Termination
variable {K : Type*} [Scoring K] {es fs : List (Step K)} {arena arena' : MemoryArena (Vec K)}
  {T H : ℕ} {log : List (Entry PayloadRecord)} {content : ℕ → Option (List UInt8)}

/-- Passes keep the ring, and each one above the watermark takes its part of the rank. -/
theorem LiveRing.drains (hring : LiveRing arena T log H)
    (hserved : Served arena.metadata log content) (hrun : Run Fires arena fs arena')
    (hpasses : ∀ τ ∈ fs, τ.act = (.collect, .collected)) :
    ∃ T' H' log', LiveRing arena' T' log' H' ∧ Served arena'.metadata log' content ∧
      (H' < T' + 2 ^ 31 ∨ rank arena' + fs.length ≤ rank arena) := by
  refine hrun.historyInvariant (I := fun fs u => ∃ T' H' log', LiveRing u T' log' H' ∧
      Served u.metadata log' content ∧ (H' < T' + 2 ^ 31 ∨ rank u + fs.length ≤ rank arena))
    (P := fun τ => τ.act = (.collect, .collected)) ?_ hpasses
    ⟨T,H,log,hring,hserved,.inr (by simp)⟩
  rintro fs ⟨before,act,after⟩ hfire hact ⟨T₁,H₁,log₁,hring₁,hserved₁,hdone⟩
  simp only at hact hfire hring₁ hserved₁ hdone
  subst hact
  have hout := hring₁.pass
  rw [fires_collect.mp hfire] at hout
  by_cases hlow : H₁ < T₁ + 2 ^ 31
  · -- below the watermark the collector sleeps
    have hsleep := hring₁.pass_asleep hlow
    rw [fires_collect.mp hfire] at hsleep
    obtain rfl := Except.ok.inj hsleep
    exact ⟨T₁,H₁,log₁,hring₁,hserved₁,.inl hlow⟩
  · have hrank := hdone.resolve_left hlow
    have hlt := hout.rank_lt hring₁ (by omega)
    obtain ⟨T₂,log₂,H₂,hring₂,hserved₂,-⟩ := hout.preserves hring₁ hserved₁
    refine ⟨T₂,H₂,log₂,hring₂,hserved₂,.inr ?_⟩
    simp only [List.length_append, List.length_singleton]
    omega

theorem LiveRing.exists_passes (hring : LiveRing arena T log H)
    (hserved : Served arena.metadata log content) (n : ℕ) :
    ∃ fs arena', Run Fires arena fs arena' ∧ (∀ τ ∈ fs, τ.act = (.collect, .collected)) ∧
      (fs.length = n ∨ ¬ RescueFits arena') := by
  induction n with
  | zero => exact ⟨[],arena,.nil _,by simp,.inl rfl⟩
  | succ n ih =>
    obtain ⟨fs,arena',hrun,hpasses,hlength | hfull⟩ := ih
    swap
    · exact ⟨fs,arena',hrun,hpasses,.inr hfull⟩
    by_cases hfits : RescueFits arena'
    swap
    · exact ⟨fs,arena',hrun,hpasses,.inr hfits⟩
    obtain ⟨T',H',log',hring',-,-⟩ := hring.drains hserved hrun hpasses
    obtain ⟨next,hpass⟩ := pass_completes_iff.mpr ⟨hring'.nodeInRange,hfits⟩
    refine ⟨_,next,hrun.snoc (fires_collect.mpr hpass),?_,.inl (by simp [hlength])⟩
    rw [List.forall_mem_append, List.forall_mem_singleton]
    exact ⟨hpasses,rfl⟩

/-- From a reachable arena whose ring has not been overrun, the collector alone
comes below its watermark within as many passes as the rank counts, and it gets
through that many passes unless a rescue that is due does not pass the back-pressure
test. No pass has to be bounded: what a rescue pushes over the limit it takes back with
the record it passes. -/
theorem collector_drains (hrun : EngineRun es arena) (hb : ∀ τ ∈ es, Bounded τ) :
    (∀ fs arena', Run Fires arena fs arena' → (∀ τ ∈ fs, τ.act = (.collect, .collected)) →
      rank arena ≤ fs.length → arena'.writeHead - arena'.readTail < lowWatermarkThreshold) ∧
    ∃ fs arena', Run Fires arena fs arena' ∧ (∀ τ ∈ fs, τ.act = (.collect, .collected)) ∧
      (rank arena ≤ fs.length ∨ ¬ RescueFits arena') := by
  obtain ⟨log,hintact⟩ := EngineRun.intact hrun hb
  refine ⟨fun fs arena' hpasses hcollect hlong => ?_,?_⟩
  · obtain ⟨T',H',log',hring',-,hdone⟩ :=
      hintact.ring.drains hintact.served hpasses hcollect
    rw [UInt64.lt_iff_toNat_lt, hring'.used_toNat, lowWatermarkThreshold_toNat]
    rcases hdone with hlow | hrank
    · omega
    · -- the rank is used up, and it counts the used bytes
      have hused := hring'.used_toNat
      have hle : (arena'.writeHead - arena'.readTail).toNat ≤ rank arena' := Nat.le_add_left ..
      omega
  · obtain ⟨fs,arena',hpasses,hcollect,hlength | hfull⟩ :=
      hintact.ring.exists_passes hintact.served (rank arena)
    · exact ⟨fs,arena',hpasses,hcollect,.inl hlength.ge⟩
    · exact ⟨fs,arena',hpasses,hcollect,.inr hfull⟩

/-- An answer and unused records fill half the ring, and the collector drains it. -/
theorem collector_drains_replay : ∃ (es : List (Step ℚ)) (arena : MemoryArena (Vec ℚ)),
    EngineRun es arena ∧ arena.writeHead - arena.readTail = lowWatermarkThreshold ∧
      ∃ fs arena', Run Fires arena fs arena' ∧ (∀ τ ∈ fs, τ.act = (.collect, .collected)) ∧
        (arena'.writeHead - arena'.readTail < lowWatermarkThreshold ∨ ¬ RescueFits arena') := by
  have hw := oneByte_wellFormed
  have hsize : hw.record.encode.length = 13 := hw.record.encode_length
  obtain ⟨es,stored,hrun,hb,hother,-,-,hring,-⟩ := exists_published (axis 0 : Vec ℚ) 1 hw
  rw [hsize] at hring
  obtain ⟨fs,full,unused,hfill,hfs,-,-,-,hring'⟩ :=
    exists_fill (n := 1) (d := 2 ^ 31 - 13) (by decide) hring (by rw [hother 1 (by decide)]; decide)
      (by omega) (by omega) (by omega)
  have hall : ∀ τ ∈ es ++ fs, Bounded τ := by
    rw [List.forall_mem_append]
    exact ⟨hb,fun τ hτ => (hfs τ hτ).1⟩
  obtain ⟨hlow,gs,drained,hpasses,hcollect,hdone⟩ := collector_drains (hrun.append hfill) hall
  refine ⟨_,full,hrun.append hfill,?_,gs,drained,hpasses,hcollect,
    hdone.imp_left (hlow gs drained hpasses hcollect)⟩
  apply UInt64.toNat_inj.mp
  rw [hring'.used_toNat, lowWatermarkThreshold_toNat]
  omega

end Termination

end Strix
