import Strix.Ring.Drain
import Strix.Semantic.ReadWrite

/-! # A table whose slots are all filled

Slots are freed only by the collector, and the collector works only while the
ring is past its watermark. A table full of short answers therefore stays full,
and a table whose answers take up that much of the ring does not.
-/
namespace Strix
open ByteRing FramedLog RunHistory Scoring

section Release
variable {K : Type*} [Scoring K] {es : List (Step K)} {arena : MemoryArena (Vec K)} {T H : ℕ}
  {log : List (Entry PayloadRecord)} {content : ℕ → Option (List UInt8)}

def FullTable {V : Type*} (arena : MemoryArena V) : Prop :=
  ∀ n < l0MaxSlots, (arena.metadata n).loadControl.state = .ready

/-- The bytes of the records that the slots designate. -/
def tableBytes {V : Type*} (arena : MemoryArena V) : ℕ :=
  ∑ n ∈ Finset.range l0MaxSlots, (12 + (arena.metadata n).loadControl.length.toNat)

omit [Scoring K] in
/-- The records of a full table are distinct records of the live region. -/
theorem LiveRing.tableBytes_le (hring : LiveRing arena T log H)
    (hserved : Served arena.metadata log content) (hfull : FullTable arena) :
    T + tableBytes arena ≤ H := by
  have hsum := hring.holds.laid.sum_le
  have hkeyed : tableBytes arena ≤ (log.map fun e => e.item.encode.length).sum := by
    refine sum_le_of_keyed (fun e => e.item.nodeId) _ _ fun n hn => ?_
    obtain ⟨e,he,hid,hserves,-⟩ := hserved.ready n (hfull n (Finset.mem_range.mp hn))
    exact ⟨e,he,hid,by rw [hserves.2, e.item.encode_length]⟩
  omega

theorem exists_answer_of_dead {n : ℕ} (hn : n < l0MaxSlots)
    (hdead : (arena.metadata n).loadControl.state = .dead) {prompt : List UInt8}
    (hprompt : prompt ≠ []) (query : Vec K) (t : UInt64) : ∃ response arena',
      Fires arena (.checkCache prompt (.ok query) t, .checked (.ok response)) arena' := by
  obtain ⟨reply,arena',ho⟩ := exists_checkOutcome query t arena
  have hfire := fires_checkCache.mpr (ho.checkCache_eq hprompt)
  cases ho with
  | hit | pending | miss => exact ⟨_,_,hfire⟩
  | full below free =>
    have hnone := List.find?_eq_none.mp free n (List.mem_range.mpr hn)
    exact absurd (MetaNode.reusable_eq_true.mpr (.inl hdead)) hnone

/-- Left alone after the table has filled up, the collector frees a slot, or stops
below its watermark with the records of the full table still in the ring, or is
blocked. -/
theorem fullTable_released (hrun : EngineRun es arena) (hb : ∀ τ ∈ es, Bounded τ)
    (hfull : FullTable arena) : ∃ (fs : List (Step K)) (arena' : MemoryArena (Vec K)),
      Run Fires arena fs arena' ∧ (∀ τ ∈ fs, τ.act = (.collect, .collected) ∧ Bounded τ) ∧
      (((∃ n < l0MaxSlots, (arena'.metadata n).loadControl.state = .dead) ∧
          ∀ prompt query t, prompt ≠ [] → ∃ response arena'',
            Fires arena' (.checkCache prompt (.ok query) t, .checked (.ok response)) arena'') ∨
        (tableBytes arena ≤ (arena'.writeHead - arena'.readTail).toNat ∧
          arena'.writeHead - arena'.readTail < lowWatermarkThreshold) ∨
        Blocked arena') := by
  obtain ⟨log,hintact⟩ := EngineRun.intact hrun hb
  obtain ⟨fs,arena',T',H',log',hdrained⟩ := hintact.ring.exists_drained hintact.served
  refine ⟨fs,arena',hdrained.run,hdrained.passes,?_⟩
  rcases hdrained.done with hlow | hblocked
  swap
  · exact .inr (.inr hblocked)
  by_cases hfull' : FullTable arena'
  · have hsame : tableBytes arena = tableBytes arena' := by
      refine Finset.sum_congr rfl fun n hn => ?_
      rcases hdrained.ages n with hdead | ⟨-,hlength⟩
      · simp [hfull' n (Finset.mem_range.mp hn)] at hdead
      · rw [hlength]
    have hbytes := hdrained.ring.tableBytes_le hdrained.served hfull'
    refine .inr (.inl ?_)
    rw [UInt64.lt_iff_toNat_lt, hdrained.ring.used_toNat, lowWatermarkThreshold_toNat, hsame]
    omega
  · simp only [FullTable, not_forall] at hfull'
    obtain ⟨n,hn,hstate⟩ := hfull'
    have hdead : (arena'.metadata n).loadControl.state = .dead := by
      rcases hdrained.ages n with hdead | ⟨hkept,-⟩
      · exact hdead
      · exact absurd (hkept.trans (hfull n hn)) hstate
    exact .inl ⟨⟨n,hn,hdead⟩,fun prompt query t hprompt =>
      exists_answer_of_dead hn hdead hprompt query t⟩

end Release

section Spread
variable {K : Type*} [Field K] [LinearOrder K] [IsStrictOrderedRing K]

def corner : Fin 8 → ℤ × ℤ :=
  ![(5, 0), (0, 5), (-5, 0), (0, -5), (3, 4), (-3, 4), (-3, -4), (3, -4)]

theorem corner_norm (i : Fin 8) : (corner i).1 * (corner i).1 + (corner i).2 * (corner i).2 = 25 := by
  decide +revert

theorem corner_le {i j : Fin 8} (h : i ≠ j) :
    (corner i).1 * (corner j).1 + (corner i).2 * (corner j).2 ≤ 20 := by
  decide +revert

def planar (p : Fin 192) (c : ℤ × ℤ) : Vec K :=
  Pi.single ⟨2 * p.val,by have := p.isLt; unfold vectorDim; omega⟩ ((c.1 : K) / 5) +
    Pi.single ⟨2 * p.val + 1,by have := p.isLt; unfold vectorDim; omega⟩ ((c.2 : K) / 5)

theorem planar_score (p q : Fin 192) (c d : ℤ × ℤ) :
    cosineSimilarity (planar p c : Vec K) (planar q d) =
      if p = q then ((c.1 * d.1 + c.2 * d.2 : ℤ) : K) / 25 else 0 := by
  have hne : 2 * p.val ≠ 2 * q.val + 1 := by omega
  have hne' : 2 * p.val + 1 ≠ 2 * q.val := by omega
  rw [cosineSimilarity_eq_dotProduct, planar, planar, add_dotProduct, single_dotProduct,
    single_dotProduct]
  by_cases hpq : p = q
  · subst hpq
    simp only [Pi.add_apply, Pi.single_apply, Fin.mk.injEq, hne, hne', if_true, if_false]
    push_cast
    ring
  · have hval : p.val ≠ q.val := fun h => hpq (Fin.ext h)
    simp [hne, hne', hval, hpq]

/-- Queries of unit length, the first 1536 of them pairwise dissimilar. -/
def spread (k : ℕ) : Vec K := planar (Fin.ofNat 192 (k / 8)) (corner (Fin.ofNat 8 k))

theorem spread_normalized (k : ℕ) : Normalized (spread k : Vec K) := by
  rw [Normalized, spread, planar_score, if_pos rfl, corner_norm]
  norm_num

theorem spread_not_similar {k l : ℕ} (hk : k < 1536) (hl : l < 1536) (hne : k ≠ l) :
    ¬ Similar (spread k : Vec K) (spread l) := by
  rw [not_similar_iff, spread, spread, planar_score]
  split
  · next hplane =>
    have hcorner : Fin.ofNat 8 k ≠ Fin.ofNat 8 l := by
      intro h
      have hmod : k % 8 = l % 8 := congrArg Fin.val h
      have hdiv : k / 8 % 192 = l / 8 % 192 := congrArg Fin.val hplane
      omega
    have hle := Int.cast_le (R := K) |>.mpr (corner_le hcorner)
    rw [exactThreshold]
    push_cast at hle ⊢
    linarith
  · exact exactThreshold_pos

end Spread

section Replay
variable {K : Type*} [Field K] [LinearOrder K] [IsStrictOrderedRing K]

/-- Slots are filled one after the other, each with a record of `d` bytes. -/
theorem exists_filled {d k : ℕ} (hmin : 13 ≤ d) (hmax : d ≤ 2 ^ 22) (hk : k ≤ l0MaxSlots) :
    ∃ (es : List (Step K)) (arena : MemoryArena (Vec K)) (log : List (Entry PayloadRecord)),
      EngineRun es arena ∧ (∀ τ ∈ es, Bounded τ) ∧
      (∀ i < k, (arena.metadata i).loadControl.state = .ready ∧
        12 + (arena.metadata i).loadControl.length.toNat = d ∧ arena.vectors i = spread i) ∧
      (∀ i, k ≤ i → arena.metadata i = ⟨0,0⟩) ∧ LiveRing arena 0 log (d * k) := by
  induction k with
  | zero =>
    exact ⟨[],freshArena K,[],.nil _,by simp,by simp,fun _ _ => rfl,liveRing_initial _⟩
  | succ k ih =>
    obtain ⟨es,arena,log,hrun,hb,hready,hrest,hring⟩ := ih (by omega)
    have hslots : k < 1000 := hk
    have hdead : ∀ i, k ≤ i → (arena.metadata i).loadControl.state = .dead := by
      intro i hi
      rw [hrest i hi]
      decide
    obtain ⟨claimed,hmiss,hclaim,hbuf,hhead,htail⟩ := exists_miss (n := k) (spread k : Vec K) 1
      (by omega) (MetaNode.reusable_eq_true.mpr (.inl (hdead k le_rfl)))
      (fun i hi => MetaNode.not_reusable_of_ready (hready i hi).1) (by
        intro i hi hm
        by_cases hik : i < k
        · rw [(hready i hik).2.2]
          exact spread_not_similar (by omega) (by omega) (by omega)
        · rw [MetaNode.not_matchable_of_dead (hdead i (by omega))] at hm
          simp at hm)
    have hwire : wireNode k = k := wireNode_natCast (l0_lt_total hk)
    have hw := wellFormedSet_replicate (l0_lt_total hk) (show 0 < d - 12 by omega) (by omega)
    have hsize : hw.record.encode.length = d := filler_encode_length (by omega) hw
    have hroom : d * k ≤ 2 ^ 22 * 999 := Nat.mul_le_mul hmax (by omega)
    have hplace : place (2 ^ 32) 12 (d * k) = d * k := place_of_fits (by
      rw [Nat.mod_eq_of_lt (by omega)]
      omega)
    obtain ⟨stored,hset,hmeta,hvec,hring'⟩ := (hring.congr hbuf hhead htail).publish hw (by omega)
      (by omega) (by rw [hwire, hclaim.node]; simp [MetaNode.loadControl])
    rw [hwire] at hmeta
    rw [hplace, hsize, ← Nat.mul_succ] at hring'
    have hkept : ∀ i, i ≠ k → stored.metadata i = arena.metadata i := by
      intro i hi
      rw [hmeta, Function.update_of_ne hi, hclaim.others i hi, expireSlots_of_not]
      by_cases hik : i < k
      · rw [← Bool.not_eq_true, MetaNode.expired_eq_true]
        simp [(hready i hik).1]
      · exact MetaNode.not_expired_of_dead (hdead i (by omega))
    refine ⟨_,stored,_,(hrun.snoc hmiss).snoc (fires_setCache.mpr hset),?_,fun i hi => ?_,
      fun i hi => ?_,hring'⟩
    · simp only [List.forall_mem_append, List.forall_mem_singleton]
      exact ⟨⟨hb,bounded_of_head_eq hhead.symm⟩,
        bounded_of_ring hring' (by rw [hring'.tail, htail, hring.tail])⟩
    · by_cases hik : i = k
      · subst hik
        rw [hmeta, Function.update_self, hvec, hclaim.vectors, Function.update_self]
        refine ⟨by simp [MetaNode.loadControl],?_,rfl⟩
        rw [MetaNode.loadControl, unpackControl_packControl_length, and_maxPayloadLength_toNat,
          UInt32.toNat_ofNat', List.length_replicate]
        omega
      · rw [hkept i hik, hvec, hclaim.vectors, Function.update_of_ne hik]
        exact hready i (by omega)
    · rw [hkept i (by omega)]
      exact hrest i (by omega)

/-- A thousand answers of one byte keep the ring below the watermark: no pass
touches them, and the next query is turned away. -/
theorem fullTable_stays : ∃ (es : List (Step ℚ)) (arena : MemoryArena (Vec ℚ)),
    EngineRun es arena ∧ (∀ τ ∈ es, Bounded τ) ∧ FullTable arena ∧
      (∀ (fs : List (Step ℚ)) (arena' : MemoryArena (Vec ℚ)), Run Fires arena fs arena' →
        (∀ τ ∈ fs, τ.act = (.collect, .collected)) → FullTable arena') ∧
      ∃ query : Vec ℚ, Normalized query ∧
        (∀ n < l0MaxSlots, ¬ Similar query (arena.vectors n)) ∧
        Fires arena (.checkCache [1] (.ok query) 1,
          .checked (.error ⟨.internal,"Encounter error: " ++ "High traffic"⟩)) arena := by
  obtain ⟨es,arena,log,hrun,hb,hready,-,hring⟩ := exists_filled (K := ℚ) (d := 13)
    le_rfl (by decide) (le_refl l0MaxSlots)
  have hfull : FullTable arena := fun n hn => (hready n hn).1
  have hasleep : arena.runGarbageCollectorPass = .ok arena := by
    rcases hring.sight_cases with ⟨-,hs⟩ | ⟨hpast,-⟩
    · simp only [MemoryArena.runGarbageCollectorPass, hs]
    · have : l0MaxSlots = 1000 := rfl
      omega
  have hother : ∀ n < l0MaxSlots, ¬ Similar (spread 1000) (arena.vectors n) := by
    intro n hn
    have hlt : n < 1000 := hn
    rw [(hready n hn).2.2]
    exact spread_not_similar (by omega) (by omega) (by omega)
  have ho : CheckOutcome (spread 1000) 1 arena _ arena :=
    .full (below_iff.mpr fun i hi _ => hother i hi) (List.find?_eq_none.mpr fun i hi => by
      simp [MetaNode.not_reusable_of_ready (hready i (List.mem_range.mp hi)).1])
  refine ⟨es,arena,hrun,hb,hfull,fun fs arena' hpasses hcollect => ?_,spread 1000,
    spread_normalized _,hother,fires_checkCache.mpr (ho.checkCache_eq (by simp))⟩
  have hsame : arena' = arena := by
    refine Run.invariant (I := fun a => a = arena) ?_ hpasses hcollect rfl
    rintro ⟨before,act,after⟩ hfire hact rfl
    simp only at hact
    subst hact
    exact (Fires.unique hfire (fires_collect.mpr hasleep)).2
  rwa [hsame]

/-- A thousand records of four mebibytes each lie above the watermark, so that the
collector frees a slot unless it is blocked. -/
theorem fullTable_released_replay : ∃ (es fs : List (Step ℚ)) (arena arena' : MemoryArena (Vec ℚ)),
    EngineRun es arena ∧ FullTable arena ∧ Run Fires arena fs arena' ∧
      ((∃ n < l0MaxSlots, (arena'.metadata n).loadControl.state = .dead) ∨ Blocked arena') := by
  obtain ⟨es,arena,log,hrun,hb,hready,-⟩ := exists_filled (K := ℚ) (d := 2 ^ 22) (by decide)
    le_rfl (le_refl l0MaxSlots)
  have hfull : FullTable arena := fun n hn => (hready n hn).1
  have hbytes : tableBytes arena = 1000 * 2 ^ 22 := by
    rw [tableBytes, Finset.sum_congr rfl fun n hn => (hready n (Finset.mem_range.mp hn)).2.1,
      Finset.sum_const, Finset.card_range]
    rfl
  obtain ⟨fs,arena',hpasses,-,⟨hdead,-⟩ | ⟨hle,hlow⟩ | hblocked⟩ := fullTable_released hrun hb hfull
  · exact ⟨es,fs,arena,arena',hrun,hfull,hpasses,.inl hdead⟩
  · rw [UInt64.lt_iff_toNat_lt, lowWatermarkThreshold_toNat] at hlow
    omega
  · exact ⟨es,fs,arena,arena',hrun,hfull,hpasses,.inr hblocked⟩

end Replay

end Strix
