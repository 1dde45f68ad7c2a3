import Strix.Ring.Hit

/-! # Driving the cursors with unused records

A `SetCache` for a node that is not pending leaves a record that no node serves.
Such records fill the ring to any position of a lap, and the collector passes
them without touching a node, so callers alone decide where the cursors stand.
-/
namespace Strix
open ByteRing FramedLog RunHistory

section Filler

theorem wellFormedSet_replicate {n d : ℕ} (hn : n < totalMaxSlots) (hpos : 0 < d)
    (hd : d < 2 ^ 24) :
    WellFormedSet n (List.replicate d 0) := by
  refine ⟨by omega,?_,?_,?_⟩
  · rw [ne_eq, List.replicate_eq_nil_iff]
    omega
  · rw [List.length_replicate, maxPayloadLength_toNat]
    omega
  · rwa [wireNode_natCast hn]

theorem filler_encode_length {n d : ℕ} (hmin : 12 ≤ d)
    (h : WellFormedSet n (List.replicate (d - 12) 0)) : h.record.encode.length = d := by
  have hsize := h.record.encode_length
  simp only [WellFormedSet.record, List.length_replicate] at hsize ⊢
  omega

end Filler

section Leak
variable {K : Type*} [Scoring K] {arena : MemoryArena (Vec K)} {T H : ℕ}
  {log : List (Entry PayloadRecord)}

theorem exists_leak (hring : LiveRing arena T log H) {n d : ℕ} (hn : n < totalMaxSlots)
    (hstate : (arena.metadata n).loadControl.state ≠ .pending) (hmin : 13 ≤ d)
    (hmax : d < 12 + 2 ^ 24) (hroom : H + d < T + 2 ^ 32)
    (hbound : place (2 ^ 32) 12 H + d ≤ T + 2 ^ 32) :
    ∃ (τ : Step K) (e : Entry PayloadRecord), τ.before = arena ∧ Fires arena τ.act τ.after ∧
      Bounded τ ∧ (∃ payload, τ.act = (.setCache n payload, .stored (.ok false))) ∧
      τ.after.metadata = arena.metadata ∧ τ.after.vectors = arena.vectors ∧ e.item.nodeId = n ∧
      LiveRing τ.after T (log ++ [e]) (place (2 ^ 32) 12 H + d) := by
  have hw := wellFormedSet_replicate hn (show 0 < d - 12 by omega) (by omega)
  have hsize : hw.record.encode.length = d := filler_encode_length (by omega) hw
  have hwire := wireNode_natCast hn
  obtain ⟨arena',hset,hmeta,hvec,hring'⟩ := hring.leak hw (by omega) (by omega) (by rwa [hwire])
  rw [hsize] at hring'
  refine ⟨⟨arena,_,arena'⟩,_,rfl,fires_setCache.mpr hset,?_,⟨_,rfl⟩,hmeta,hvec,hwire,hring'⟩
  exact bounded_of_ring hring' (by rw [hring'.tail, hring.tail])

/-- Within one lap the head can be brought to any position at least one record ahead. -/
theorem exists_fill {n d : ℕ} (hn : n < totalMaxSlots) (hring : LiveRing arena T log H)
    (hstate : (arena.metadata n).loadControl.state ≠ .pending) (hmin : 13 ≤ d)
    (hlap : H % 2 ^ 32 + d ≤ 2 ^ 32) (hroom : H + d < T + 2 ^ 32) :
    ∃ fs arena' unused, Run Fires arena fs arena' ∧
      (∀ τ ∈ fs, Bounded τ ∧ ∃ payload, τ.act = (.setCache n payload, .stored (.ok false))) ∧
      arena'.metadata = arena.metadata ∧ arena'.vectors = arena.vectors ∧
      (∀ e ∈ unused, e.item.nodeId = n) ∧ LiveRing arena' T (log ++ unused) (H + d) := by
  induction d using Nat.strong_induction_on generalizing arena H log with
  | h d ih =>
    have hplace : place (2 ^ 32) 12 H = H := place_of_fits (by omega)
    by_cases hlast : d < 12 + 2 ^ 24
    · obtain ⟨⟨before,act,after⟩,e,rfl,hfire,hb,hact,hmeta,hvec,hid,hring'⟩ :=
        exists_leak hring hn hstate hmin hlast hroom (by omega)
      rw [hplace] at hring'
      refine ⟨_,after,[e],.single hfire,?_,hmeta,hvec,?_,hring'⟩
      · rw [List.forall_mem_singleton]
        exact ⟨hb,hact⟩
      · rwa [List.forall_mem_singleton]
    · -- a record of half the longest size leaves room for a further one
      obtain ⟨⟨before,act,after⟩,e,rfl,hfire,hb,hact,hmeta,hvec,hid,hring'⟩ :=
        exists_leak (d := 2 ^ 23) hring hn hstate (by omega) (by omega) (by omega) (by omega)
      rw [hplace] at hring'
      obtain ⟨fs,arena',unused,hrun,hfs,hmeta',hvec',hids,hring''⟩ := ih (d - 2 ^ 23) (by omega)
        hring' (by rwa [hmeta]) (by omega) (by omega) (by omega)
      refine ⟨_,arena',e :: unused,hrun.cons hfire,?_,hmeta'.trans hmeta,hvec'.trans hvec,?_,?_⟩
      · rw [List.forall_mem_cons]
        exact ⟨⟨hb,hact⟩,hfs⟩
      · rw [List.forall_mem_cons]
        exact ⟨hid,hids⟩
      · rw [List.append_assoc, show H + 2 ^ 23 + (d - 2 ^ 23) = H + d by omega] at hring''
        exact hring''

omit [Scoring K] in
theorem LiveRing.pass_leap {e : Entry PayloadRecord} (hring : LiveRing arena T (e :: log) H)
    (hpast : T + 2 ^ 31 ≤ H) (hgap : T < e.offset) :
    arena.runGarbageCollectorPass = .ok (arena.advanceReadTail (.ofNat (e.offset - T))) := by
  have hpass := hring.pass
  generalize hout : arena.runGarbageCollectorPass = out at hpass
  cases hpass with
  | leap => rfl
  | asleep low => omega
  | skip _ front _ => omega
  | evict _ front _ _ => omega
  | exhausted _ front _ _ _ => omega
  | rescue _ front _ _ _ _ => omega

omit [Scoring K] in
theorem LiveRing.pass_dead {e : Entry PayloadRecord} (hring : LiveRing arena T (e :: log) H)
    (hpast : T + 2 ^ 31 ≤ H) (hfront : e.offset = T)
    (hdead : (arena.metadata e.item.nodeId).loadControl.state = .dead) :
    arena.runGarbageCollectorPass = .ok (arena.advanceReadTail (.ofNat e.item.encode.length)) := by
  have hold :
      MemoryArena.stale (arena.metadata e.item.nodeId).loadControl arena.readTail = true := by
    simp [MemoryArena.stale, hdead]
  have hpass := hring.pass
  generalize hout : arena.runGarbageCollectorPass = out at hpass
  cases hpass with
  | skip => rfl
  | asleep low => omega
  | leap _ gap => omega
  | evict _ _ current _ => simp [hold] at current
  | exhausted _ _ current _ _ => simp [hold] at current
  | rescue _ _ current _ _ _ => simp [hold] at current

omit [Scoring K] in
theorem LiveRing.pass_rescue {e : Entry PayloadRecord} (hring : LiveRing arena T (e :: log) H)
    (hpast : T + 2 ^ 31 ≤ H) (hfront : e.offset = T)
    (hcurrent : MemoryArena.stale (arena.metadata e.item.nodeId).loadControl arena.readTail = false)
    (hot : (arena.metadata e.item.nodeId).loadControl.refBit = .hot)
    (hroom : H + e.item.encode.length < T + 2 ^ 32) : ∃ arena',
    arena.runGarbageCollectorPass = .ok arena' ∧ arena'.vectors = arena.vectors ∧
      arena'.metadata = Function.update arena.metadata e.item.nodeId
        { arena.metadata e.item.nodeId with
          controlBlock := packControl (arena.metadata e.item.nodeId).loadControl.state .cold
            (arena.metadata e.item.nodeId).loadControl.length (.ofNat (place (2 ^ 32) 12 H)) } ∧
      LiveRing arena' (T + e.item.encode.length) (log ++ [⟨place (2 ^ 32) 12 H,e.item⟩])
        (place (2 ^ 32) 12 H + e.item.encode.length) := by
  have hsize := e.item.encode_length
  obtain ⟨hplace,hgap⟩ := place_bounds H
  have hpass := hring.pass
  generalize hout : arena.runGarbageCollectorPass = out at hpass
  cases hpass with
  | @rescue _ _ buf _ _ _ _ _ written =>
    have hring' := (hring.drop hfront).append (r := e.item) (by exact written) (by omega)
    exact ⟨_,rfl,rfl,rfl,hring'.congr rfl rfl rfl⟩
  | asleep low => omega
  | leap _ gap => omega
  | skip _ _ old => simp [hcurrent] at old
  | evict _ _ _ cold => simp [hot] at cold
  | exhausted _ _ _ _ full => omega

theorem exists_front {e : Entry PayloadRecord} (hring : LiveRing arena T (e :: log) H)
    (hpast : e.offset + 2 ^ 31 ≤ H) :
    ∃ fs : List (Step K), Run Fires arena fs { arena with readTail := .ofNat e.offset } ∧
      (∀ τ ∈ fs, Bounded τ ∧ τ.before.metadata = arena.metadata) ∧
      LiveRing { arena with readTail := .ofNat e.offset } e.offset (e :: log) H := by
  obtain ⟨hplace,-⟩ := place_bounds T
  obtain ⟨hoff,-⟩ := hring.front
  by_cases hgap : T < e.offset
  · have htail : arena.advanceReadTail (.ofNat (e.offset - T)) =
        { arena with readTail := .ofNat e.offset } := by
      rw [MemoryArena.advanceReadTail, ← MemoryArena.advanceReadTail_readTail, hring.leap.tail]
    have hfire := fires_collect.mpr (hring.pass_leap (by omega) hgap)
    have hring' := hring.leap
    rw [htail] at hfire hring'
    refine ⟨_,.single hfire,?_,hring'⟩
    rw [List.forall_mem_singleton]
    exact ⟨bounded_of_head_eq rfl,rfl⟩
  · obtain rfl : e.offset = T := by omega
    have hsame : ({ arena with readTail := .ofNat e.offset } : MemoryArena (Vec K)) = arena := by
      rw [← hring.tail]
    rw [hsame]
    exact ⟨[],.nil _,by simp,hring⟩

/-- The collector passes the records of dead nodes up to a given record. -/
theorem exists_drain {skipped : List (Entry PayloadRecord)} {e : Entry PayloadRecord}
    (hring : LiveRing arena T (skipped ++ e :: log) H) (hpast : e.offset + 2 ^ 31 ≤ H)
    (hdead : ∀ a ∈ skipped, (arena.metadata a.item.nodeId).loadControl.state = .dead) :
    ∃ fs : List (Step K), Run Fires arena fs { arena with readTail := .ofNat e.offset } ∧
      (∀ τ ∈ fs, Bounded τ ∧ τ.before.metadata = arena.metadata) ∧
      LiveRing { arena with readTail := .ofNat e.offset } e.offset (e :: log) H := by
  induction skipped generalizing arena T with
  | nil => exact exists_front hring hpast
  | cons a skipped ih =>
    rw [List.forall_mem_cons] at hdead
    have hafter : a.offset + a.item.encode.length ≤ e.offset :=
      (hring.holds.drop.laid.bounds (e := e) (by simp)).1
    obtain ⟨fs,hrun,hfs,hfront⟩ := exists_front hring (by omega)
    have hfire := fires_collect.mpr (hfront.pass_dead (by omega) rfl hdead.1)
    have htail := (hfront.drop rfl).tail
    rw [MemoryArena.advanceReadTail_readTail] at htail
    have hring' := hfront.drop rfl
    simp only [MemoryArena.advanceReadTail, htail] at hfire hring'
    obtain ⟨gs,hrun',hgs,hring''⟩ := ih hring' hdead.2
    refine ⟨_,(hrun.snoc hfire).append hrun',?_,hring''⟩
    rw [List.forall_mem_append, List.forall_mem_append, List.forall_mem_singleton]
    exact ⟨⟨hfs,bounded_of_head_eq rfl,rfl⟩,hgs⟩

theorem exists_passed {d : ℕ} (hhalf : 2 ^ 31 ≤ d) (hlap : 100 + d < 2 ^ 32) :
    ∃ (es : List (Step K)) (arena : MemoryArena (Vec K)) (log : List (Entry PayloadRecord)),
      EngineRun es arena ∧
      (∀ τ ∈ es, Bounded τ ∧ (τ.act = (.collect, .collected) ∨
        ∃ payload, τ.act = (.setCache 0 payload, .stored (.ok false)))) ∧
      (∀ i, (arena.metadata i).loadControl.state = .dead) ∧ LiveRing arena 100 log (100 + d) := by
  have hfresh : LiveRing (freshArena K) 0 [] 0 := liveRing_initial _
  have hdead : ∀ i, ((freshArena K).metadata i).loadControl.state = .dead := freshArena_state
  have hplace : place (2 ^ 32) 12 0 = 0 := by decide
  obtain ⟨⟨before,act,first⟩,e,rfl,hfire,hb,hact,hmeta,-,-,hring⟩ :=
    exists_leak (n := 0) (d := 100) hfresh (by decide) (by simp [hdead]) (by omega) (by omega)
      (by omega) (by rw [hplace]; omega)
  simp only [hplace, Nat.zero_add, List.nil_append] at hmeta hring
  obtain ⟨hoff,hend⟩ := hring.holds.laid
  have hsize : e.item.encode.length = 100 := by
    have : e.offset + e.item.encode.length = 100 := hend
    omega
  obtain ⟨fs,full,unused,hfill,hfs,hmeta',-,-,hring'⟩ :=
    exists_fill (n := 0) (d := d) (by decide) hring (by simp [hmeta, hdead]) (by omega)
      (by omega) (by omega)
  have hpass := hring'.pass_dead (by omega) (hoff.trans hplace) (by simp [hmeta', hmeta, hdead])
  have hring'' := hring'.drop (hoff.trans hplace)
  rw [hsize] at hpass hring''
  refine ⟨_,_,_,((Run.single hfire).append hfill).snoc (fires_collect.mpr hpass),?_,
    by simp [hmeta', hmeta, hdead],hring''⟩
  rw [List.forall_mem_append, List.forall_mem_append, List.forall_mem_singleton,
    List.forall_mem_singleton]
  exact ⟨⟨⟨hb,.inr hact⟩,fun τ hτ => ⟨(hfs τ hτ).1,.inr (hfs τ hτ).2⟩⟩,
    bounded_of_head_eq rfl,.inl rfl⟩

/-- A record laid five bytes before the end of the first lap goes behind them. -/
theorem exists_padded : ∃ (es : List (Step K)) (τ : Step K) (log : List (Entry PayloadRecord)),
    EngineRun (es ++ [τ]) τ.after ∧ (∀ σ ∈ es ++ [τ], Bounded σ) ∧
      τ.before.writeHead = .ofNat (2 ^ 32 - 5) ∧ LiveRing τ.after 100 log (2 ^ 32 + 50) := by
  obtain ⟨es,arena,log,hrun,hes,hdead,hring⟩ := exists_passed (K := K) (d := 2 ^ 32 - 105)
    (by decide) (by decide)
  have hgap : place (2 ^ 32) 12 (100 + (2 ^ 32 - 105)) = 2 ^ 32 := by decide
  obtain ⟨τ,e,rfl,hfire,hb,-,-,-,-,hring'⟩ := exists_leak (n := 0) (d := 50) hring (by decide)
    (by simp [hdead]) (by omega) (by omega) (by omega) (by rw [hgap]; omega)
  rw [hgap] at hring'
  refine ⟨es,τ,_,hrun.snoc hfire,?_,hring.head,hring'⟩
  rw [List.forall_mem_append, List.forall_mem_singleton]
  exact ⟨fun σ hσ => (hes σ hσ).1,hb⟩

end Leak

section Half
variable {K : Type*} [Field K] [LinearOrder K] [IsStrictOrderedRing K]

/-- The first slot is answered and leaked records bring the head to a given place of the
first lap, with the collector still to come to the answer's record. -/
theorem exists_hot (query : Vec K) {d : ℕ} (hmin : 26 ≤ d) (hlap : d < 2 ^ 32) :
    ∃ (es : List (Step K)) (arena : MemoryArena (Vec K)) (log : List (Entry PayloadRecord)),
      EngineRun es arena ∧ (∀ τ ∈ es, Bounded τ) ∧ (∀ τ ∈ es, τ.act.1 ≠ .collect) ∧
      (∀ i, i ≠ 0 → arena.metadata i = ⟨0,0⟩) ∧
      arena.metadata 0 = ⟨1,packControl .ready .hot 1 0⟩ ∧ arena.vectors 0 = query ∧
      (∀ a ∈ log, a.item.nodeId = 1) ∧
      LiveRing arena 0 (⟨0,oneByte_wellFormed.record⟩ :: log) d := by
  have hw := oneByte_wellFormed
  have hsize : hw.record.encode.length = 13 := hw.record.encode_length
  obtain ⟨es,stored,hrun,hb,hother,hnode,hvec,hring,-,hcalls⟩ := exists_published query 1 hw
  rw [hsize] at hring
  obtain ⟨fs,arena,unused,hfill,hfs,hmeta,hvec',hids,hring'⟩ :=
    exists_fill (n := 1) (d := d - 13) (by decide) hring (by rw [hother 1 (by decide)]; decide)
      (by omega) (by omega) (by omega)
  rw [show 13 + (d - 13) = d by omega, List.singleton_append] at hring'
  refine ⟨_,arena,unused,hrun.append hfill,?_,?_,fun i hi => ?_,?_,
    (congrFun hvec' 0).trans hvec,hids,hring'⟩
  · rw [List.forall_mem_append]
    exact ⟨hb,fun τ hτ => (hfs τ hτ).1⟩
  · refine List.forall_mem_append.mpr ⟨hcalls,fun τ hτ => ?_⟩
    obtain ⟨-,payload,hact⟩ := hfs τ hτ
    simp [hact]
  · rw [hmeta, hother i hi]
  · rw [hmeta]
    exact hnode

end Half

end Strix
