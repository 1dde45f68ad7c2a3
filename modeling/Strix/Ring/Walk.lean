import Strix.Ring.Leak

/-! # What the collector walks over

Along a bounded run the collector meets exactly the records that were laid
down. Its cursors are counts of freed and allocated bytes cut to 64 bits, so
their numeric order is lost once a count has passed the cut.
-/
namespace Strix
open ByteRing FramedLog RunHistory

section Walk
variable {K : Type*} [Scoring K] {es : List (Step K)} {arena : MemoryArena (Vec K)}

/-- Past the watermark test the collector finds a short gap at the ring end, or
the first record with the header it was written with. -/
def Meets {V : Type*} (arena : MemoryArena V) (T : ℕ) (log : List (Entry PayloadRecord)) : Prop :=
  arena.sight = .belowWatermark ∨ ∃ e rest, log = e :: rest ∧
    ((T < e.offset ∧ e.offset < T + 12 ∧ e.offset % 2 ^ 32 = 0 ∧
        arena.sight = .ringEnd (.ofNat (e.offset - T))) ∨
      (e.offset = T ∧ ∃ header, arena.sight = .record header ∧
        header.identifier = validIdentifier ∧ header.nodeId.toNat = e.item.nodeId ∧
        header.nodeId.toNat < totalMaxSlots ∧ header.length.toNat = e.item.payload.length))

theorem LiveRing.meets {V : Type*} {arena : MemoryArena V} {T H : ℕ}
    {log : List (Entry PayloadRecord)} (h : LiveRing arena T log H) : Meets arena T log := by
  rcases h.sight_cases with ⟨-,hs⟩ | ⟨-,e,rest,rfl,⟨hgap,hs⟩ | ⟨hfront,hs⟩⟩
  · exact .inl hs
  · obtain ⟨hoff,-⟩ := h.front
    obtain ⟨-,hshort⟩ := place_bounds T
    have hend : 2 ^ 32 - T % 2 ^ 32 < 12 := by
      by_contra hfits
      rw [place_of_fits (by omega)] at hoff
      omega
    obtain ⟨-,hturn⟩ := place_mod_of_gap (by decide) hend
    exact .inr ⟨e,rest,rfl,.inl ⟨hgap,by omega,by rw [hoff]; exact hturn,hs⟩⟩
  · refine .inr ⟨e,rest,rfl,.inr ⟨hfront,_,hs,rfl,e.item.header_nodeId_toNat,?_,
      e.item.header_length_toNat⟩⟩
    rw [e.item.header_nodeId_toNat]
    exact e.item.nodeId_lt

/-- The collector walks exactly the records the writers laid down. -/
theorem collector_walks_records (hrun : EngineRun es arena) (hb : ∀ τ ∈ es, Bounded τ) :
    ∃ log : List (Entry PayloadRecord),
      arena.readTail = .ofNat (streamTail es) ∧ arena.writeHead = .ofNat (streamHead es) ∧
      streamTail es ≤ streamHead es ∧ streamHead es ≤ streamTail es + 2 ^ 32 ∧
      (streamHead es < 2 ^ 64 → arena.readTail ≤ arena.writeHead) ∧
      Holds (2 ^ 32) 12 PayloadRecord.encode arena.bufferPayload (streamTail es) log
        (streamHead es) ∧
      (∀ e ∈ log, ∃ τ ∈ es, Lays τ e.item) ∧ Meets arena (streamTail es) log := by
  obtain ⟨log,hintact⟩ := EngineRun.intact hrun hb
  have hring := hintact.ring
  have hle := hring.le
  refine ⟨log,hring.tail,hring.head,hle,hring.room,fun hlt => ?_,hring.holds,hintact.written,
    hring.meets⟩
  rw [UInt64.le_iff_toNat_le, hring.tail, hring.head, UInt64.toNat_ofNat', UInt64.toNat_ofNat']
  omega

end Walk

section Replay
variable {K : Type*} [Scoring K]

/-- With no answer in the engine, records are leaked and passed until the head
has come to any given position, with the tail still before it. -/
theorem exists_cross {arena : MemoryArena (Vec K)} {T H b : ℕ} {log : List (Entry PayloadRecord)}
    (hring : LiveRing arena T log H) (hdead : ∀ i, (arena.metadata i).loadControl.state = .dead)
    (hb : H < b) : ∃ fs arena' T' log' H', Run Fires arena fs arena' ∧ (∀ τ ∈ fs, Bounded τ) ∧
      LiveRing arena' T' log' H' ∧ T' < b ∧ b ≤ H' := by
  -- a leak brings the head closer to `b`, a pass shortens the ring at the same head
  induction hm : (b - H) * 2 ^ 33 + (H - T) using Nat.strong_induction_on
    generalizing arena T H log with
  | h m ih =>
    obtain ⟨hplace,hgap⟩ := place_bounds H
    have hle := hring.le
    have hnot : (arena.metadata 0).loadControl.state ≠ .pending := by simp [hdead]
    by_cases hlow : H < T + 2 ^ 31
    · obtain ⟨⟨before,act,after⟩,e,rfl,hfire,hbounded,-,hmeta,-,-,hring'⟩ :=
        exists_leak (d := 2 ^ 23) hring (by decide) hnot (by omega) (by omega) (by omega) (by omega)
      by_cases hcross : b ≤ place (2 ^ 32) 12 H + 2 ^ 23
      · refine ⟨_,after,_,_,_,.single hfire,?_,hring',by omega,hcross⟩
        rwa [List.forall_mem_singleton]
      · simp only at hmeta hring'
        obtain ⟨fs,arena',T',log',H',hrun,hfs,hout⟩ := ih _ (by omega) hring'
          (by rwa [hmeta]) (by omega) rfl
        refine ⟨_,arena',T',log',H',hrun.cons hfire,?_,hout⟩
        rw [List.forall_mem_cons]
        exact ⟨hbounded,hfs⟩
    · have hstep : ∃ n T' log', arena.runGarbageCollectorPass = .ok (arena.advanceReadTail n) ∧
          T < T' ∧ LiveRing (arena.advanceReadTail n) T' log' H := by
        cases log with
        | nil =>
          obtain rfl : T = H := hring.holds.laid
          omega
        | cons e log =>
          obtain ⟨hplaceT,-⟩ := place_bounds T
          obtain ⟨hoff,-⟩ := hring.front
          have hpos := e.item.encode_pos
          by_cases hfront : e.offset = T
          · exact ⟨_,_,_,hring.pass_dead (by omega) hfront (hdead _),by omega,hring.drop hfront⟩
          · exact ⟨_,_,_,hring.pass_leap (by omega) (by omega),by omega,hring.leap⟩
      obtain ⟨n,T₁,log₁,hpass,hlt,hring'⟩ := hstep
      obtain ⟨fs,arena',T',log',H',hrun,hfs,hout⟩ := ih _ (by omega) hring' hdead hb rfl
      refine ⟨_,arena',T',log',H',hrun.cons (fires_collect.mpr hpass),?_,hout⟩
      rw [List.forall_mem_cons]
      exact ⟨bounded_of_head_eq rfl,hfs⟩

/-- Once 2^64 bytes have been allocated, the tail is the larger number for a while. -/
theorem readTail_exceeds_writeHead : ∃ (es : List (Step ℚ)) (arena : MemoryArena (Vec ℚ)),
    EngineRun es arena ∧ (∀ τ ∈ es, Bounded τ) ∧ ¬ arena.readTail ≤ arena.writeHead := by
  obtain ⟨es,arena,T,log,H,hrun,hb,hring,hT,hH⟩ := exists_cross (b := 2 ^ 64)
    (liveRing_initial (V := Vec ℚ) 0) freshArena_state (by decide)
  refine ⟨es,arena,hrun,hb,?_⟩
  have hroom := hring.room
  rw [UInt64.le_iff_toNat_le, hring.tail, hring.head, UInt64.toNat_ofNat', UInt64.toNat_ofNat']
  omega

/-- Behind one record that the collector has passed, half a ring of records waits for it. -/
theorem collector_walks_records_replay : ∃ (es : List (Step ℚ)) (arena : MemoryArena (Vec ℚ))
    (log : List (Entry PayloadRecord)), EngineRun es arena ∧ arena.readTail = 100 ∧
      Holds (2 ^ 32) 12 PayloadRecord.encode arena.bufferPayload (streamTail es) log
        (streamHead es) ∧ arena.sight ≠ .belowWatermark ∧ Meets arena (streamTail es) log := by
  obtain ⟨es,arena,_,hrun,hes,-,hring⟩ := exists_passed (K := ℚ) (d := 2 ^ 31) le_rfl (by decide)
  obtain ⟨log,-,-,-,-,-,hholds,-,hmeets⟩ := collector_walks_records hrun fun τ hτ => (hes τ hτ).1
  exact ⟨es,arena,log,hrun,hring.tail,hholds,hring.sight_awake (by omega),hmeets⟩

end Replay

end Strix
