import Strix.Engine.Allocate
import Strix.Ring.Records

/-! # Concurrent allocation

However the steps of the allocating calls interleave, the successful exchanges
lay one reservation behind the other in the stream that the write head counts.
The reservations are the framed log of blank entries, so disjointness and the
unsplit headers are facts about that log.
-/
namespace Strix
open ByteRing FramedLog RunHistory ThreadPool

/-- What a call has reserved: room for a header and a payload. -/
structure Reservation where
  caller : ℕ
  length : UInt32
  deriving DecidableEq

def Reservation.size (r : Reservation) : ℕ := 12 + r.length.toNat

def Reservation.blank (r : Reservation) : List Unit := .replicate r.size ()

@[simp] theorem Reservation.blank_length (r : Reservation) : r.blank.length = r.size :=
  List.length_replicate

/-- The reservations fill the stream from `T` to `H`, up to gaps of fewer than
`sizeof(PayloadHeader)` bytes that end at a turn of the ring. -/
def Tiles : ℕ → List (Entry Reservation) → ℕ → Prop
  | T, [], H => T = H
  | T, e :: es, H => T ≤ e.offset ∧ e.offset < T + 12 ∧ (T < e.offset → e.offset % 2 ^ 32 = 0) ∧
      Tiles (e.offset + e.item.size) es H

section Log
variable {V : Type*} {arena : MemoryArena V} {es : List (AllocateBeat V)} {pool : AllocatePool V}
  {T H : ℕ} {log : List (Entry Reservation)}

theorem tiles_of_laid (h : Laid (2 ^ 32) 12 Reservation.blank T log H) : Tiles T log H := by
  induction log generalizing T with
  | nil => exact h
  | cons e log ih =>
    obtain ⟨hoff,hrest⟩ := h
    obtain ⟨hle,hlt⟩ := place_bounds T
    refine ⟨by omega,by omega,fun hgap => ?_,ih (by simpa using hrest)⟩
    by_cases hend : 2 ^ 32 - T % 2 ^ 32 < 12
    · rw [hoff]
      exact (place_mod_of_gap (by decide) hend).2
    · rw [hoff, place_of_fits (by omega)] at hgap
      omega

/-- The log of the reservations that the calls have returned. -/
structure Reserved (start : ℕ) (es : List (AllocateBeat V)) (pool : AllocatePool V)
    (log : List (Entry Reservation)) : Prop where
  laid : Laid (2 ^ 32) 12 Reservation.blank start log (start + allocatedBytes es)
  head : pool.shared.writeHead = .ofNat (start + allocatedBytes es)
  collector : pool.threads none = .collector
  distinct : (log.map fun e => e.item.caller).Nodup
  returned : ∀ id length offset, pool.threads (some id) = .returned length offset ↔
    ∃ e ∈ log, e.item = ⟨id,length⟩ ∧ offset = .ofNat e.offset

theorem Reserved.quiet {start : ℕ} {τ : AllocateBeat V} (h : Reserved start es τ.before log)
    (hfire : Moves AllocateStep τ.before τ.act τ.after)
    (hhead : τ.after.shared.writeHead = τ.before.shared.writeHead)
    (hnext : ∀ length offset, τ.after.threads τ.act.1 = .returned length offset →
      τ.before.threads τ.act.1 = .returned length offset) :
    Reserved start (es ++ [τ]) τ.after log := by
  have hbytes : allocatedBytes (es ++ [τ]) = allocatedBytes es := by
    rw [allocatedBytes_snoc, hhead, UInt64.sub_self]
    rfl
  refine ⟨by rw [hbytes]; exact h.laid,by rw [hbytes, hhead]; exact h.head,?_,h.distinct,?_⟩
  · by_cases hτ : none = τ.act.1
    · have hown := hfire.own
      rw [← hτ, h.collector] at hown
      exact hown.collector_eq
    · rw [hfire.others _ hτ]
      exact h.collector
  · intro id length offset
    rw [← h.returned]
    by_cases hτ : some id = τ.act.1
    · rw [hτ]
      exact ⟨hnext length offset,fun hold => absurd hold (hfire.own.running.1 length offset)⟩
    · rw [hfire.others _ hτ]

theorem Reserved.append {start : ℕ} {τ : AllocateBeat V} {length : UInt32}
    (h : Reserved start es τ.before log) (hfire : Moves AllocateStep τ.before τ.act τ.after)
    (hcaller : τ.before.threads τ.act.1 =
      .allocating length (.exchanging τ.before.shared.writeHead))
    (hnext : τ.after.threads τ.act.1 = .returned length (τ.before.shared.writeHead +
      MemoryArena.headerPadding τ.before.shared.writeHead))
    (hhead : τ.after.shared.writeHead = τ.before.shared.writeHead +
      MemoryArena.headerPadding τ.before.shared.writeHead +
        (sizeofPayloadHeader + length.toUInt64)) :
    ∃ log', Reserved start (es ++ [τ]) τ.after log' := by
  set H := start + allocatedBytes es with hH
  obtain ⟨hle,hlt⟩ := place_bounds H
  have hlength := length.toNat_lt
  have hplaced : τ.before.shared.writeHead +
      MemoryArena.headerPadding τ.before.shared.writeHead = .ofNat (place (2 ^ 32) 12 H) := by
    rw [h.head, ofNat_place]
  have hsize : sizeofPayloadHeader + length.toUInt64 = .ofNat (12 + length.toNat) := by
    apply UInt64.toNat_inj.mp
    rw [UInt64.toNat_add, sizeofPayloadHeader_toNat, UInt32.toNat_toUInt64, UInt64.toNat_ofNat']
  have hhead' : τ.after.shared.writeHead = .ofNat (place (2 ^ 32) 12 H + (12 + length.toNat)) := by
    rw [hhead, hplaced, hsize, ← UInt64.ofNat_add]
  have hbytes : start + allocatedBytes (es ++ [τ]) =
      place (2 ^ 32) 12 H + (12 + length.toNat) := by
    rw [allocatedBytes_snoc, hhead', h.head, ofNat_sub_toNat (by omega) (by omega)]
    omega
  have hnone : τ.act.1 ≠ none := by
    intro hact
    rw [hact, h.collector] at hcaller
    cases hcaller
  obtain ⟨id,hid⟩ := Option.ne_none_iff_exists'.mp hnone
  rw [hid] at hcaller hnext
  -- the caller has not returned before, so the log has no entry of its
  have hfresh : ∀ e ∈ log, e.item.caller ≠ id := by
    intro e he heq
    have hold := (h.returned id e.item.length (.ofNat e.offset)).mpr
      ⟨e,he,by rw [← heq],rfl⟩
    rw [hcaller] at hold
    cases hold
  refine ⟨log ++ [⟨place (2 ^ 32) 12 H,⟨id,length⟩⟩],?_,?_,?_,?_,?_⟩
  · rw [hbytes]
    simpa [Reservation.size] using h.laid.snoc ⟨id,length⟩
  · rw [hbytes, hhead']
  · rw [hfire.others _ hnone.symm]
    exact h.collector
  · rw [List.map_append, List.nodup_append]
    refine ⟨h.distinct,by simp,?_⟩
    intro a ha b hb
    obtain ⟨e,he,rfl⟩ := List.mem_map.mp ha
    obtain rfl : b = id := by simpa using hb
    exact hfresh e he
  · intro id' length' offset
    by_cases hτ : id' = id
    · subst hτ
      rw [hnext, hplaced, Allocator.returned.injEq]
      constructor
      · rintro ⟨rfl,rfl⟩
        exact ⟨_,List.mem_append_right _ (List.mem_singleton_self _),rfl,rfl⟩
      · rintro ⟨e,he,hitem,rfl⟩
        rcases List.mem_append.mp he with he | he
        · exact absurd (by rw [hitem]) (hfresh e he)
        · obtain rfl := List.mem_singleton.mp he
          exact ⟨congrArg Reservation.length hitem,rfl⟩
    · rw [hfire.others _ (by rw [hid]; simpa using hτ), h.returned]
      constructor
      · rintro ⟨e,he,hitem⟩
        exact ⟨e,List.mem_append_left _ he,hitem⟩
      · rintro ⟨e,he,hitem,hoff⟩
        rcases List.mem_append.mp he with he | he
        · exact ⟨e,he,hitem,hoff⟩
        · obtain rfl := List.mem_singleton.mp he
          exact absurd (congrArg Reservation.caller hitem).symm hτ

/-- Every interleaving has such a log. -/
theorem exists_reserved (hrun : Run (Moves AllocateStep) (startAllocation arena) es pool) :
    ∃ log, Reserved arena.writeHead.toNat es pool log := by
  refine hrun.historyInvariant (I := fun es u => ∃ log, Reserved arena.writeHead.toNat es u log)
    (P := fun _ => True) ?_ (fun _ _ => trivial)
    ⟨[],rfl,by simp [startAllocation, allocatedBytes],rfl,by simp,
      by simp [startAllocation]⟩
  rintro es τ hfire - ⟨log,h⟩
  rcases allocateStep_cases hfire.own with ⟨hhead,hnext⟩ | ⟨length,hcaller,hnext,hhead⟩
  · exact ⟨log,h.quiet hfire hhead hnext⟩
  · exact h.append hfire hcaller hnext hhead

theorem head_of_not_returned (hrun : Run (Moves AllocateStep) (startAllocation arena) es pool)
    {i : Option ℕ} (hi : ∀ length offset, pool.threads i ≠ .returned length offset) :
    ∀ τ ∈ es, τ.act.1 = i → τ.after.shared.writeHead = τ.before.shared.writeHead := by
  refine hrun.historyInvariant (I := fun es u =>
      (∀ length offset, u.threads i ≠ .returned length offset) → ∀ τ ∈ es, τ.act.1 = i →
        τ.after.shared.writeHead = τ.before.shared.writeHead)
    (P := fun _ => True) ?_ (fun _ _ => trivial) (by simp) hi
  intro es τ hfire _ ih hnot σ hσ hby
  by_cases hτ : i = τ.act.1
  · subst hτ
    rcases List.mem_append.mp hσ with hσ | hσ
    · exact ih hfire.own.running.1 σ hσ hby
    · obtain rfl := List.mem_singleton.mp hσ
      rcases allocateStep_cases hfire.own with ⟨hhead,-⟩ | ⟨length,-,hnext,-⟩
      · exact hhead
      · exact absurd hnext (hnot _ _)
  · rw [hfire.others _ hτ] at hnot
    rcases List.mem_append.mp hσ with hσ | hσ
    · exact ih hnot σ hσ hby
    · obtain rfl := List.mem_singleton.mp hσ
      exact absurd hby.symm hτ

/-- The ranges that calls have returned are pairwise disjoint and, up to the gaps
at the ring end, fill the stream between the initial and the current head; no
header is split, and a call that raises reserves nothing. -/
theorem allocations_tile (hrun : Run (Moves AllocateStep) (startAllocation arena) es pool)
    (htotal : allocatedBytes es < 2 ^ 64) :
    (∀ i j m n a b, i ≠ j → pool.threads i = .returned m a → pool.threads j = .returned n b →
      Apart (2 ^ 64) a.toNat (12 + m.toNat) b.toNat (12 + n.toNat)) ∧
    (∃ log, Tiles arena.writeHead.toNat log (arena.writeHead.toNat + allocatedBytes es) ∧
      pool.shared.writeHead = .ofNat (arena.writeHead.toNat + allocatedBytes es) ∧
      (log.map fun e => e.item.caller).Nodup ∧
      ∀ id length offset, pool.threads (some id) = .returned length offset ↔
        ∃ e ∈ log, e.item = ⟨id,length⟩ ∧ offset = .ofNat e.offset) ∧
    (∀ i length offset, pool.threads i = .returned length offset →
      offset.toNat % 2 ^ 32 + 12 ≤ 2 ^ 32) ∧
    ∀ i length fault, pool.threads i = .raised length fault → ∀ τ ∈ es, τ.act.1 = i →
      τ.after.shared.writeHead = τ.before.shared.writeHead := by
  obtain ⟨log,h⟩ := exists_reserved hrun
  have hentry : ∀ i length offset, pool.threads i = .returned length offset →
      ∃ id, i = some id ∧ ∃ e ∈ log, e.item = ⟨id,length⟩ ∧ offset = .ofNat e.offset := by
    intro i length offset hi
    cases i with
    | none =>
      rw [h.collector] at hi
      cases hi
    | some id => exact ⟨id,rfl,(h.returned id length offset).mp hi⟩
  refine ⟨?_,⟨log,tiles_of_laid h.laid,h.head,h.distinct,h.returned⟩,?_,?_⟩
  · intro i j m n a b hij hi hj
    obtain ⟨id,rfl,e,he,hitem,rfl⟩ := hentry _ _ _ hi
    obtain ⟨id',rfl,e',he',hitem',rfl⟩ := hentry _ _ _ hj
    have hne : e ≠ e' := by
      rintro rfl
      exact hij (congrArg some (congrArg Reservation.caller (hitem.symm.trans hitem')))
    have hapart := h.laid.apart (M := 2 ^ 64) (by omega) he he' hne
    simp only [Reservation.blank_length, Reservation.size, hitem, hitem'] at hapart
    refine (apart_congr ?_ ?_).mp hapart <;> rw [UInt64.toNat_ofNat', Nat.mod_mod]
  · intro i length offset hi
    obtain ⟨id,-,e,he,-,rfl⟩ := hentry _ _ _ hi
    have hfits := h.laid.fits (by decide) (by decide) he
    rw [UInt64.toNat_ofNat']
    omega
  · intro i length fault hi τ hτ hby
    exact head_of_not_returned hrun (by rw [hi]; simp) τ hτ hby

end Log

section Replay

theorem run_caller {es : List (AllocateBeat Unit)} {pool : AllocatePool Unit}
    (hrun : Run (Moves AllocateStep) (startAllocation (.initial ())) es pool) (i : ℕ)
    {a : AllocateAction} {arena' : MemoryArena Unit} {next : Allocator}
    (h : AllocateStep pool.shared (pool.threads (some i)) a arena' next) :
    Run (Moves AllocateStep) (startAllocation (.initial ()))
      (es ++ [⟨pool,(some i, a),⟨arena',Function.update pool.threads (some i) next⟩⟩])
      ⟨arena',Function.update pool.threads (some i) next⟩ :=
  hrun.snoc (moves_update h)

/-- Both callers load the same head; the second one's exchange fails and it
reserves behind the first. -/
theorem allocations_tile_replay : ∃ (es : List (AllocateBeat Unit)) (pool : AllocatePool Unit),
    Run (Moves AllocateStep) (startAllocation (.initial ())) es pool ∧
      pool.threads (some 0) = .returned 5 0 ∧ pool.threads (some 1) = .returned 7 17 ∧
      Apart (2 ^ 64) 0 17 17 19 := by
  have hfirst := run_caller (.nil _) 0 (a := .call 5) .call
  have hsecond := run_caller hfirst 1 (a := .call 7) .call
  have hhead := run_caller hsecond 0 (a := .proceed false) (.proceed rfl)
  have hhead' := run_caller hhead 1 (a := .proceed false) (.proceed rfl)
  have htail := run_caller hhead' 1 (a := .proceed false) (.proceed rfl)
  have htail' := run_caller htail 0 (a := .proceed false) (.proceed rfl)
  have hreturned := run_caller htail' 0 (a := .proceed false) (.proceed rfl)
  -- the head has moved: the second exchange fails and its loop turns once more
  have hfailed := run_caller hreturned 1 (a := .proceed false) (.proceed rfl)
  have hretried := run_caller hfailed 1 (a := .proceed false) (.proceed rfl)
  have hrun := run_caller hretried 1 (a := .proceed false) (.proceed rfl)
  refine ⟨_,_,hrun,rfl,rfl,?_⟩
  exact (allocations_tile hrun (by decide)).1 (some 0) (some 1) 5 7 0 17 (by simp) rfl rfl

end Replay

end Strix
