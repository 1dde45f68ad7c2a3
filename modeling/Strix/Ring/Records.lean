import Strix.Engine.Arena
import Strix.Foundation.FramedLog

/-! # Payload records in the ring

A record is a header with a valid node and length followed by its payload. The
machine's offsets are read as the residues of unbounded stream positions, so
that allocation, writing and reading become statements about the framed log.
-/
namespace Strix
open ByteRing FramedLog

structure PayloadRecord where
  nodeId : ℕ
  payload : List UInt8
  nodeId_lt : nodeId < totalMaxSlots
  nonempty : payload ≠ []
  length_le : payload.length ≤ maxPayloadLength.toNat

def PayloadRecord.header (r : PayloadRecord) : PayloadHeader :=
  ⟨validIdentifier,.ofNat r.nodeId,.ofNat r.payload.length⟩

def PayloadRecord.encode (r : PayloadRecord) : List UInt8 := r.header.bytes ++ r.payload

/-- The ring holds the records of the stream from `T` to `H`. -/
structure LiveRing {V : Type*} (arena : MemoryArena V) (T : ℕ) (log : List (Entry PayloadRecord))
    (H : ℕ) : Prop where
  head : arena.writeHead = .ofNat H
  tail : arena.readTail = .ofNat T
  room : H ≤ T + 2 ^ 32
  holds : Holds (2 ^ 32) 12 PayloadRecord.encode arena.bufferPayload T log H

@[simp] theorem PayloadHeader.bytes_length (h : PayloadHeader) : h.bytes.length = 12 := rfl

theorem PayloadRecord.encode_length (r : PayloadRecord) :
    r.encode.length = 12 + r.payload.length := by
  simp [encode]

theorem PayloadRecord.encode_pos (r : PayloadRecord) : 0 < r.encode.length := by
  rw [r.encode_length]
  omega

theorem PayloadRecord.length_lt (r : PayloadRecord) : r.payload.length < 2 ^ 24 := by
  have := r.length_le
  rw [maxPayloadLength_toNat] at this
  omega

theorem PayloadRecord.header_nodeId_toNat (r : PayloadRecord) :
    r.header.nodeId.toNat = r.nodeId := by
  have h : r.nodeId < 501000 := r.nodeId_lt
  rw [header, UInt32.toNat_ofNat']
  omega

theorem PayloadRecord.header_length_toNat (r : PayloadRecord) :
    r.header.length.toNat = r.payload.length := by
  have := r.length_lt
  rw [header, UInt32.toNat_ofNat']
  omega

section Words

theorem readWord_of_bytes {buf : ℕ → UInt8} {i : ℕ} {w : UInt32}
    (h : load buf i 4 = wordBytes w) : readWord buf i = w := by
  have hw := w.toNat_lt
  simp only [load, wordBytes, List.range, List.range.loop, List.map_cons, List.map_nil,
    List.cons.injEq, and_true, Nat.add_zero] at h
  obtain ⟨h0,h1,h2,h3⟩ := h
  apply UInt32.toNat_inj.mp
  rw [readWord, h0, h1, h2, h3]
  simp only [UInt8.toNat_ofNat', UInt32.toNat_ofNat']
  omega

theorem load_add (buf : ℕ → UInt8) (i m n : ℕ) :
    load buf i (m + n) = load buf i m ++ load buf (i + m) n := by
  simp [load, List.range_add, Nat.add_assoc, Function.comp_def]

theorem readHeader_of_bytes {buf : ℕ → UInt8} {i : ℕ} {header : PayloadHeader}
    (h : load buf i 12 = header.bytes) : readHeader buf i = header := by
  rw [show 12 = 4 + 4 + 4 from rfl, load_add, load_add, PayloadHeader.bytes] at h
  obtain ⟨h01,h2⟩ := List.append_inj h (by simp [wordBytes])
  obtain ⟨h0,h1⟩ := List.append_inj h01 (by simp [wordBytes])
  rw [readHeader, readWord_of_bytes h0, readWord_of_bytes h1, readWord_of_bytes h2]

end Words

section Offsets
variable (v : ℕ)

theorem ofNat_and_ringMask : (UInt64.ofNat v &&& (payloadBufferSize - 1)).toNat = v % 2 ^ 32 := by
  rw [and_payloadBufferSize_toNat, UInt64.toNat_ofNat']
  omega

theorem ofNat_and_offsetMask : (UInt64.ofNat v &&& virtualOffsetMask).toNat = v % 2 ^ 37 := by
  rw [and_virtualOffsetMask_toNat, UInt64.toNat_ofNat']
  omega

theorem ringEnd_toNat :
    (payloadBufferSize - (UInt64.ofNat v &&& (payloadBufferSize - 1))).toNat =
      2 ^ 32 - v % 2 ^ 32 := by
  rw [UInt64.toNat_sub, ofNat_and_ringMask, payloadBufferSize_toNat]
  omega

theorem headerPadding_ofNat :
    MemoryArena.headerPadding (.ofNat v) = .ofNat (padding (2 ^ 32) 12 v) := by
  have hend := ringEnd_toNat v
  apply UInt64.toNat_inj.mp
  simp only [MemoryArena.headerPadding, padding, UInt64.lt_iff_toNat_lt, hend,
    sizeofPayloadHeader_toNat]
  split
  · rw [hend, UInt64.toNat_ofNat']
    omega
  · rfl

theorem ofNat_place :
    UInt64.ofNat v + MemoryArena.headerPadding (.ofNat v) = .ofNat (place (2 ^ 32) 12 v) := by
  rw [headerPadding_ofNat, place, UInt64.ofNat_add]

theorem ofNat_sub_toNat {a b : ℕ} (h : b ≤ a) (hlt : a < b + 2 ^ 64) :
    (UInt64.ofNat a - UInt64.ofNat b).toNat = a - b := by
  rw [UInt64.toNat_sub, UInt64.toNat_ofNat', UInt64.toNat_ofNat']
  omega

theorem sizeof_add_ofNat (length : UInt32) :
    sizeofPayloadHeader + length.toUInt64 = .ofNat (12 + length.toNat) := by
  apply UInt64.toNat_inj.mp
  have := length.toNat_lt
  rw [UInt64.toNat_add, UInt64.toNat_ofNat', UInt32.toNat_toUInt64, sizeofPayloadHeader_toNat]

end Offsets

theorem place_bounds (v : ℕ) : v ≤ place (2 ^ 32) 12 v ∧ place (2 ^ 32) 12 v < v + 12 := by
  have hgap := padding_lt (2 ^ 32) (show 0 < 12 by decide) v
  exact ⟨le_place _ _ _,by unfold place; omega⟩

section Allocation
variable {V : Type*} {arena : MemoryArena V} {T H : ℕ} (length : UInt32)

theorem backpressure_toNat (hhead : arena.writeHead = .ofNat H) (htail : arena.readTail = .ofNat T)
    (hle : T ≤ H) (hroom : H ≤ T + 2 ^ 32) :
    (arena.writeHead + (sizeofPayloadHeader + length.toUInt64) - arena.readTail).toNat =
      H + (12 + length.toNat) - T := by
  have := length.toNat_lt
  rw [hhead, htail, sizeof_add_ofNat, ← UInt64.ofNat_add,
    ofNat_sub_toNat (by omega) (by omega)]

theorem allocatePayload_full (hhead : arena.writeHead = .ofNat H)
    (htail : arena.readTail = .ofNat T) (hle : T ≤ H) (hroom : H ≤ T + 2 ^ 32)
    (h : T + 2 ^ 32 ≤ H + (12 + length.toNat)) :
    arena.allocatePayload length = .error (.thrown "Resource Exhausted") := by
  have hp := backpressure_toNat length hhead htail hle hroom
  rw [MemoryArena.allocatePayload, if_pos]
  rw [UInt64.le_iff_toNat_le, hp, payloadBufferSize_toNat]
  omega

theorem allocatePayload_ok (hhead : arena.writeHead = .ofNat H)
    (htail : arena.readTail = .ofNat T) (hle : T ≤ H) (hroom : H ≤ T + 2 ^ 32)
    (h : H + (12 + length.toNat) < T + 2 ^ 32) :
    arena.allocatePayload length = .ok (.ofNat (place (2 ^ 32) 12 H),
      { arena with writeHead := .ofNat (place (2 ^ 32) 12 H + (12 + length.toNat)) }) := by
  have hp := backpressure_toNat length hhead htail hle hroom
  rw [MemoryArena.allocatePayload, if_neg]
  · simp only [hhead, ofNat_place, sizeof_add_ofNat, UInt64.ofNat_add]
  · rw [UInt64.le_iff_toNat_le, hp, payloadBufferSize_toNat]
    omega

end Allocation

section ReadWrite
variable {V : Type*} {arena : MemoryArena V} {T H : ℕ}

/-- Reading back a stored payload, from any offset with the same ring index. -/
theorem readPayload_eq {vOffset : UInt64} {length : UInt32} {v : ℕ} {payload : List UInt8}
    (h : Stored (2 ^ 32) arena.bufferPayload (v + 12) payload)
    (hv : vOffset.toNat % 2 ^ 32 = v % 2 ^ 32) (hlen : length.toNat = payload.length) :
    arena.readPayload vOffset length = payload := by
  have hlt := length.toNat_lt
  have hindex : ((vOffset + sizeofPayloadHeader) &&& (payloadBufferSize - 1)).toNat =
      (v + 12) % 2 ^ 32 := by
    rw [and_payloadBufferSize_toNat, UInt64.toNat_add, sizeofPayloadHeader_toNat]
    omega
  have hend : (payloadBufferSize -
      ((vOffset + sizeofPayloadHeader) &&& (payloadBufferSize - 1))).toNat =
      2 ^ 32 - (v + 12) % 2 ^ 32 := by
    rw [UInt64.toNat_sub, hindex, payloadBufferSize_toNat]
    omega
  rw [MemoryArena.readPayload]
  split
  · next hzero =>
    rw [hzero] at hlen
    exact (List.length_eq_zero_iff.mp hlen.symm).symm
  · simp only [UInt64.le_iff_toNat_le, UInt64.toNat_sub, hend, hindex, UInt32.toNat_toUInt64,
      hlen]
    split
    · rw [h.load_eq le_rfl (by omega), List.take_length]
    · rw [show (2 ^ 64 - (2 ^ 32 - (v + 12) % 2 ^ 32) + payload.length) % 2 ^ 64 =
        payload.length - (2 ^ 32 - (v + 12) % 2 ^ 32) by omega]
      exact h.load_wrap_eq (by decide) (by omega) (by omega)

/-- The record that `WritePayload` writes, in one or two pieces behind its header. -/
theorem writePayload_of_allocate (nodeId : UInt32) {length : UInt32} {payload : List UInt8}
    {offset : UInt64} {allocated : MemoryArena V} {v : ℕ}
    (halloc : arena.allocatePayload length = .ok (offset, allocated))
    (hv : offset.toNat % 2 ^ 32 = v % 2 ^ 32) (hfits : v % 2 ^ 32 + 12 ≤ 2 ^ 32)
    (hlen : length.toNat = payload.length) (hlt : 12 + payload.length ≤ 2 ^ 32) :
    ∃ buf, arena.writePayload nodeId payload length =
        .ok (offset, { allocated with bufferPayload := buf }) ∧
      Writes (2 ^ 32) arena.bufferPayload buf v
        ((⟨validIdentifier,nodeId,length⟩ : PayloadHeader).bytes ++ payload) := by
  obtain ⟨-,-,hbuf,-⟩ := allocatePayload_fields halloc
  have hheader := memcpy_writes (N := 2 ^ 32) arena.bufferPayload v
    (⟨validIdentifier,nodeId,length⟩ : PayloadHeader).bytes
    (by rw [PayloadHeader.bytes_length]; exact hfits)
  have hstart : (offset &&& (payloadBufferSize - 1)).toNat = v % 2 ^ 32 := by
    rw [and_payloadBufferSize_toNat, hv]
  have hindex : (((offset &&& (payloadBufferSize - 1)) + sizeofPayloadHeader) &&&
      (payloadBufferSize - 1)).toNat = (v + 12) % 2 ^ 32 := by
    rw [and_payloadBufferSize_toNat, UInt64.toNat_add, hstart, sizeofPayloadHeader_toNat]
    omega
  have hend : (payloadBufferSize - (((offset &&& (payloadBufferSize - 1)) +
      sizeofPayloadHeader) &&& (payloadBufferSize - 1))).toNat = 2 ^ 32 - (v + 12) % 2 ^ 32 := by
    rw [UInt64.toNat_sub, hindex, payloadBufferSize_toNat]
    omega
  simp only [MemoryArena.writePayload, halloc, UInt64.le_iff_toNat_le, hend, hindex, hstart, hbuf,
    UInt32.toNat_toUInt64, hlen, List.take_length]
  refine ⟨_,rfl,hheader.append _ ?_ (by rw [PayloadHeader.bytes_length]; omega)⟩
  rw [PayloadHeader.bytes_length]
  split
  · exact memcpy_writes _ _ _ (by omega)
  · exact memcpy_wrap_writes (by decide) (by omega) (by omega)

theorem writePayload_ok (nodeId : UInt32) {length : UInt32} {payload : List UInt8}
    (hhead : arena.writeHead = .ofNat H) (htail : arena.readTail = .ofNat T) (hle : T ≤ H)
    (hroom : H ≤ T + 2 ^ 32) (hlen : length.toNat = payload.length)
    (h : H + (12 + payload.length) < T + 2 ^ 32) :
    ∃ buf, arena.writePayload nodeId payload length = .ok (.ofNat (place (2 ^ 32) 12 H),
        { arena with
          writeHead := .ofNat (place (2 ^ 32) 12 H + (12 + payload.length))
          bufferPayload := buf }) ∧
      Writes (2 ^ 32) arena.bufferPayload buf (place (2 ^ 32) 12 H)
        ((⟨validIdentifier,nodeId,length⟩ : PayloadHeader).bytes ++ payload) := by
  have hfits := place_fits (show 0 < 2 ^ 32 by decide) (show 12 ≤ 2 ^ 32 by decide) H
  have halloc := allocatePayload_ok length hhead htail hle hroom (by omega)
  rw [hlen] at halloc
  exact writePayload_of_allocate nodeId halloc (by rw [UInt64.toNat_ofNat']; omega) hfits hlen
    (by omega)

end ReadWrite

end Strix
