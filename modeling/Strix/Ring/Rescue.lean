import Strix.Ring.Records

/-! # The chunked copy of a rescue

Source and destination wrap at the ring end independently. The copy is correct
when the destination shares no cell with the source text; it may run into the
header of the source record, which has been read before.
-/
namespace Strix
open ByteRing FramedLog

/-- The loop ends and has copied the text, wherever the two ranges wrap. -/
theorem copyChunks_writes {buf : ℕ → UInt8} {src dst : RingIndex} {bytesLeft : UInt64} {s d : ℕ}
    {text : List UInt8} (hs : src.val.toNat = s % 2 ^ 32) (hd : dst.val.toNat = d % 2 ^ 32)
    (hn : bytesLeft.toNat = text.length) (hlen : text.length ≤ 2 ^ 32)
    (hstored : Stored (2 ^ 32) buf s text)
    (hapart : Apart (2 ^ 32) s text.length d text.length) :
    Writes (2 ^ 32) buf (copyChunks buf src dst bytesLeft) d text := by
  fun_induction copyChunks buf src dst bytesLeft generalizing s d text with
  | case1 buf src dst bytesLeft hpos ih =>
    have hc := chunkSize_toNat src dst bytesLeft
    generalize chunkSize src dst bytesLeft = chunk at hc ih ⊢
    have htake : (text.take chunk.toNat).length = chunk.toNat := by
      rw [List.length_take]; omega
    have hdrop : (text.drop chunk.toNat).length = text.length - chunk.toNat := List.length_drop
    have hload : load buf src.val.toNat chunk.toNat = text.take chunk.toNat := by
      rw [hs]
      exact hstored.load_eq (by omega) (by omega)
    -- the chunk lands in one piece, and the rest of the source is still in place
    have hfirst : Writes (2 ^ 32) buf (memcpy buf (d % 2 ^ 32) (text.take chunk.toNat)) d
        (text.take chunk.toNat) := memcpy_writes _ _ _ (by omega)
    have hrest : Stored (2 ^ 32) buf (s + chunk.toNat) (text.drop chunk.toNat) := by
      have hsplit : Stored (2 ^ 32) buf s (text.take chunk.toNat ++ text.drop chunk.toNat) := by
        rwa [List.take_append_drop]
      have := (stored_append.mp hsplit).2
      rwa [htake] at this
    have hkept := hrest.frame hfirst.unchanged (by
      intro i hi j hj
      rw [Nat.add_assoc]
      exact hapart _ (by omega) _ (by omega))
    have hsecond := @ih (s + chunk.toNat) (d + chunk.toNat) (text.drop chunk.toNat)
      (by rw [ringIndex_toNat, UInt64.toNat_add]; omega)
      (by rw [ringIndex_toNat, UInt64.toNat_add]; omega)
      (by rw [UInt64.toNat_sub]; omega) (by omega)
      (by rw [hload, hd]; exact hkept)
      (by rw [hdrop]; exact hapart.drop)
    rw [hload, hd] at hsecond ⊢
    have hall := hfirst.append (text.drop chunk.toNat) (by rw [htake]; exact hsecond) (by omega)
    rwa [List.take_append_drop] at hall
  | case2 buf src dst bytesLeft hpos =>
    have hzero : ¬ 0 < bytesLeft.toNat := by rw [UInt64.lt_iff_toNat_lt] at hpos; exact hpos
    obtain rfl : text = [] := List.length_eq_zero_iff.mp (by omega)
    exact .nil

section Rescue
variable {V : Type*} {arena : MemoryArena V} {T H : ℕ}

/-- The copy that a rescue lays down, when no cell of it is one of the source text. -/
theorem rescuePayload_of_allocate {tail offset : UInt64} {header : PayloadHeader}
    {allocated : MemoryArena V} {v : ℕ} {text : List UInt8}
    (halloc : arena.allocatePayload header.length = .ok (offset, allocated))
    (ht : tail.toNat % 2 ^ 32 = T % 2 ^ 32) (hv : offset.toNat % 2 ^ 32 = v % 2 ^ 32)
    (hfits : v % 2 ^ 32 + 12 ≤ 2 ^ 32) (hlen : header.length.toNat = text.length)
    (hlt : 12 + text.length ≤ 2 ^ 32)
    (htext : Stored (2 ^ 32) arena.bufferPayload (T + 12) text)
    (hheader : Apart (2 ^ 32) (T + 12) text.length v 12)
    (hapart : Apart (2 ^ 32) (T + 12) text.length (v + 12) text.length) :
    ∃ buf, arena.rescuePayload tail header =
        .ok (offset, { allocated with bufferPayload := buf }) ∧
      Writes (2 ^ 32) arena.bufferPayload buf v
        ((⟨validIdentifier,header.nodeId,header.length⟩ : PayloadHeader).bytes ++ text) := by
  obtain ⟨-,-,hbuf,-⟩ := allocatePayload_fields halloc
  generalize hnew : (⟨validIdentifier,header.nodeId,header.length⟩ : PayloadHeader) = newHeader
  have hfirst := memcpy_writes (N := 2 ^ 32) arena.bufferPayload v newHeader.bytes
    (by rw [PayloadHeader.bytes_length]; exact hfits)
  have hkept := htext.frame hfirst.unchanged (by rw [PayloadHeader.bytes_length]; exact hheader)
  have hcopy := @copyChunks_writes (memcpy arena.bufferPayload (v % 2 ^ 32) newHeader.bytes)
    (ringIndex (tail + sizeofPayloadHeader)) (ringIndex (offset + sizeofPayloadHeader))
    header.length.toUInt64 (T + 12) (v + 12) text
    (by rw [ringIndex_toNat, UInt64.toNat_add, sizeofPayloadHeader_toNat]; omega)
    (by rw [ringIndex_toNat, UInt64.toNat_add, sizeofPayloadHeader_toNat]; omega)
    (by rw [UInt32.toNat_toUInt64, hlen]) (by omega) hkept hapart
  have hstart : (offset &&& (payloadBufferSize - 1)).toNat = v % 2 ^ 32 := by
    rw [and_payloadBufferSize_toNat, hv]
  simp only [MemoryArena.rescuePayload, halloc, hnew, hstart, hbuf]
  refine ⟨_,rfl,hfirst.append _ ?_ (by rw [PayloadHeader.bytes_length]; omega)⟩
  rw [PayloadHeader.bytes_length]
  exact hcopy

theorem rescuePayload_ok {r : PayloadRecord} (hhead : arena.writeHead = .ofNat H)
    (htail : arena.readTail = .ofNat T) (hle : T + r.encode.length ≤ H)
    (hroom : H ≤ T + 2 ^ 32) (hstored : Stored (2 ^ 32) arena.bufferPayload T r.encode)
    (h : H + r.encode.length < T + 2 ^ 32) :
    ∃ buf, arena.rescuePayload arena.readTail r.header = .ok (.ofNat (place (2 ^ 32) 12 H),
        { arena with
          writeHead := .ofNat (place (2 ^ 32) 12 H + r.encode.length)
          bufferPayload := buf }) ∧
      Writes (2 ^ 32) arena.bufferPayload buf (place (2 ^ 32) 12 H) r.encode := by
  have hsize := r.encode_length
  have hheaderLen := r.header_length_toNat
  have hfits := place_fits (show 0 < 2 ^ 32 by decide) (show 12 ≤ 2 ^ 32 by decide) H
  obtain ⟨hplace,hgap⟩ := place_bounds H
  have halloc := allocatePayload_ok r.header.length hhead htail (by omega) hroom
    (by omega)
  have htext : Stored (2 ^ 32) arena.bufferPayload (T + 12) r.payload := by
    have := (stored_append.mp hstored).2
    rwa [PayloadHeader.bytes_length] at this
  have hnext : 12 + r.header.length.toNat = r.encode.length := by omega
  rw [hnext] at halloc
  -- the new record may run into the header of the source, but not into its text
  exact rescuePayload_of_allocate halloc (by rw [htail, UInt64.toNat_ofNat']; omega)
    (by rw [UInt64.toNat_ofNat']; omega) hfits hheaderLen (by omega) htext
    (apart_of_le (by omega) (by omega)) (apart_of_le (by omega) (by omega))

theorem rescuePayload_full {r : PayloadRecord} (hhead : arena.writeHead = .ofNat H)
    (htail : arena.readTail = .ofNat T) (hle : T ≤ H) (hroom : H ≤ T + 2 ^ 32)
    (h : T + 2 ^ 32 ≤ H + r.encode.length) :
    arena.rescuePayload arena.readTail r.header = .error (.thrown "Resource Exhausted") := by
  have hsize := r.encode_length
  have hheaderLen := r.header_length_toNat
  simp only [MemoryArena.rescuePayload,
    allocatePayload_full r.header.length hhead htail hle hroom (by omega)]

end Rescue

end Strix
