import Mathlib
import TriageFlow.Memory.Store

/-!
The tables of a store. A vector is read from its bytes as it was written, whatever its bits
(`Blob.bits_ofBits`). The ids of the documents differ and each vector has the id of one, so the join
finds for a new vector its own document and for the others what it found before
(`Store.joined_add`): what is read from the tables is what was added, in that order.
-/

namespace TriageFlow

open Json (Value)

/-! ## Vectors in bytes -/

namespace Blob

/-- Every bit of a word is found in one of its bytes. -/
theorem word_bytes (w : UInt32) :
    word w.toUInt8 (w >>> 8).toUInt8 (w >>> 16).toUInt8 (w >>> 24).toUInt8 = w := by
  rw [← UInt32.toBitVec_inj]
  simp only [word, UInt32.toBitVec_or, UInt32.toBitVec_shiftLeft, UInt8.toBitVec_toUInt32,
    UInt32.toBitVec_toUInt8, UInt32.toBitVec_shiftRight]
  -- at place `i` every byte is zero but the one that the bit lies in
  ext i hi
  simp only [UInt32.toBitVec_ofNat, BitVec.ofNat_eq_ofNat, BitVec.reduceMod, BitVec.ushiftRight_eq',
    BitVec.toNat_ofNat, Nat.reducePow, Nat.reduceMod, BitVec.shiftLeft_eq', BitVec.getElem_or,
    BitVec.getElem_setWidth, BitVec.getLsbD_setWidth, BitVec.getElem_shiftLeft,
    BitVec.getLsbD_ushiftRight]
  grind

theorem bits_ofWord_append (w : UInt32) (rest : Blob) :
    bits (ofWord w ++ rest) = w :: bits rest := by
  simp only [ofWord, List.cons_append, List.nil_append, bits, word_bytes]

theorem bits_ofBits (ws : List UInt32) : bits (ofBits ws) = ws := by
  induction ws with
  | nil => rfl
  | cons w ws ih =>
    rw [ofBits, List.flatMap_cons, bits_ofWord_append]
    exact congrArg (w :: ·) ih

end Blob

/-! ## The join -/

namespace Store

variable (s : Store) (content metadata : String) (bits : List UInt32)

/-- Every vector belongs to a document with a smaller id than the next one. -/
theorem documentId_lt_nextId {v : VectorRow} (hv : v ∈ s.vectorRows) :
    v.documentId < nextId s.documentRows := by
  have hid : v.documentId ∈ s.documentRows.map DocumentRow.id :=
    s.inStep ▸ List.mem_map_of_mem hv
  obtain ⟨d, hd, hd'⟩ := List.mem_map.mp hid
  exact hd' ▸ lt_nextId hd

/-- The join of the tables with a new row each: the new vector goes with the new document, and the
others go with the documents that they went with. -/
theorem joined_add :
    (s.add content metadata bits).joined = s.joined ++
      [(⟨nextId s.documentRows, content, metadata⟩, ⟨nextId s.documentRows, .ofBits bits⟩)] := by
  unfold joined add
  dsimp only
  rw [List.flatMap_append, List.flatMap_singleton]
  congr 1
  -- no vector that was there belongs to the new document
  · refine List.flatMap_congr fun v hv => ?_
    have hother : (nextId s.documentRows == v.documentId) = false :=
      beq_eq_false_iff_ne.mpr (Nat.ne_of_gt (s.documentId_lt_nextId hv))
    rw [List.filter_append, List.filter_cons_of_neg (by simp [hother]), List.filter_nil,
      List.append_nil]
  -- and the new vector belongs to no document that was there
  · have hold : s.documentRows.filter (fun d => d.id == nextId s.documentRows) = [] :=
      List.filter_eq_nil_iff.mpr fun d hd heq =>
        Nat.ne_of_lt (lt_nextId hd) (beq_iff_eq.mp heq)
    rw [List.filter_append, hold, List.filter_cons_of_pos (by simp)]
    rfl

/-- What is read after a row more in both tables, whatever the bits of the vector. -/
theorem contents_add :
    (s.add content metadata bits).contents = s.contents ++ [(content, metadata, bits)] := by
  rw [contents, joined_add, List.map_append, List.map_singleton, Blob.bits_ofBits]
  rfl

end Store

/-! ## Embedders that give floats -/

namespace Memory

variable (embed : Embedder) (threshold : Float32) (count : Nat)

end Memory

end TriageFlow
