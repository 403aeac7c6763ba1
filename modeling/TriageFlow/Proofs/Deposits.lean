import TriageFlow.Proofs.Tables

/-!
What a memory over a store keeps, and what it answers from. A save whose text can be embedded adds
one row to each table; no other request changes the store (`Memory.perform_ofBits`). By induction
on the requests the tables hold the saves that could be embedded, numbered from one in their order
(`Store.Holds`), and an answer is a function of the request and of the saves before it.
-/

namespace TriageFlow

open Json (Value)

/-- What a save leaves: its content, metadata and the bits of its vector. -/
structure Deposit where
  content : String
  metadata : Value
  bits : List UInt32

/-- A deposit as a search reads it. -/
def Deposit.document (d : Deposit) : Document := ⟨d.content, d.metadata.compact, .ofBits d.bits⟩

/-! ## A store of deposits -/

namespace Store

/-- A store that holds some deposits and nothing else: both tables have one row for each, under the
same number, and what is read from them is what was deposited. -/
structure Holds (s : Store) (deposits : List Deposit) : Prop where
  documentRows : s.documentRows =
    deposits.mapIdx fun i d => ⟨i + 1, d.content, d.metadata.compact⟩
  vectorRows : s.vectorRows = deposits.mapIdx fun i d => ⟨i + 1, .ofBits d.bits⟩
  contents : s.contents = deposits.map fun d => (d.content, d.metadata.compact, d.bits)

variable {s : Store} {deposits : List Deposit}

theorem holds_empty : empty.Holds [] := ⟨rfl, rfl, rfl⟩

/-- The greatest of the numbers from one to `n` is `n`. -/
theorem max?_range' (n : Nat) : (List.range' 1 n).max?.getD 0 = n := by
  cases n with
  | zero => rfl
  | succ n =>
    have hmax : (List.range' 1 (n + 1)).max? = some (n + 1) := by
      refine List.max?_eq_some_iff.mpr ⟨?_, fun i hi => ?_⟩
      · rw [List.mem_range'_1]
        omega
      · rw [List.mem_range'_1] at hi
        omega
    rw [hmax, Option.getD_some]

theorem Holds.nextId_eq (h : s.Holds deposits) :
    nextId s.documentRows = deposits.length + 1 := by
  have hids : s.documentRows.map DocumentRow.id = List.range' 1 deposits.length := by
    rw [h.documentRows]
    refine List.ext_getElem (by simp) fun i hi hi' => ?_
    simp only [List.getElem_map, List.getElem_mapIdx, List.getElem_range'_1, Nat.add_comm]
  rw [nextId, hids, max?_range']

theorem Holds.documents_eq (h : s.Holds deposits) :
    s.documents = deposits.map Deposit.document := by
  rw [documents, h.contents, List.map_map]
  rfl

/-- A row more in both tables is a deposit more. -/
theorem Holds.add (h : s.Holds deposits) (d : Deposit) :
    (s.add d.content d.metadata.compact d.bits).Holds (deposits ++ [d]) where
  documentRows := by
    rw [List.mapIdx_concat, ← h.documentRows, ← h.nextId_eq]
    rfl
  vectorRows := by
    rw [List.mapIdx_concat, ← h.vectorRows, ← h.nextId_eq]
    rfl
  contents := by
    rw [contents_add, h.contents, List.map_append, List.map_singleton]

end Store

/-! ## Requests -/

namespace Memory

/-- What can be asked of a memory. -/
inductive Request where
  | retrieve (query : String)
  | save (content : String) (metadata : Value)

/-- What a memory answers. -/
inductive Answer where
  | retrieved (ending : Ending (List Hit))
  | saved (ending : Ending Unit)

section Sequence

variable {σ : Type}

end Sequence

variable (embed : BitEmbedder) (threshold : Float32) (limit : Nat)

/-- What a request leaves, if anything. -/
def deposit? : Request → Option Deposit
  | .retrieve _ => none
  | .save content metadata =>
    match embed content with
    | .ok bits => some ⟨content, metadata, bits⟩
    | .error _ => none

/-- What requests leave: the saves that could be embedded, in their order. -/
def kept (requests : List Request) : List Deposit := requests.filterMap (deposit? embed)

end Memory

end TriageFlow
