import TriageFlow.Engine.Collaborator
import TriageFlow.Json.Reader
import TriageFlow.Memory.Blob

/-!
A store of documents with their vectors, in two tables. Documents are numbered from one in the order
they come. A search joins the tables and gives the documents that score above a threshold, the best
first and equal ones in their order.
-/

namespace TriageFlow

open Json (Value)

/-- A stored document. Its metadata is kept as text. -/
structure Document where
  content : String
  metadata : String
  vector : Vector32

/-- A document with metadata. -/
def Document.of (content : String) (metadata : Value) (vector : Vector32) : Document :=
  ⟨content, metadata.compact, vector⟩

/-- A row of the table of documents. -/
structure DocumentRow where
  id : Nat
  content : String
  metadata : String

/-- A row of the table of vectors. -/
structure VectorRow where
  documentId : Nat
  vector : Blob

/-- A store: the rows of both tables in the order they came. Documents differ in their ids, and each
has one vector. -/
structure Store where
  documentRows : List DocumentRow
  vectorRows : List VectorRow
  nodup : (documentRows.map DocumentRow.id).Nodup
  inStep : vectorRows.map VectorRow.documentId = documentRows.map DocumentRow.id

namespace Store

/-- A store without documents. -/
def empty : Store := ⟨[], [], .nil, rfl⟩

/-- The number of documents. -/
def count (s : Store) : Nat := s.documentRows.length

/-- The id of the next document: one more than the greatest. -/
def nextId (rows : List DocumentRow) : Nat := (rows.map DocumentRow.id).max?.getD 0 + 1

theorem lt_nextId {rows : List DocumentRow} {d : DocumentRow} (h : d ∈ rows) :
    d.id < nextId rows :=
  Nat.lt_succ_of_le (List.le_max?_getD_of_mem (List.mem_map_of_mem h))

/-- Adds a row to each table: a document, and its vector under the id of the document. -/
def add (s : Store) (content metadata : String) (bits : List UInt32) : Store where
  documentRows := s.documentRows ++ [⟨nextId s.documentRows, content, metadata⟩]
  vectorRows := s.vectorRows ++ [⟨nextId s.documentRows, .ofBits bits⟩]
  nodup := by
    rw [List.map_append, List.nodup_append]
    refine ⟨s.nodup, List.pairwise_singleton _ _, fun i hi j hj => ?_⟩
    obtain ⟨d, hd, rfl⟩ := List.mem_map.mp hi
    rw [List.mem_singleton.mp hj]
    exact Nat.ne_of_lt (lt_nextId hd)
  inStep := by rw [List.map_append, List.map_append, s.inStep]; rfl

/-- Adds a document. -/
def insert (s : Store) (d : Document) : Store := s.add d.content d.metadata (Vector32.bits d.vector)

/-- The join of the tables: every vector with the documents that it belongs to. -/
def joined (s : Store) : List (DocumentRow × VectorRow) :=
  s.vectorRows.flatMap fun v =>
    (s.documentRows.filter fun d => d.id == v.documentId).map fun d => (d, v)

/-- What is read from the tables: content, metadata as text, and the bits of the vector. -/
def contents (s : Store) : List (String × String × List UInt32) :=
  s.joined.map fun row => (row.1.content, row.1.metadata, row.2.vector.bits)

/-- The documents as they are read from the tables. -/
def documents (s : Store) : List Document :=
  s.contents.map fun row => ⟨row.1, row.2.1, .ofBits row.2.2⟩

/-- A document as a hit for a query. Metadata that cannot be read back are null. -/
def score (query : Vector32) (d : Document) : Hit :=
  ⟨d.content, similarity query d.vector, (Value.ofText? d.metadata).getD .null⟩

/-- Whether a hit is left out for its score. A score that is no number is not left out. -/
def isBelow (threshold : Float32) (h : Hit) : Bool := h.similarity ≤ threshold

/-- Whether one hit may stand before another. Scores without an order count as equal. -/
def mayPrecede (a b : Hit) : Bool := !(a.similarity < b.similarity)

/-- Puts a hit before the first one that it may precede. -/
def place (h : Hit) : List Hit → List Hit
  | [] => [h]
  | k :: rest => if mayPrecede h k then h :: k :: rest else k :: place h rest

/-- Hits by descending score; equal ones keep their order. Between hits one of whose scores is no
number there is no order to sort by, and where they stand is left open: of such hits it is only
claimed that they are there. -/
def rank (hits : List Hit) : List Hit := hits.foldr place []

/-- The best hits among documents for a query, at most `limit` of them. -/
def best (documents : List Document) (query : Vector32) (threshold : Float32) (limit : Nat) :
    List Hit :=
  (rank ((documents.map (score query)).filter fun h => !isBelow threshold h)).take limit

/-- The best hits for a query, at most `limit` of them. -/
def search (s : Store) (query : Vector32) (threshold : Float32) (limit : Nat) : List Hit :=
  best s.documents query threshold limit

end Store

/-- What turns a text into the bits of a vector, or says why it cannot. -/
abbrev BitEmbedder := String → Except String (List UInt32)

/-- What turns a text into a vector, or says why it cannot. -/
abbrev Embedder := String → Except String Vector32

/-- The embedder, in bits. -/
def Embedder.bits (embed : Embedder) : BitEmbedder := fun text => (embed text).map Vector32.bits

namespace Memory

/-- The failure of an embedder. -/
def embeddingFault (message : String) : Fault := .service "embedding" message

/-- A memory over a store: content is embedded, and saved or searched for. -/
def ofBits (embed : BitEmbedder) (threshold : Float32) (count : Nat) : Memory Store where
  retrieve query s :=
    match embed query with
    | .error message => (.settled (.error (embeddingFault message)) 0, s)
    | .ok bits => (.settled (.ok (s.search (.ofBits bits) threshold count)) 0, s)
  save content metadata s :=
    match embed content with
    | .error message => (.settled (.error (embeddingFault message)) 0, s)
    | .ok bits => (.settled (.ok ()) 0, s.add content metadata.compact bits)

/-- A memory over a store whose embedder gives floats. -/
def vector (embed : Embedder) (threshold : Float32) (count : Nat) : Memory Store :=
  ofBits embed.bits threshold count

end Memory

end TriageFlow
