import Mathlib.Data.List.Sort
import Mathlib.Data.Prod.Lex
import ValkeySearch.Indexes.Bookkeeping

/-
  The search side of `VectorBase` (src/indexes/vector_base.cc): the kernel's heap,
  `CreateReply` and `ComputeDistanceFromRecord`.

  Model. A kernel's `std::priority_queue<std::pair<T, labeltype>>` is what `top`, `pop`,
  `emplace` and `size` observe of it: its elements in the order `pop` removes them, a list
  sorted farthest first under the lexicographic order of pairs, the order kept as a field
  (`PriorityQueue`). Here distances are any linear order; the floats with NaN are in
  `Prefilter`. `ComputeDistanceFromRecord` reads the kernel's `_ComputeDistanceFromRecord` as
  a parameter.

  Proved:
  * `createReply_eq`, `createReply_sorted`: `CreateReply` keeps one `Neighbor` per heap entry
    whose label is still tracked, in `pop` order, so farthest first;
    `createReply_farthest_first`: on two tracked keys the farther comes first.
  * `computeDistanceFromRecord_eq_ok`: a key has a distance exactly when it is tracked and the
    kernel scores its id.
-/

namespace ValkeySearch

/-! ## `std::priority_queue<std::pair<T, labeltype>>` -/

section PriorityQueue

variable {D : Type} [LinearOrder D]

/-- `a` leaves a `std::priority_queue<std::pair<D, labeltype>>` no later than `b`: the queue
is a max-heap under the lexicographic order of pairs. -/
def PopsBefore (a b : D × Nat) : Prop := toLex b ≤ toLex a

instance : DecidableRel (@PopsBefore D _) := fun a b =>
  inferInstanceAs (Decidable (toLex b ≤ toLex a))

instance : IsTotal (D × Nat) PopsBefore := ⟨fun a b => le_total (toLex b) (toLex a)⟩

instance : IsTrans (D × Nat) PopsBefore := ⟨fun _ _ _ hab hbc => le_trans hbc hab⟩

theorem PopsBefore.fst_le {a b : D × Nat} (h : PopsBefore a b) : b.1 ≤ a.1 :=
  ((Prod.Lex.le_iff b a).1 h).elim le_of_lt fun h => h.1.le

/-- A kernel's `std::priority_queue<std::pair<D, labeltype>>`, as its elements in the order
`pop` removes them. -/
structure PriorityQueue (D : Type) [LinearOrder D] where
  elems : List (D × Nat)
  sorted : elems.Sorted PopsBefore

namespace PriorityQueue

/-- A new, empty heap. -/
def empty : PriorityQueue D := ⟨[], List.sorted_nil⟩

/-- `size()`. -/
def size (q : PriorityQueue D) : Nat := q.elems.length

/-- `top()`; `none` on an empty heap, where `top()` is undefined. -/
def top? (q : PriorityQueue D) : Option (D × Nat) := q.elems.head?

/-- `pop()`. -/
def pop (q : PriorityQueue D) : PriorityQueue D := ⟨q.elems.tail, q.sorted.tail⟩

/-- `emplace(x)`. -/
def emplace (q : PriorityQueue D) (x : D × Nat) : PriorityQueue D :=
  ⟨q.elems.orderedInsert PopsBefore x, q.sorted.orderedInsert x _⟩

/-- The labels in the heap. -/
def labels (q : PriorityQueue D) : List Nat := q.elems.map Prod.snd

variable {q : PriorityQueue D} {x t e : D × Nat}

@[simp] theorem size_emplace : (q.emplace x).size = q.size + 1 :=
  List.orderedInsert_length _ _ _

theorem mem_emplace : e ∈ (q.emplace x).elems ↔ e = x ∨ e ∈ q.elems := List.mem_orderedInsert _

theorem labels_emplace_perm : (q.emplace x).labels.Perm (x.2 :: q.labels) :=
  (List.perm_orderedInsert _ x q.elems).map Prod.snd

theorem mem_labels_emplace {l : Nat} : l ∈ (q.emplace x).labels ↔ l = x.2 ∨ l ∈ q.labels := by
  rw [labels_emplace_perm.mem_iff, List.mem_cons]

theorem mem_of_mem_pop (h : e ∈ q.pop.elems) : e ∈ q.elems := List.mem_of_mem_tail h

theorem elems_of_top? (h : q.top? = some t) : q.elems = t :: q.pop.elems :=
  List.eq_cons_of_mem_head? h

theorem top?_mem (h : q.top? = some t) : t ∈ q.elems :=
  elems_of_top? h ▸ List.mem_cons_self _ _

theorem labels_of_top? (h : q.top? = some t) : q.labels = t.2 :: q.pop.labels := by
  simp [labels, elems_of_top? h]

theorem exists_top?_of_pos (h : 0 < q.size) : ∃ t, q.top? = some t := by
  cases hq : q.elems with
  | nil => simp [size, hq] at h
  | cons t _ => exact ⟨t, by simp [top?, hq]⟩

/-- `top()` is a farthest entry. -/
theorem le_top (h : q.top? = some t) (he : e ∈ q.elems) : e.1 ≤ t.1 := by
  have hs := q.sorted
  rw [elems_of_top? h] at hs he
  rcases List.mem_cons.1 he with rfl | he
  · exact le_rfl
  · exact (List.rel_of_sorted_cons hs e he).fst_le

/-- Popped in reverse, a heap's distances come nearest first. -/
theorem sorted_distances (q : PriorityQueue D) :
    (q.elems.map Prod.fst).reverse.Sorted (· ≤ ·) := by
  rw [List.Sorted, List.pairwise_reverse, List.pairwise_map]
  exact q.sorted.imp PopsBefore.fst_le

end PriorityQueue

end PriorityQueue

/-! ## `CreateReply` -/

/-- A value of a neighbor's `attribute_contents`: the attribute's identifier and its
value. -/
structure RecordsMapValue where
  identifier : String
  value : String
  deriving DecidableEq

/-- `Neighbor`: a result key, its distance, and the attributes `ProcessNeighborsForReply`
fetched for it (as many as the record map holds, in its iteration order). -/
structure Neighbor (D : Type) where
  externalId : String
  distance : D
  attributeContents : Option (List (String × RecordsMapValue)) := none
  deriving DecidableEq

namespace VectorBase

variable {D : Type}

/-- The loop of `CreateReply`, over the heap's entries in `pop` order: each label that
`GetKeyDuringSearch` still resolves is appended to `ret` (`emplace_back`), the others are
skipped. -/
def createReplyLoop (s : VectorBase) : List (D × Nat) → List (Neighbor D) → List (Neighbor D)
  | [], ret => ret
  | ele :: rest, ret =>
    match s.getKeyDuringSearch ele.2 with
    | .error _ => s.createReplyLoop rest ret
    | .ok vectorKey => s.createReplyLoop rest (ret ++ [⟨vectorKey, ele.1, none⟩])

/-- `CreateReply` (its status is always OK). -/
def createReply [LinearOrder D] (s : VectorBase) (knnRes : PriorityQueue D) : List (Neighbor D) :=
  s.createReplyLoop knnRes.elems []

/-- The `Neighbor` that `CreateReply` makes of a heap entry, if its label is tracked. -/
def neighborOf (s : VectorBase) (ele : D × Nat) : Option (Neighbor D) :=
  (s.keyByInternalId.lookup ele.2).map fun key => ⟨key, ele.1, none⟩

theorem createReplyLoop_eq (s : VectorBase) (l : List (D × Nat)) (ret : List (Neighbor D)) :
    s.createReplyLoop l ret = ret ++ l.filterMap s.neighborOf := by
  induction l generalizing ret with
  | nil => simp [createReplyLoop]
  | cons ele rest ih =>
    cases h : s.keyByInternalId.lookup ele.2 <;>
      simp [createReplyLoop, getKeyDuringSearch, neighborOf, h, ih]

/-- `CreateReply` keeps exactly the heap entries whose label is still tracked, each as the
`Neighbor` of its key and distance, in the order `pop` gives them. -/
theorem createReply_eq [LinearOrder D] (s : VectorBase) (knnRes : PriorityQueue D) :
    s.createReply knnRes = knnRes.elems.filterMap s.neighborOf := by
  simp [createReply, createReplyLoop_eq]

/-- `CreateReply` lists its neighbors farthest first. -/
theorem createReply_sorted [LinearOrder D] (s : VectorBase) (knnRes : PriorityQueue D) :
    (s.createReply knnRes).Sorted fun a b => b.distance ≤ a.distance := by
  rw [createReply_eq]
  refine List.Pairwise.filterMap _ (fun a a' h b hb b' hb' => ?_) knnRes.sorted
  simp only [neighborOf, Option.mem_def, Option.map_eq_some'] at hb hb'
  obtain ⟨_, -, rfl⟩ := hb
  obtain ⟨_, -, rfl⟩ := hb'
  exact h.fst_le

/-- Two keys added to a new index: `a` under id 0, `b` under id 1. -/
def twoKeyIndex : VectorBase :=
  (empty flatL2Dim1).run [(.addRecord "a" [0, 0, 0, 0], {}), (.addRecord "b" [0, 0, 0, 0], {})]

/-- A kernel's answer to a two-nearest search: `b` at distance 2 on top, `a` at distance 1. -/
def twoHits : PriorityQueue Nat := ⟨[(2, 1), (1, 0)], by decide⟩

theorem createReply_farthest_first :
    (twoKeyIndex.createReply twoHits).map (fun n => (n.externalId, n.distance)) =
        [("b", 2), ("a", 1)] ∧
      ¬(twoKeyIndex.createReply twoHits).Sorted fun a b => a.distance ≤ b.distance := by
  decide

/-! ## `ComputeDistanceFromRecord` -/

/-- `GetInternalIdDuringSearch`: `GetInternalId` without the metadata lock. -/
def getInternalIdDuringSearch (s : VectorBase) (key : String) : Except String Nat :=
  s.getInternalId key

/-- `ComputeDistanceFromRecord`, with the kernel's `_ComputeDistanceFromRecord(·, query)` as
`impl`. -/
def computeDistanceFromRecord (s : VectorBase) (impl : Nat → Except String (D × Nat))
    (key : String) : Except String (D × Nat) := do
  let internalId ← s.getInternalIdDuringSearch key
  impl internalId

theorem computeDistanceFromRecord_eq_ok {s : VectorBase} {impl : Nat → Except String (D × Nat)}
    {key : String} {e : D × Nat} :
    s.computeDistanceFromRecord impl key = .ok e ↔
      ∃ md, s.trackedMetadataByKey.lookup key = some md ∧ impl md.internalId = .ok e := by
  cases h : s.trackedMetadataByKey.lookup key <;>
    simp [computeDistanceFromRecord, getInternalIdDuringSearch, getInternalId, h, bind,
      Except.bind]

end VectorBase

end ValkeySearch
