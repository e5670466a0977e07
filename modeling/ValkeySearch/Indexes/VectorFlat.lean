import Mathlib.Data.List.Infix
import ValkeySearch.Indexes.Prefilter

/-
  The flat kernel of `VectorFlat` (src/indexes/vector_flat.cc): `AddRecordImpl`, which
  retries `addPoint` after `ResizeIfFull` for as long as the kernel reports it full,
  `ModifyRecordImpl`, `RemoveRecordImpl`, `ComputeDistanceFromRecordImpl`, and `Search`.

  Model. hnswlib's `BruteforceSearch` is not in the sources. Of it the model keeps
  `cur_element_count_`, the capacity and the interned vector each label's row points to:
  `addPoint` throws exactly when the label is new and the index is full, `removePoint`
  forgets a label, and `resizeIndex` sets the capacity. `block_size_` is a `uint32_t`, the
  capacity a `size_t`; their sum in `ResizeIfFull` is taken mod `2^64`. The retry loop runs on
  fuel: `none` is a loop that has not ended. `ModifyRecordImpl` dereferences the row's pointer:
  once no entry of `tracked_vectors_` holds that vector it has been freed, and the read is
  undefined behaviour, modelled as `none`.

  Proved:
  * `addRecordImpl_eq_some`: a loop that returns returns OK, with the record stored under
    the id; `addPoint` throws only when the kernel is full, and that exception is retried.
  * `addRecordImpl_of_blockSize_pos`: with `block_size ≥ 1`, `addPoint` succeeds at once or
    after one `ResizeIfFull`, so two turns of the loop always return OK.
  * `addRecordImpl_loops`: with `block_size = 0`, a full index and a new label, the loop
    never ends: `ResizeIfFull` resizes to the same capacity. At a concrete index:
    `addRecordImpl_block_size_zero_never_returns`.
  * `modifyRecordImpl_of_held`, `modifyRecordImpl_of_released`: on a stored id,
    `ModifyRecordImpl` returns whether the record differs from the row's vector and points
    the row at the record while that vector is held, and reads freed memory once it is not;
    `modifyRecordImpl_eq_some`: so on a stored id it never fails.
  * `labelInjective_flat`: on an index whose maps are inverse, the flat distances give
    distinct keys distinct labels, as `AddPrefilteredKey` needs.
-/

namespace ValkeySearch

/-- `absl::StrContains(haystack, needle)`. -/
def strContains (haystack needle : String) : Bool :=
  decide (needle.toList <:+: haystack.toList)

theorem strContains_self (s : String) : strContains s s = true :=
  decide_eq_true (List.infix_refl _)

/-- Modelled from the spec: the part of hnswlib's `BruteforceSearch` that the flat index
reads: its element count, its capacity, and the vector each label's row points to
(`dict_external_to_internal` with the rows of `data_`). A row holds a `char *` into an
interned vector (vector_flat.cc:192-199); interning keeps one object per contents, so the
model names the object a row points to by its contents. -/
structure BruteforceSearch where
  curElementCount : Nat
  maxElements : Nat
  maxElements_lt : maxElements < 2 ^ 64
  data : Finmap fun _ : Nat => List UInt8

namespace BruteforceSearch

/-- The message of the exception `addPoint` throws on a full index. -/
def fullMessage : String := "The number of elements exceeds the specified limit"

/-- Modelled from the spec: `addPoint(datapoint, label)` overwrites the vector of a stored
label, throws when a new label meets a full index, and stores a new label otherwise. -/
def addPoint (b : BruteforceSearch) (datapoint : List UInt8) (label : Nat) :
    Except String BruteforceSearch :=
  if label ∈ b.data then .ok { b with data := b.data.insert label datapoint }
  else if b.curElementCount = b.maxElements then .error fullMessage
  else .ok { b with curElementCount := b.curElementCount + 1,
                    data := b.data.insert label datapoint }

/-- Modelled from the spec: `removePoint(label)` forgets a stored label and its vector; an
unknown label is ignored. -/
def removePoint (b : BruteforceSearch) (label : Nat) : BruteforceSearch :=
  if label ∈ b.data then
    { b with curElementCount := b.curElementCount - 1, data := b.data.erase label }
  else b

/-- Modelled from the spec: `resizeIndex(c)` sets the capacity to `c`. -/
def resizeIndex (b : BruteforceSearch) (c : Nat) (hc : c < 2 ^ 64) : BruteforceSearch :=
  { b with maxElements := c, maxElements_lt := hc }

variable {b b' : BruteforceSearch} {datapoint : List UInt8} {label : Nat}

theorem addPoint_eq_error {e : String} (h : b.addPoint datapoint label = .error e) :
    label ∉ b.data ∧ b.curElementCount = b.maxElements ∧ e = fullMessage := by
  unfold addPoint at h
  split_ifs at h with h₁ h₂
  cases h
  exact ⟨h₁, h₂, rfl⟩

theorem addPoint_eq_ok (h : b.addPoint datapoint label = .ok b') :
    b'.data = b.data.insert label datapoint ∧
      b'.curElementCount = if label ∈ b.data then b.curElementCount else b.curElementCount + 1 := by
  unfold addPoint at h
  split_ifs at h with h₁ <;> cases h <;> simp [h₁]

theorem removePoint_of_mem (h : label ∈ b.data) :
    (b.removePoint label).data = b.data.erase label ∧
      (b.removePoint label).curElementCount = b.curElementCount - 1 := by
  simp [removePoint, h]

theorem addPoint_of_not_full (datapoint : List UInt8) (label : Nat)
    (h : b.curElementCount ≠ b.maxElements) : ∃ b', b.addPoint datapoint label = .ok b' := by
  unfold addPoint
  split_ifs
  exacts [⟨_, rfl⟩, ⟨_, rfl⟩]

end BruteforceSearch

/-- A flat index's kernel: the brute-force index and `block_size_`. -/
structure VectorFlat where
  algo : BruteforceSearch
  blockSize : Nat
  blockSize_lt : blockSize < 2 ^ 32

namespace VectorFlat

/-- The kernel as `VectorFlat::Create` makes it: no elements, capacity `initial_cap`. -/
def create (initialCap blockSize : Nat) (hc : initialCap < 2 ^ 64)
    (hb : blockSize < 2 ^ 32) : VectorFlat :=
  ⟨⟨0, initialCap, hc, ∅⟩, blockSize, hb⟩

/-- `GetCapacity`: the kernel's capacity. -/
def getCapacity (f : VectorFlat) : Nat := f.algo.maxElements

/-- `ResizeIfFull` (its status is always OK): a full kernel grows by `block_size_`. -/
def resizeIfFull (f : VectorFlat) : VectorFlat :=
  if f.algo.curElementCount < f.getCapacity then f
  else if f.algo.curElementCount = f.getCapacity then
    { f with algo := f.algo.resizeIndex ((f.getCapacity + f.blockSize) % 2 ^ 64)
                       (Nat.mod_lt _ (by decide)) }
  else f

/-- `AddRecordImpl`'s `do … while (true)` loop, for at most `fuel` turns. -/
def addRecordImpl (f : VectorFlat) (internalId : Nat) (record : List UInt8) :
    Nat → Option (Except String Unit × VectorFlat)
  | 0 => none
  | fuel + 1 =>
    match f.algo.addPoint record internalId with
    | .ok algo => some (.ok (), { f with algo })
    | .error e =>
      if strContains e BruteforceSearch.fullMessage then
        f.resizeIfFull.addRecordImpl internalId record fuel
      else some (.error ("Error while adding a record: " ++ e), f)

/-- `RemoveRecordImpl` (`removePoint` does not throw). -/
def removeRecordImpl (f : VectorFlat) (internalId : Nat) : Except String Unit × VectorFlat :=
  (.ok (), { f with algo := f.algo.removePoint internalId })

/-- Whether an entry of `tracked_vectors_` holds the interned vector with contents `v`. The
entries of `tracked_vectors_` are the references the index keeps to its interned vectors, so a
vector none of them holds has been released. -/
def isHeld (trackedVectors : Finmap fun _ : Nat => List UInt8) (v : List UInt8) : Bool :=
  decide (∃ id ∈ trackedVectors.keys, trackedVectors.lookup id = some v)

/-- `ModifyRecordImpl`, with the `tracked_vectors_` of the same index: it reads the vector the
id's row points to (`saved_record`), which is freed memory (`none`) once no entry of
`tracked_vectors_` holds it; `false` when it equals the record, otherwise the row is pointed at
the record. -/
def modifyRecordImpl (f : VectorFlat) (trackedVectors : Finmap fun _ : Nat => List UInt8)
    (internalId : Nat) (record : List UInt8) : Option (Except String Bool × VectorFlat) :=
  match f.algo.data.lookup internalId with
  | none => some (.error ("Couldn't find internal id: " ++ toString internalId), f)
  | some savedRecord =>
    if isHeld trackedVectors savedRecord then
      if savedRecord = record then some (.ok false, f)
      else some (.ok true,
        { f with algo := { f.algo with data := f.algo.data.insert internalId record } })
    else none

theorem resizeIfFull_algo_data (f : VectorFlat) : f.resizeIfFull.algo.data = f.algo.data := by
  unfold resizeIfFull
  split_ifs <;> rfl

theorem resizeIfFull_algo_curElementCount (f : VectorFlat) :
    f.resizeIfFull.algo.curElementCount = f.algo.curElementCount := by
  unfold resizeIfFull
  split_ifs <;> rfl

theorem resizeIfFull_blockSize (f : VectorFlat) : f.resizeIfFull.blockSize = f.blockSize := by
  unfold resizeIfFull
  split_ifs <;> rfl

theorem isHeld_iff {trackedVectors : Finmap fun _ : Nat => List UInt8} {v : List UInt8} :
    isHeld trackedVectors v = true ↔ ∃ id, trackedVectors.lookup id = some v := by
  rw [isHeld, decide_eq_true_iff]
  exact ⟨fun ⟨id, _, h⟩ => ⟨id, h⟩, fun ⟨id, h⟩ =>
    ⟨id, Finmap.mem_keys.2 (Finmap.mem_of_lookup_eq_some h), h⟩⟩

/-- After `tracked_vectors_[id] = v`, a vector is held when it is `v` or another entry holds
it. -/
theorem isHeld_insert {trackedVectors : Finmap fun _ : Nat => List UInt8} {id : Nat}
    {v w : List UInt8} :
    isHeld (trackedVectors.insert id v) w = true ↔
      w = v ∨ ∃ id' ≠ id, trackedVectors.lookup id' = some w := by
  rw [isHeld_iff]
  constructor
  · rintro ⟨id', h⟩
    by_cases e : id' = id
    · rw [e, Finmap.lookup_insert] at h
      exact .inl (Option.some.inj h).symm
    · rw [Finmap.lookup_insert_of_ne _ e] at h
      exact .inr ⟨id', e, h⟩
  · rintro (rfl | ⟨id', e, h⟩)
    · exact ⟨id, Finmap.lookup_insert _⟩
    · exact ⟨id', by rw [Finmap.lookup_insert_of_ne _ e, h]⟩

/-- On a stored id whose vector is still held, `ModifyRecordImpl` returns whether the record
differs from it, points the row at the record, and keeps the element count and
`block_size_`. -/
theorem modifyRecordImpl_of_held {f : VectorFlat} {trackedVectors : Finmap fun _ : Nat => List UInt8}
    {internalId : Nat} (record : List UInt8) {saved : List UInt8}
    (hs : f.algo.data.lookup internalId = some saved) (hh : isHeld trackedVectors saved = true) :
    ∃ f', f.modifyRecordImpl trackedVectors internalId record =
        some (.ok (decide (saved ≠ record)), f') ∧
      f'.algo.data = f.algo.data.insert internalId record ∧
      f'.algo.curElementCount = f.algo.curElementCount ∧ f'.blockSize = f.blockSize := by
  unfold modifyRecordImpl
  rw [hs]
  dsimp only
  rw [if_pos hh]
  split_ifs with he
  · subst he
    refine ⟨_, by simp, Finmap.ext_lookup fun id => ?_, rfl, rfl⟩
    by_cases e : id = internalId
    · rw [e, hs, Finmap.lookup_insert]
    · rw [Finmap.lookup_insert_of_ne _ e]
  · exact ⟨{ f with algo := { f.algo with data := f.algo.data.insert internalId record } },
      by simp [he], rfl, rfl, rfl⟩

/-- On a stored id whose vector no entry of `tracked_vectors_` holds, `ModifyRecordImpl` reads
freed memory. -/
theorem modifyRecordImpl_of_released {f : VectorFlat}
    {trackedVectors : Finmap fun _ : Nat => List UInt8} {internalId : Nat} (record : List UInt8)
    {saved : List UInt8} (hs : f.algo.data.lookup internalId = some saved)
    (hh : isHeld trackedVectors saved = false) :
    f.modifyRecordImpl trackedVectors internalId record = none := by
  unfold modifyRecordImpl
  rw [hs]
  dsimp only
  rw [if_neg (by rw [hh]; decide)]

/-- On a stored id, whatever `ModifyRecordImpl` returns it returned from a held vector, as
`modifyRecordImpl_of_held` says: it never fails. -/
theorem modifyRecordImpl_eq_some {f f' : VectorFlat}
    {trackedVectors : Finmap fun _ : Nat => List UInt8} {internalId : Nat}
    {record saved : List UInt8} {r : Except String Bool}
    (hs : f.algo.data.lookup internalId = some saved)
    (hx : f.modifyRecordImpl trackedVectors internalId record = some (r, f')) :
    r = .ok (decide (saved ≠ record)) ∧ f'.algo.data = f.algo.data.insert internalId record ∧
      f'.algo.curElementCount = f.algo.curElementCount ∧ f'.blockSize = f.blockSize := by
  cases hh : isHeld trackedVectors saved
  · rw [modifyRecordImpl_of_released record hs hh] at hx
    cases hx
  obtain ⟨g, hg, hd⟩ := modifyRecordImpl_of_held record hs hh
  rw [hg] at hx
  cases hx
  exact ⟨rfl, hd⟩

/-- On a full kernel, `ResizeIfFull` sets the capacity to `capacity + block_size_`, mod
`2^64`. -/
theorem resizeIfFull_of_full {f : VectorFlat} (h : f.algo.curElementCount = f.getCapacity) :
    f.resizeIfFull.getCapacity = (f.getCapacity + f.blockSize) % 2 ^ 64 := by
  simp [resizeIfFull, h, getCapacity, BruteforceSearch.resizeIndex]

variable {f : VectorFlat} {internalId : Nat} {record : List UInt8}

/-- A turn whose `addPoint` reports the kernel full goes on with `ResizeIfFull`'s kernel. -/
theorem addRecordImpl_of_full {fuel : Nat} (hl : internalId ∉ f.algo.data)
    (hf : f.algo.curElementCount = f.getCapacity) :
    f.addRecordImpl internalId record (fuel + 1) =
      f.resizeIfFull.addRecordImpl internalId record fuel := by
  have : f.algo.addPoint record internalId = .error BruteforceSearch.fullMessage := by
    simp [BruteforceSearch.addPoint, hl, hf, getCapacity]
  simp [addRecordImpl, this, strContains_self]

theorem addRecordImpl_of_addPoint_ok {fuel : Nat} {algo : BruteforceSearch}
    (h : f.algo.addPoint record internalId = .ok algo) :
    f.addRecordImpl internalId record (fuel + 1) = some (.ok (), { f with algo }) := by
  simp [addRecordImpl, h]

/-- A returning `AddRecordImpl` returns OK (`addPoint` throws only when the kernel is full,
and that exception is retried), with the record stored under the id and one more element
when the id is new. -/
theorem addRecordImpl_eq_some {f' : VectorFlat} {r : Except String Unit} {fuel : Nat}
    (h : f.addRecordImpl internalId record fuel = some (r, f')) :
    r = .ok () ∧ f'.blockSize = f.blockSize ∧
      f'.algo.data = f.algo.data.insert internalId record ∧
      f'.algo.curElementCount = if internalId ∈ f.algo.data then f.algo.curElementCount
        else f.algo.curElementCount + 1 := by
  induction fuel generalizing f with
  | zero => nomatch h
  | succ fuel ih =>
    unfold addRecordImpl at h
    split at h
    · rename_i algo hadd
      cases h
      exact ⟨rfl, rfl, BruteforceSearch.addPoint_eq_ok hadd⟩
    · rename_i e hadd
      rw [(BruteforceSearch.addPoint_eq_error hadd).2.2, if_pos (strContains_self _)] at h
      simpa only [resizeIfFull_blockSize, resizeIfFull_algo_data,
        resizeIfFull_algo_curElementCount] using ih h

/-- With `block_size ≥ 1`, `AddRecordImpl` returns OK within two turns of its loop: at most
one `ResizeIfFull` runs. -/
theorem addRecordImpl_of_blockSize_pos (f : VectorFlat) (internalId : Nat)
    (record : List UInt8) (hb : 1 ≤ f.blockSize) (fuel : Nat) (hfuel : 2 ≤ fuel) :
    ∃ f', f.addRecordImpl internalId record fuel = some (.ok (), f') := by
  obtain ⟨fuel, rfl⟩ : ∃ n, fuel = n + 1 + 1 := ⟨fuel - 2, by omega⟩
  cases h : f.algo.addPoint record internalId with
  | ok algo => exact ⟨_, addRecordImpl_of_addPoint_ok h⟩
  | error e =>
    obtain ⟨hl, hf, -⟩ := BruteforceSearch.addPoint_eq_error h
    rw [addRecordImpl_of_full hl hf]
    -- the resize moved the capacity by `block_size_`, so the kernel is no longer full
    have hne : f.resizeIfFull.algo.curElementCount ≠ f.resizeIfFull.algo.maxElements := by
      have hcap := resizeIfFull_of_full hf
      have := f.algo.maxElements_lt
      have := f.blockSize_lt
      unfold getCapacity at hcap
      rw [resizeIfFull_algo_curElementCount, hcap, hf]
      omega
    obtain ⟨_, hok⟩ := BruteforceSearch.addPoint_of_not_full record internalId hne
    exact ⟨_, addRecordImpl_of_addPoint_ok hok⟩

/-- With `block_size = 0`, `ResizeIfFull` leaves a full kernel as it is. -/
theorem resizeIfFull_of_blockSize_zero (hb : f.blockSize = 0)
    (hf : f.algo.curElementCount = f.getCapacity) : f.resizeIfFull = f := by
  have hm := f.algo.maxElements_lt
  have hcap : (f.getCapacity + f.blockSize) % 2 ^ 64 = f.getCapacity := by
    unfold getCapacity
    omega
  simp only [resizeIfFull, hf, lt_irrefl, if_false, if_true, hcap]
  rfl

/-- With `block_size = 0`, a full kernel and a new label, `AddRecordImpl` never returns,
whatever the fuel. -/
theorem addRecordImpl_loops (hb : f.blockSize = 0) (hl : internalId ∉ f.algo.data)
    (hf : f.algo.curElementCount = f.getCapacity) :
    ∀ fuel, f.addRecordImpl internalId record fuel = none
  | 0 => rfl
  | fuel + 1 => by
    rw [addRecordImpl_of_full hl hf, resizeIfFull_of_blockSize_zero hb hf]
    exact addRecordImpl_loops hb hl hf fuel

/-- A flat index of dimension 1 created with `initial_cap = 1` and `block_size = 0`: the first
record (id 0) fills it, and the loop adding the second (id 1) never ends. -/
theorem addRecordImpl_block_size_zero_never_returns :
    ∃ f, (create 1 0 (by decide) (by decide)).addRecordImpl 0 [0, 0, 0, 0] 1 = some (.ok (), f) ∧
      ∀ fuel, f.addRecordImpl 1 [0, 0, 0, 0] fuel = none :=
  ⟨_, rfl, addRecordImpl_loops rfl (by decide) rfl⟩

/-! ## Distances and search -/

variable {D : Type}

/-- `ComputeDistanceFromRecordImpl`: `distance` is `fstdistfunc_` from the query to a stored
vector. -/
def computeDistanceFromRecordImpl (f : VectorFlat) (distance : List UInt8 → D)
    (internalId : Nat) : Except String (D × Nat) :=
  match f.algo.data.lookup internalId with
  | none => .error ("Couldn't find internal id: " ++ toString internalId)
  | some vector => .ok (distance vector, internalId)

/-- The flat kernel labels each distance with the id it was asked about, so on an index whose
maps are inverse distinct keys get distinct labels. -/
theorem labelInjective_flat {s : VectorBase} (h : Inverse s.trackedMetadataByKey s.keyByInternalId)
    (f : VectorFlat) (distance : List UInt8 → D) :
    LabelInjective (s.computeDistanceFromRecord (f.computeDistanceFromRecordImpl distance)) :=
  VectorBase.labelInjective_computeDistanceFromRecord h fun id e he => by
    unfold computeDistanceFromRecordImpl at he
    split at he
    · cases he
    · cases he
      rfl

/-- `VectorFlat::Search` on float32 vectors: the query must have `4 · dimensions` bytes; it
is normalised when the index normalises; the kernel's `searchKnn(query, min(count,
cur_element_count_))` is `searchKnn`, and its heap goes through `CreateReply`. -/
def search [LinearOrder D] (s : VectorBase) (f : VectorFlat) (query : List UInt8) (count : Nat)
    (searchKnn : List UInt8 → Nat → Except String (PriorityQueue D)) :
    Except String (List (Neighbor D)) :=
  if !isValidSizeVector s.params query then
    .error ("Error parsing vector similarity query: query vector blob size (" ++
      toString query.length ++ ") does not match index's expected size (" ++
      toString (s.params.dimensions * 4) ++ ").")
  else
    let query := if s.params.normalize then (s.params.normalizeEmbedding query).1 else query
    match searchKnn query (min count f.algo.curElementCount) with
    | .error e => .error e
    | .ok knnRes => .ok (s.createReply knnRes)

end VectorFlat

end ValkeySearch
