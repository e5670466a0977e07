import Mathlib.Data.Finmap
import Mathlib.Data.Finset.Card

/-
  `VectorBase` (src/indexes/vector_base.cc): the bookkeeping a vector index keeps beside its
  kernel. `tracked_metadata_by_key_` maps a key to its internal id and magnitude,
  `key_by_internal_id_` maps the id back, and `inc_id_` is the next id to issue. The flat
  index's `tracked_vectors_` (`VectorFlat::TrackVector` / `UnTrackVector`, the overrides the
  base calls) is part of the state, since `TrackKey` and `UnTrackKey` write it.

  Model. Keys are compared by content (`InternedStringPtrEqual`), so they are `String`s.
  Hash maps are `Finmap`s; `absl::flat_hash_map::insert` keeps an existing entry
  (`mapInsert`), `operator[] =` replaces it (`Finmap.insert`). Internal ids are `uint64_t`:
  `Nat`s, with `inc_id_++` wrapping at `2^64`. Each mutation makes at most one kernel call
  (`_AddRecord`, `_ModifyRecord` or `_RemoveRecord`); its answer is an input
  (`KernelReply`), so every success and failure pattern of the kernel is covered.

  Float arithmetic (`NormalizeEmbedding`) is not modelled: the normalised payload and its
  magnitude come from `IndexParams.normalizeEmbedding`.
-/

namespace ValkeySearch

/-- `absl::flat_hash_map::insert`: adds the entry only when the key is absent. -/
def mapInsert {α β : Type} [DecidableEq α] (a : α) (b : β) (m : Finmap fun _ : α => β) :
    Finmap fun _ : α => β :=
  if a ∈ m then m else m.insert a b

theorem mapInsert_of_mem {α β : Type} [DecidableEq α] {a : α} {b : β}
    {m : Finmap fun _ : α => β} (h : a ∈ m) : mapInsert a b m = m := if_pos h

theorem mapInsert_of_not_mem {α β : Type} [DecidableEq α] {a : α} {b : β}
    {m : Finmap fun _ : α => β} (h : a ∉ m) : mapInsert a b m = m.insert a b := if_neg h

theorem mem_mapInsert {α β : Type} [DecidableEq α] {a a' : α} {b : β}
    {m : Finmap fun _ : α => β} : a' ∈ mapInsert a b m ↔ a' = a ∨ a' ∈ m := by
  unfold mapInsert; split_ifs with h
  · exact ⟨.inr, fun h' => h'.elim (fun e => e ▸ h) id⟩
  · exact Finmap.mem_insert

/-- `kDefaultMagnitude`: the magnitude recorded when the metric does not normalise. -/
def kDefaultMagnitude : Float := -1.0

/-- What `VectorBase::Init` and the constructor fix for the lifetime of an index. -/
structure IndexParams where
  dimensions : Nat
  /-- `normalize_`: set for the cosine metric. -/
  normalize : Bool
  /-- `NormalizeEmbedding` on a float32 payload: the unit vector and the magnitude. -/
  normalizeEmbedding : List UInt8 → List UInt8 × Float

/-- Modelled from the spec: `IsValidSizeVector` (vector_base.h, not in the sources) accepts a
payload of `dimensions × 4` bytes ("float32, length = dimensions × 4"). -/
def isValidSizeVector (p : IndexParams) (record : List UInt8) : Bool :=
  record.length = p.dimensions * 4

/-- A value of `tracked_metadata_by_key_`. -/
structure TrackedMetadata where
  internalId : Nat
  magnitude : Float

/-- The answers of the kernel to the calls one mutation makes. -/
structure KernelReply where
  addRecord : Except String Unit := .ok ()
  modifyRecord : Except String Bool := .ok true
  removeRecord : Except String Unit := .ok ()

/-- The bookkeeping state of a flat vector index. -/
structure VectorBase where
  params : IndexParams
  trackedMetadataByKey : Finmap fun _ : String => TrackedMetadata
  keyByInternalId : Finmap fun _ : Nat => String
  incId : Nat
  trackedVectors : Finmap fun _ : Nat => List UInt8

namespace VectorBase

/-- Modelled from the spec: a new index (vector_base.h, with the member initialisers, is not
in the sources) tracks nothing and issues ids densely from 0. -/
def empty (params : IndexParams) : VectorBase :=
  { params, trackedMetadataByKey := ∅, keyByInternalId := ∅, incId := 0, trackedVectors := ∅ }

@[simp] theorem empty_incId (p : IndexParams) : (empty p).incId = 0 := rfl

/-- `InternVector`: `none` for a payload of the wrong size, otherwise the payload to intern and
the magnitude to record (only when the metric normalises). -/
def internVector (s : VectorBase) (record : List UInt8) : Option (List UInt8 × Option Float) :=
  if isValidSizeVector s.params record then
    if s.params.normalize then
      let normalized := s.params.normalizeEmbedding record
      some (normalized.1, some normalized.2)
    else some (record, none)
  else none

/-- `VectorFlat::TrackVector`: `tracked_vectors_[internal_id] = vector`. -/
def trackVector (s : VectorBase) (internalId : Nat) (vector : List UInt8) : VectorBase :=
  { s with trackedVectors := s.trackedVectors.insert internalId vector }

/-- `VectorFlat::UnTrackVector`. -/
def unTrackVector (s : VectorBase) (internalId : Nat) : VectorBase :=
  { s with trackedVectors := s.trackedVectors.erase internalId }

/-- `TrackKey`: takes `inc_id_` and increments it, calls `TrackVector` for the new id, and only
then reports a key that is already tracked. -/
def trackKey (s : VectorBase) (key : String) (magnitude : Float) (vector : List UInt8) :
    Except String Nat × VectorBase :=
  if key = "" then (.error "key can't be empty", s)
  else
    let id := s.incId
    let s' := { s.trackVector id vector with incId := (id + 1) % 2 ^ 64 }
    if key ∈ s.trackedMetadataByKey then
      (.error ("Embedding id already exists: " ++ key), s')
    else
      (.ok id, { s' with
        trackedMetadataByKey := s.trackedMetadataByKey.insert key ⟨id, magnitude⟩
        keyByInternalId := mapInsert id key s.keyByInternalId })

/-- `UnTrackKey`: `none` for the empty key and for an untracked key; otherwise the id the key
held, after erasing both directions and the vector. -/
def unTrackKey (s : VectorBase) (key : String) : Except String (Option Nat) × VectorBase :=
  if key = "" then (.ok none, s)
  else
    match s.trackedMetadataByKey.lookup key with
    | none => (.ok none, s)
    | some metadata =>
      let id := metadata.internalId
      let s' := { s.unTrackVector id with
        trackedMetadataByKey := s.trackedMetadataByKey.erase key }
      if id ∈ s.keyByInternalId then
        (.ok (some id), { s' with keyByInternalId := s.keyByInternalId.erase id })
      else
        (.error ("Error while untracking key - key was not found in key_by_internal_id_ " ++
          "but in internal_by_key_"), s')

/-- `UpdateMetadata`: records the new magnitude and vector of a tracked key. -/
def updateMetadata (s : VectorBase) (key : String) (magnitude : Float) (vector : List UInt8) :
    Except String Unit × VectorBase :=
  if key = "" then (.error "key can't be empty", s)
  else
    match s.trackedMetadataByKey.lookup key with
    | none => (.error ("Embedding id not found: " ++ key), s)
    | some metadata =>
      (.ok (), { s.trackVector metadata.internalId vector with
        trackedMetadataByKey := s.trackedMetadataByKey.insert key { metadata with magnitude } })

/-- `GetInternalId` (and `GetInternalIdDuringSearch`, the same lookup without the lock). -/
def getInternalId (s : VectorBase) (key : String) : Except String Nat :=
  match s.trackedMetadataByKey.lookup key with
  | none => .error "Record was not found"
  | some metadata => .ok metadata.internalId

/-- `GetKeyDuringSearch`. -/
def getKeyDuringSearch (s : VectorBase) (internalId : Nat) : Except String String :=
  match s.keyByInternalId.lookup internalId with
  | none => .error "Record was not found"
  | some key => .ok key

/-- `IsTracked`. -/
def isTracked (s : VectorBase) (key : String) : Bool :=
  key ∈ s.trackedMetadataByKey

/-- `GetRecordCount`: the size of `key_by_internal_id_`. -/
def getRecordCount (s : VectorBase) : Nat :=
  s.keyByInternalId.keys.card

/-- `AddRecord`: a payload of the wrong size is refused with `false`; a kernel failure after
`TrackKey` untracks the key again and returns the kernel's error. -/
def addRecord (s : VectorBase) (key : String) (record : List UInt8) (kernel : KernelReply) :
    Except String Bool × VectorBase :=
  match s.internVector record with
  | none => (.ok false, s)
  | some (vector, magnitude) =>
    match s.trackKey key (magnitude.getD kDefaultMagnitude) vector with
    | (.error e, s) => (.error e, s)
    | (.ok _, s) =>
      match kernel.addRecord with
      | .error e => (.error e, (s.unTrackKey key).2)
      | .ok () => (.ok true, s)

/-- `RemoveRecord`: `false` when the key was not tracked, otherwise the kernel's answer. -/
def removeRecord (s : VectorBase) (key : String) (kernel : KernelReply) :
    Except String Bool × VectorBase :=
  match s.unTrackKey key with
  | (.error e, s) => (.error e, s)
  | (.ok none, s) => (.ok false, s)
  | (.ok (some _), s) =>
    match kernel.removeRecord with
    | .error e => (.error e, s)
    | .ok () => (.ok true, s)

/-- `ModifyRecord`: a payload of the wrong size removes the record; a kernel failure untracks
the key. -/
def modifyRecord (s : VectorBase) (key : String) (record : List UInt8) (kernel : KernelReply) :
    Except String Bool × VectorBase :=
  match s.internVector record with
  | none => (.ok false, (s.removeRecord key kernel).2)
  | some (vector, magnitude) =>
    match s.getInternalId key with
    | .error e => (.error e, s)
    | .ok _ =>
      match s.updateMetadata key (magnitude.getD kDefaultMagnitude) vector with
      | (.error e, s) => (.error e, s)
      | (.ok (), s) =>
        match kernel.modifyRecord with
        | .error e => (.error e, (s.unTrackKey key).2)
        | .ok changed => (.ok changed, s)

/-! ## What each operation can do to the state -/

@[simp] theorem trackVector_incId (s : VectorBase) (id : Nat) (v : List UInt8) :
    (s.trackVector id v).incId = s.incId := rfl

theorem trackKey_incId (s : VectorBase) (key : String) (mag : Float) (v : List UInt8) :
    (s.trackKey key mag v).2.incId = if key = "" then s.incId else (s.incId + 1) % 2 ^ 64 := by
  unfold trackKey; split_ifs <;> rfl

/-- The only id `TrackKey` returns is the `inc_id_` it took. -/
theorem trackKey_ok {s : VectorBase} {key : String} {mag : Float} {v : List UInt8} {id : Nat}
    (h : (s.trackKey key mag v).1 = .ok id) : id = s.incId := by
  unfold trackKey at h; split_ifs at h; cases h; rfl

@[simp] theorem unTrackKey_incId (s : VectorBase) (key : String) :
    (s.unTrackKey key).2.incId = s.incId := by
  unfold unTrackKey; split_ifs
  · rfl
  · split
    · rfl
    · dsimp only; split_ifs <;> rfl

@[simp] theorem updateMetadata_incId (s : VectorBase) (key : String) (mag : Float)
    (v : List UInt8) : (s.updateMetadata key mag v).2.incId = s.incId := by
  unfold updateMetadata; split_ifs
  · rfl
  · split <;> rfl

/-- `AddRecord` leaves the state as it was, as `TrackKey` left it, or as `UnTrackKey` left
that. -/
theorem addRecord_state (s : VectorBase) (key : String) (record : List UInt8)
    (kernel : KernelReply) : ∃ mag v,
    (s.addRecord key record kernel).2 = s ∨
    (s.addRecord key record kernel).2 = (s.trackKey key mag v).2 ∨
    (s.addRecord key record kernel).2 = ((s.trackKey key mag v).2.unTrackKey key).2 := by
  unfold addRecord
  split
  · exact ⟨kDefaultMagnitude, [], .inl rfl⟩
  · rename_i vector magnitude _
    refine ⟨magnitude.getD kDefaultMagnitude, vector, ?_⟩
    split <;> rename_i heq
    · exact .inr (.inl (by rw [heq]))
    · split
      · exact .inr (.inr (by rw [heq]))
      · exact .inr (.inl (by rw [heq]))

/-- `RemoveRecord` changes the state only through `UnTrackKey`. -/
theorem removeRecord_state (s : VectorBase) (key : String) (kernel : KernelReply) :
    (s.removeRecord key kernel).2 = (s.unTrackKey key).2 := by
  unfold removeRecord
  split <;> rename_i heq <;> rw [heq]
  split <;> rfl

/-- `ModifyRecord` leaves the state as `RemoveRecord` or `UpdateMetadata` leave it, possibly
followed by `UnTrackKey`, or unchanged. -/
theorem modifyRecord_state (s : VectorBase) (key : String) (record : List UInt8)
    (kernel : KernelReply) : ∃ mag v,
    (s.modifyRecord key record kernel).2 = s ∨
    (s.modifyRecord key record kernel).2 = (s.unTrackKey key).2 ∨
    (s.modifyRecord key record kernel).2 = (s.updateMetadata key mag v).2 ∨
    (s.modifyRecord key record kernel).2 = ((s.updateMetadata key mag v).2.unTrackKey key).2 := by
  unfold modifyRecord
  split
  · exact ⟨kDefaultMagnitude, [], .inr (.inl (removeRecord_state s key kernel))⟩
  · rename_i vector magnitude _
    refine ⟨magnitude.getD kDefaultMagnitude, vector, ?_⟩
    split
    · exact .inl rfl
    · split <;> rename_i heq
      · exact .inr (.inr (.inl (by rw [heq])))
      · split
        · exact .inr (.inr (.inr (by rw [heq])))
        · exact .inr (.inr (.inl (by rw [heq])))

end VectorBase

/-- A mutation a vector index receives from the mutation pipeline. -/
inductive Mutation
  | addRecord (key : String) (record : List UInt8)
  | modifyRecord (key : String) (record : List UInt8)
  | removeRecord (key : String)

namespace VectorBase

/-- One mutation, with the kernel's answers to the call it makes. -/
def apply (s : VectorBase) (kernel : KernelReply) : Mutation → Except String Bool × VectorBase
  | .addRecord key record => s.addRecord key record kernel
  | .modifyRecord key record => s.modifyRecord key record kernel
  | .removeRecord key => s.removeRecord key kernel

/-- The state after a sequence of mutations. -/
def run (s : VectorBase) : List (Mutation × KernelReply) → VectorBase
  | [] => s
  | (m, kernel) :: rest => (s.apply kernel m).2.run rest

/-- The ids `TrackKey` takes along a run: `inc_id_` before each mutation that changes it. -/
def issuedIds (s : VectorBase) : List (Mutation × KernelReply) → List Nat
  | [] => []
  | (m, kernel) :: rest =>
    let s' := (s.apply kernel m).2
    (if s'.incId = s.incId then [] else [s.incId]) ++ s'.issuedIds rest

end VectorBase

end ValkeySearch
