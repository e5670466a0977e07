import ValkeySearch.Indexes.VectorFlat

/-
  A flat vector index as one system: the bookkeeping of `VectorBase` and the kernel of
  `VectorFlat` that it calls. `AddRecord`, `ModifyRecord` and `RemoveRecord` run here with the
  kernel's own `AddRecordImpl`, `ModifyRecordImpl` and `RemoveRecordImpl` in place of the
  answers `KernelReply` leaves open. A mutation, and a run, is `none` when an `AddRecordImpl`
  loop has not ended within its fuel or a `ModifyRecordImpl` read a freed vector.

  Proved:
  * `apply_base`: the bookkeeping after each mutation is that of `VectorBase.apply` with some
    kernel answers, so every run of the flat index is a run of the model of `Bookkeeping`.
  * `KernelInv`: the kernel stores exactly the tracked ids, each with the vector
    `tracked_vectors_` holds for it, `cur_element_count_` counts them, and `block_size_ ≥ 1`.
    Every mutation that returns keeps it on a state with the bookkeeping invariant
    (`KernelInv.apply`).
  * `apply_eq_none_iff`: on such a state, with two turns for each `AddRecordImpl` loop, a
    mutation fails to return exactly when it `Releases`: a `ModifyRecord` of a tracked key to
    another vector while no other entry of `tracked_vectors_` holds the key's vector, which
    `UpdateMetadata` then frees before `ModifyRecordImpl` reads it.
  * `run_kernelInv`: from a new flat index with `block_size ≥ 1`, every run of fewer than
    `2^64` mutations that returns is a run of `VectorBase` with some kernel answers, and ends
    in a state with both invariants, so `cur_element_count_ = GetRecordCount()`.
  * `apply_error`: on such a state the kernel never fails. `AddRecord` fails only on the empty
    key or a tracked key, `ModifyRecord` only on an untracked key or the empty key, and then
    leaves the index as it was; `RemoveRecord` never fails.
  * `modifyRecord_of_tracked`: `ModifyRecord` of a tracked key reads freed memory exactly when
    it `Releases`; otherwise it returns whether the key's vector changed, and leaves the new
    vector in `tracked_vectors_` and in the kernel.
  * `prefilter_flat`: on such a state the kernel scores each tracked key by the vector
    `tracked_vectors_` holds for it, so, when no tracked vector is at NaN from the query, the
    pre-filter loop keeps the offered keys nearest to the query by those vectors.
  * `search_flat`: `Search` asks the kernel for `min(count, GetRecordCount())` neighbors, and
    `CreateReply` keeps every entry of a heap of stored ids, with the key tracked for it.
-/

namespace ValkeySearch

namespace VectorBase

/-! ## What `TrackKey`, `UnTrackKey` and `UpdateMetadata` do to ids and vectors -/

variable {s s' : VectorBase} {key : String} {mag : Float} {v : List UInt8}

theorem trackKey_eq_ok {id : Nat} (h : s.trackKey key mag v = (.ok id, s')) :
    id = s.incId ∧ key ≠ "" ∧ key ∉ s.trackedMetadataByKey ∧
      s'.trackedMetadataByKey = s.trackedMetadataByKey.insert key ⟨s.incId, mag⟩ ∧
      s'.keyByInternalId = mapInsert id key s.keyByInternalId ∧
      s'.trackedVectors = s.trackedVectors.insert id v := by
  dsimp only [trackKey] at h
  split_ifs at h with hkey hmem <;> cases h
  exact ⟨rfl, hkey, hmem, rfl, rfl, rfl⟩

theorem trackKey_eq_error {e : String} (h : s.trackKey key mag v = (.error e, s')) :
    (key = "" ∧ e = "key can't be empty" ∨
      key ∈ s.trackedMetadataByKey ∧ e = "Embedding id already exists: " ++ key) ∧
    s'.trackedMetadataByKey = s.trackedMetadataByKey ∧ s'.keyByInternalId = s.keyByInternalId ∧
      ∀ id ≠ s.incId, s'.trackedVectors.lookup id = s.trackedVectors.lookup id := by
  dsimp only [trackKey] at h
  split_ifs at h with hkey hmem <;> cases h
  · exact ⟨.inl ⟨hkey, rfl⟩, rfl, rfl, fun _ _ => rfl⟩
  · exact ⟨.inr ⟨hmem, rfl⟩, rfl, rfl, fun id hid => Finmap.lookup_insert_of_ne _ hid⟩

theorem unTrackKey_eq {r : Except String (Option Nat)} (h : s.unTrackKey key = (r, s')) :
    (r = .ok none ∧ s' = s ∧ (key = "" ∨ key ∉ s.trackedMetadataByKey)) ∨
      (∃ md, s.trackedMetadataByKey.lookup key = some md ∧ r = .ok (some md.internalId) ∧
        md.internalId ∈ s.keyByInternalId ∧
        s'.trackedMetadataByKey = s.trackedMetadataByKey.erase key ∧
        s'.keyByInternalId = s.keyByInternalId.erase md.internalId ∧
        s'.trackedVectors = s.trackedVectors.erase md.internalId) ∨
      ∃ e id, r = .error e ∧ id ∉ s.keyByInternalId ∧ s'.keyByInternalId = s.keyByInternalId ∧
        s'.trackedVectors = s.trackedVectors.erase id := by
  unfold unTrackKey at h
  split_ifs at h with hkey
  · cases h
    exact .inl ⟨rfl, rfl, .inl hkey⟩
  · split at h
    · next hnone =>
      cases h
      exact .inl ⟨rfl, rfl, .inr (Finmap.lookup_eq_none.1 hnone)⟩
    · next md hmd =>
      dsimp only at h
      split_ifs at h with hid <;> cases h
      · exact .inr (.inl ⟨md, hmd, rfl, hid, rfl, rfl, rfl⟩)
      · exact .inr (.inr ⟨_, _, rfl, hid, rfl, rfl⟩)

theorem updateMetadata_eq {r : Except String Unit} (h : s.updateMetadata key mag v = (r, s')) :
    (∃ e, r = .error e ∧ s' = s ∧
      (key = "" ∧ e = "key can't be empty" ∨
        s.trackedMetadataByKey.lookup key = none ∧ e = "Embedding id not found: " ++ key)) ∨
      (r = .ok () ∧ key ≠ "" ∧ ∃ md, s.trackedMetadataByKey.lookup key = some md ∧
        s'.trackedMetadataByKey = s.trackedMetadataByKey.insert key { md with magnitude := mag } ∧
        s'.keyByInternalId = s.keyByInternalId ∧
        s'.trackedVectors = s.trackedVectors.insert md.internalId v) := by
  unfold updateMetadata at h
  split_ifs at h with hkey
  · cases h
    exact .inl ⟨_, rfl, rfl, .inl ⟨hkey, rfl⟩⟩
  · split at h <;> cases h
    · next hnone => exact .inl ⟨_, rfl, rfl, .inr ⟨hnone, rfl⟩⟩
    · next hmd => exact .inr ⟨rfl, hkey, _, hmd, rfl, rfl, rfl⟩

/-- `UpdateMetadata` of a tracked key that is not empty succeeds and points the key's id at the
new vector. -/
theorem updateMetadata_of_lookup (mag : Float) (v : List UInt8) {md : TrackedMetadata}
    (hkey : key ≠ "") (hk : s.trackedMetadataByKey.lookup key = some md) :
    (s.updateMetadata key mag v).1 = .ok () ∧
      (s.updateMetadata key mag v).2.trackedMetadataByKey =
        s.trackedMetadataByKey.insert key { md with magnitude := mag } ∧
      (s.updateMetadata key mag v).2.keyByInternalId = s.keyByInternalId ∧
      (s.updateMetadata key mag v).2.trackedVectors = s.trackedVectors.insert md.internalId v := by
  simp [updateMetadata, hkey, hk, trackVector]

theorem getInternalId_eq_ok {id : Nat} (h : s.getInternalId key = .ok id) :
    ∃ md, s.trackedMetadataByKey.lookup key = some md ∧ md.internalId = id := by
  unfold getInternalId at h
  split at h <;> cases h
  exact ⟨_, ‹_›, rfl⟩

theorem getInternalId_eq_error {e : String} (h : s.getInternalId key = .error e) :
    key ∉ s.trackedMetadataByKey ∧ e = "Record was not found" := by
  unfold getInternalId at h
  split at h <;> cases h
  exact ⟨Finmap.lookup_eq_none.1 ‹_›, rfl⟩

/-- The id `GetInternalId` returns is tracked. -/
theorem Bookkeeping.getInternalId_mem (hb : s.Bookkeeping) {id : Nat}
    (h : s.getInternalId key = .ok id) : id ∈ s.keyByInternalId := by
  obtain ⟨md, hmd, rfl⟩ := getInternalId_eq_ok h
  exact Finmap.mem_of_lookup_eq_some (hb.inverse.lookup_id hmd)

end VectorBase

/-- A flat vector index: the bookkeeping of `VectorBase` and the kernel of `VectorFlat`. -/
structure FlatIndex where
  base : VectorBase
  kernel : VectorFlat

namespace FlatIndex

/-- `VectorBase::AddRecord` with `_AddRecord` the kernel's `AddRecordImpl`, its loop run for
`fuel` turns; `none` when the loop has not ended. -/
def addRecord (x : FlatIndex) (key : String) (record : List UInt8) (fuel : Nat) :
    Option (Except String Bool × FlatIndex) :=
  match x.base.internVector record with
  | none => some (.ok false, x)
  | some (vector, magnitude) =>
    match x.base.trackKey key (magnitude.getD kDefaultMagnitude) vector with
    | (.error e, s) => some (.error e, ⟨s, x.kernel⟩)
    | (.ok internalId, s) =>
      (x.kernel.addRecordImpl internalId vector fuel).map fun
        | (.error e, k) => (.error e, ⟨(s.unTrackKey key).2, k⟩)
        | (.ok (), k) => (.ok true, ⟨s, k⟩)

/-- `VectorBase::RemoveRecord` with `_RemoveRecord` the kernel's `RemoveRecordImpl`. -/
def removeRecord (x : FlatIndex) (key : String) : Except String Bool × FlatIndex :=
  match x.base.unTrackKey key with
  | (.error e, s) => (.error e, ⟨s, x.kernel⟩)
  | (.ok none, s) => (.ok false, ⟨s, x.kernel⟩)
  | (.ok (some internalId), s) =>
    match x.kernel.removeRecordImpl internalId with
    | (.error e, k) => (.error e, ⟨s, k⟩)
    | (.ok (), k) => (.ok true, ⟨s, k⟩)

/-- `VectorBase::ModifyRecord` with `_ModifyRecord` the kernel's `ModifyRecordImpl`, which
runs after `UpdateMetadata` has pointed `tracked_vectors_` at the new vector; `none` when it
reads a released vector. -/
def modifyRecord (x : FlatIndex) (key : String) (record : List UInt8) :
    Option (Except String Bool × FlatIndex) :=
  match x.base.internVector record with
  | none => some (.ok false, (x.removeRecord key).2)
  | some (vector, magnitude) =>
    match x.base.getInternalId key with
    | .error e => some (.error e, x)
    | .ok internalId =>
      match x.base.updateMetadata key (magnitude.getD kDefaultMagnitude) vector with
      | (.error e, s) => some (.error e, ⟨s, x.kernel⟩)
      | (.ok (), s) =>
        (x.kernel.modifyRecordImpl s.trackedVectors internalId vector).map fun
          | (.error e, k) => (.error e, ⟨(s.unTrackKey key).2, k⟩)
          | (.ok changed, k) => (.ok changed, ⟨s, k⟩)

/-- One mutation. -/
def apply (x : FlatIndex) (fuel : Nat) : Mutation → Option (Except String Bool × FlatIndex)
  | .addRecord key record => x.addRecord key record fuel
  | .modifyRecord key record => x.modifyRecord key record
  | .removeRecord key => some (x.removeRecord key)

/-- The index after a sequence of mutations; `none` when an `AddRecordImpl` loop has not
ended within `fuel` turns or a `ModifyRecordImpl` read a released vector. -/
def run (x : FlatIndex) (fuel : Nat) : List Mutation → Option FlatIndex
  | [] => some x
  | m :: rest => (x.apply fuel m).bind fun p => p.2.run fuel rest

/-! ## Refinement: the bookkeeping follows `VectorBase.apply` -/

section Refinement

variable {x y : FlatIndex} {key : String} {record : List UInt8} {fuel : Nat}
  {r : Except String Bool}

/-- `AddRecordImpl` never fails, so `AddRecord` is `VectorBase.addRecord` with an OK kernel. -/
theorem addRecord_base (h : x.addRecord key record fuel = some (r, y)) :
    x.base.addRecord key record {} = (r, y.base) := by
  unfold addRecord at h
  unfold VectorBase.addRecord
  generalize x.base.internVector record = o at h ⊢
  rcases o with _ | ⟨vector, magnitude⟩ <;> dsimp only at h ⊢
  · cases h
    rfl
  generalize x.base.trackKey key (magnitude.getD kDefaultMagnitude) vector = t at h ⊢
  rcases t with ⟨e | id, s⟩ <;> dsimp only at h ⊢
  · cases h
    rfl
  obtain ⟨⟨r', k⟩, hk, hr⟩ := Option.map_eq_some'.1 h
  obtain ⟨rfl, -⟩ := VectorFlat.addRecordImpl_eq_some hk
  cases hr
  rfl

theorem removeRecord_base (x : FlatIndex) (key : String) :
    x.base.removeRecord key {} = ((x.removeRecord key).1, (x.removeRecord key).2.base) := by
  unfold removeRecord VectorBase.removeRecord
  rcases x.base.unTrackKey key with ⟨e | _ | id, s⟩ <;> rfl

theorem modifyRecord_base (h : x.modifyRecord key record = some (r, y)) :
    ∃ reply, x.base.modifyRecord key record reply = (r, y.base) := by
  unfold modifyRecord at h
  unfold VectorBase.modifyRecord
  generalize x.base.internVector record = o at h ⊢
  rcases o with _ | ⟨vector, magnitude⟩ <;> dsimp only at h ⊢
  · cases h
    exact ⟨{}, by rw [removeRecord_base]⟩
  generalize x.base.getInternalId key = g at h ⊢
  rcases g with e | id <;> dsimp only at h ⊢
  · cases h
    exact ⟨{}, rfl⟩
  generalize x.base.updateMetadata key (magnitude.getD kDefaultMagnitude) vector = u at h ⊢
  rcases u with ⟨e | _, s⟩ <;> dsimp only at h ⊢
  · cases h
    exact ⟨{}, rfl⟩
  obtain ⟨⟨r', k⟩, -, hr⟩ := Option.map_eq_some'.1 h
  refine ⟨⟨.ok (), r', .ok ()⟩, ?_⟩
  rcases r' with e | changed <;> cases hr <;> rfl

/-- Each mutation of the flat index is a mutation of `VectorBase` with some kernel answers. -/
theorem apply_base {m : Mutation} (h : x.apply fuel m = some (r, y)) :
    ∃ reply, x.base.apply reply m = (r, y.base) := by
  cases m with
  | addRecord key record => exact ⟨{}, addRecord_base h⟩
  | modifyRecord key record => exact modifyRecord_base h
  | removeRecord key =>
    have e := removeRecord_base x key
    rw [Option.some.inj h] at e
    exact ⟨{}, e⟩

end Refinement

/-! ## The kernel invariant -/

theorem keys_insert {β : Type} (m : Finmap fun _ : Nat => β) (a : Nat) (b : β) :
    (m.insert a b).keys = insert a m.keys :=
  Finset.ext fun _ => by simp only [Finmap.mem_keys, Finmap.mem_insert, Finset.mem_insert]

/-- The kernel stores exactly the tracked ids, each with the vector `tracked_vectors_` holds
for it; `cur_element_count_` counts them; and `block_size_ ≥ 1`, so a full kernel grows. -/
structure KernelInv (x : FlatIndex) : Prop where
  mem_iff : ∀ id, id ∈ x.kernel.algo.data ↔ id ∈ x.base.keyByInternalId
  lookup : ∀ id ∈ x.base.keyByInternalId,
    x.kernel.algo.data.lookup id = x.base.trackedVectors.lookup id
  count : x.kernel.algo.curElementCount = x.kernel.algo.data.keys.card
  blockSize_pos : 1 ≤ x.kernel.blockSize

namespace KernelInv

variable {x y : FlatIndex}

theorem create (p : IndexParams) {initialCap blockSize : Nat} (hc : initialCap < 2 ^ 64)
    (hb : blockSize < 2 ^ 32) (hpos : 1 ≤ blockSize) :
    KernelInv ⟨VectorBase.empty p, VectorFlat.create initialCap blockSize hc hb⟩ where
  mem_iff _ := iff_of_false Finmap.not_mem_empty Finmap.not_mem_empty
  lookup _ h := absurd h Finmap.not_mem_empty
  count := rfl
  blockSize_pos := hpos

theorem count_eq_getRecordCount (h : KernelInv x) :
    x.kernel.algo.curElementCount = x.base.getRecordCount := by
  rw [h.count, VectorBase.getRecordCount]
  congr 1
  ext id
  simp only [Finmap.mem_keys, h.mem_iff]

/-! ### What a step may do to the kernel and the tracked ids -/

section Transfer

variable (h : KernelInv x) (hbs : y.kernel.blockSize = x.kernel.blockSize)
include h hbs

/-- Tracked ids, kernel and count unchanged; the vectors of tracked ids unchanged. -/
theorem of_eq (hk : y.base.keyByInternalId = x.base.keyByInternalId)
    (hv : ∀ id ∈ x.base.keyByInternalId,
      y.base.trackedVectors.lookup id = x.base.trackedVectors.lookup id)
    (hd : y.kernel.algo.data = x.kernel.algo.data)
    (hc : y.kernel.algo.curElementCount = x.kernel.algo.curElementCount) : KernelInv y where
  mem_iff id := by rw [hd, hk]; exact h.mem_iff id
  lookup id hid := by
    rw [hk] at hid
    rw [hd, hv id hid]
    exact h.lookup id hid
  count := by rw [hc, hd]; exact h.count
  blockSize_pos := hbs ▸ h.blockSize_pos

/-- A new id tracked with its vector, which the kernel stores as one more element. -/
theorem insert {id : Nat} {key : String} {v : List UInt8} (hid : id ∉ x.base.keyByInternalId)
    (hk : y.base.keyByInternalId = x.base.keyByInternalId.insert id key)
    (hv : y.base.trackedVectors = x.base.trackedVectors.insert id v)
    (hd : y.kernel.algo.data = x.kernel.algo.data.insert id v)
    (hc : y.kernel.algo.curElementCount = x.kernel.algo.curElementCount + 1) : KernelInv y where
  mem_iff id' := by rw [hd, hk, Finmap.mem_insert, Finmap.mem_insert, h.mem_iff]
  lookup id' hid' := by
    rw [hd, hv]
    by_cases e : id' = id
    · rw [e, Finmap.lookup_insert, Finmap.lookup_insert]
    · rw [Finmap.lookup_insert_of_ne _ e, Finmap.lookup_insert_of_ne _ e]
      rw [hk, Finmap.mem_insert] at hid'
      exact h.lookup id' (hid'.resolve_left e)
  count := by
    rw [hc, hd, keys_insert, Finset.card_insert_of_not_mem (by rwa [Finmap.mem_keys, h.mem_iff]),
      h.count]
  blockSize_pos := hbs ▸ h.blockSize_pos

/-- A tracked id forgotten, by the kernel as well, which counts one element less. -/
theorem erase {id : Nat} (hid : id ∈ x.base.keyByInternalId)
    (hk : y.base.keyByInternalId = x.base.keyByInternalId.erase id)
    (hv : y.base.trackedVectors = x.base.trackedVectors.erase id)
    (hd : y.kernel.algo.data = x.kernel.algo.data.erase id)
    (hc : y.kernel.algo.curElementCount = x.kernel.algo.curElementCount - 1) : KernelInv y where
  mem_iff id' := by rw [hd, hk, Finmap.mem_erase, Finmap.mem_erase, h.mem_iff]
  lookup id' hid' := by
    rw [hk, Finmap.mem_erase] at hid'
    rw [hd, hv, Finmap.lookup_erase_ne hid'.1, Finmap.lookup_erase_ne hid'.1]
    exact h.lookup id' hid'.2
  count := by
    rw [hc, hd, Finmap.keys_erase, Finset.card_erase_of_mem (by rwa [Finmap.mem_keys, h.mem_iff]),
      h.count]
  blockSize_pos := hbs ▸ h.blockSize_pos

/-- The vector of a tracked id replaced, in the kernel as well. -/
theorem update {id : Nat} {v : List UInt8} (hid : id ∈ x.base.keyByInternalId)
    (hk : y.base.keyByInternalId = x.base.keyByInternalId)
    (hv : y.base.trackedVectors = x.base.trackedVectors.insert id v)
    (hd : y.kernel.algo.data = x.kernel.algo.data.insert id v)
    (hc : y.kernel.algo.curElementCount = x.kernel.algo.curElementCount) : KernelInv y where
  mem_iff id' := by
    rw [hd, hk, Finmap.mem_insert, h.mem_iff]
    exact or_iff_right_of_imp (· ▸ hid)
  lookup id' hid' := by
    rw [hd, hv]
    by_cases e : id' = id
    · rw [e, Finmap.lookup_insert, Finmap.lookup_insert]
    · rw [Finmap.lookup_insert_of_ne _ e, Finmap.lookup_insert_of_ne _ e]
      exact h.lookup id' (hk ▸ hid')
  count := by
    rw [hc, hd, keys_insert, Finset.insert_eq_of_mem (by rwa [Finmap.mem_keys, h.mem_iff]),
      h.count]
  blockSize_pos := hbs ▸ h.blockSize_pos

end Transfer

/-! ### Each mutation keeps the invariant -/

variable {key : String} {record : List UInt8} {fuel : Nat} {r : Except String Bool}

theorem removeRecord (h : KernelInv x) (key : String) : KernelInv (x.removeRecord key).2 := by
  unfold FlatIndex.removeRecord
  rcases hu : x.base.unTrackKey key with ⟨r, s⟩
  rcases VectorBase.unTrackKey_eq hu with ⟨rfl, rfl, -⟩ | ⟨md, -, rfl, hid, -, hk, hv⟩ |
    ⟨e, id, rfl, hid, hk, hv⟩
  · exact h
  · have hmem := (h.mem_iff _).2 hid
    exact h.erase rfl hid hk hv (BruteforceSearch.removePoint_of_mem hmem).1
      (BruteforceSearch.removePoint_of_mem hmem).2
  · refine h.of_eq rfl hk (fun id' hid' => ?_) rfl rfl
    rw [hv, Finmap.lookup_erase_ne (ne_of_mem_of_not_mem hid' hid)]

theorem addRecord (h : KernelInv x) (hb : x.base.Bookkeeping)
    (hx : x.addRecord key record fuel = some (r, y)) : KernelInv y := by
  unfold FlatIndex.addRecord at hx
  split at hx
  · cases hx
    exact h
  · split at hx
    · next e s hs =>
      cases hx
      obtain ⟨-, -, hk, hv⟩ := VectorBase.trackKey_eq_error hs
      exact h.of_eq rfl hk (fun id hid => hv id (ne_of_lt (hb.below id hid))) rfl rfl
    · next id s hs =>
      obtain ⟨rfl, -, -, -, hk, hv⟩ := VectorBase.trackKey_eq_ok hs
      obtain ⟨⟨r', k⟩, hk', hr⟩ := Option.map_eq_some'.1 hx
      obtain ⟨rfl, hbs, hd, hc⟩ := VectorFlat.addRecordImpl_eq_some hk'
      cases hr
      have hfresh : x.base.incId ∉ x.base.keyByInternalId :=
        fun hm => lt_irrefl _ (hb.below _ hm)
      rw [mapInsert_of_not_mem hfresh] at hk
      rw [if_neg (mt (h.mem_iff _).1 hfresh)] at hc
      exact h.insert hbs hfresh hk hv hd hc

theorem modifyRecord (h : KernelInv x) (hb : x.base.Bookkeeping)
    (hx : x.modifyRecord key record = some (r, y)) : KernelInv y := by
  unfold FlatIndex.modifyRecord at hx
  generalize x.base.internVector record = o at hx
  rcases o with _ | ⟨vector, magnitude⟩ <;> dsimp only at hx
  · cases hx
    exact h.removeRecord key
  generalize hg : x.base.getInternalId key = g at hx
  rcases g with e | id <;> dsimp only at hx
  · cases hx
    exact h
  generalize hu : x.base.updateMetadata key (magnitude.getD kDefaultMagnitude) vector = u at hx
  rcases u with ⟨e | _, s⟩ <;> dsimp only at hx
  · cases hx
    obtain ⟨_, _, rfl, -⟩ | ⟨hr, -⟩ := VectorBase.updateMetadata_eq hu
    · exact h
    · cases hr
  obtain ⟨_, hr, -⟩ | ⟨-, -, md, hmd, -, hk, hv⟩ := VectorBase.updateMetadata_eq hu
  · cases hr
  obtain ⟨md', hmd', rfl⟩ := VectorBase.getInternalId_eq_ok hg
  obtain rfl : md' = md := Option.some.inj (hmd'.symm.trans hmd)
  have hmem := Finmap.mem_of_lookup_eq_some (hb.inverse.lookup_id hmd')
  obtain ⟨saved, hs⟩ := Finmap.mem_iff.1 ((h.mem_iff _).2 hmem)
  obtain ⟨⟨r', k⟩, hk', hr⟩ := Option.map_eq_some'.1 hx
  obtain ⟨rfl, hd, hc, hbs⟩ := VectorFlat.modifyRecordImpl_eq_some hs hk'
  cases hr
  exact h.update hbs hmem hk hv hd hc

/-- Every mutation keeps the kernel invariant on a state with the bookkeeping invariant. -/
theorem apply (h : KernelInv x) (hb : x.base.Bookkeeping) {m : Mutation}
    (hx : x.apply fuel m = some (r, y)) : KernelInv y := by
  cases m with
  | addRecord key record => exact h.addRecord hb hx
  | modifyRecord key record => exact h.modifyRecord hb hx
  | removeRecord key =>
    have e : (x.removeRecord key).2 = y := by rw [Option.some.inj hx]
    exact e ▸ h.removeRecord key

end KernelInv

/-! ## When `ModifyRecord` reads a released vector -/

/-- The mutations that read a released vector: a `ModifyRecord` of a tracked key, not empty,
whose record is a vector of the right size other than the key's vector, while no other entry
of `tracked_vectors_` holds the key's vector. `UpdateMetadata` then drops the last reference to
that vector before `ModifyRecordImpl` compares it with the record. -/
def Releases (x : FlatIndex) : Mutation → Prop
  | .modifyRecord key record => key ≠ "" ∧ ∃ md vector magnitude old,
      x.base.trackedMetadataByKey.lookup key = some md ∧
      x.base.internVector record = some (vector, magnitude) ∧
      x.base.trackedVectors.lookup md.internalId = some old ∧ old ≠ vector ∧
      ∀ id ≠ md.internalId, x.base.trackedVectors.lookup id ≠ some old
  | _ => False

section Release

variable {x : FlatIndex} {key : String} {record : List UInt8} {md : TrackedMetadata}
  {vector : List UInt8} {magnitude : Option Float} {saved : List UInt8}

/-- `ModifyRecord` of a tracked key, not empty, with a vector of the right size, on a state with
both invariants: `UpdateMetadata` points the key's id at the new vector and `ModifyRecordImpl`
reads the old one, `saved`. While an entry of `tracked_vectors_` still holds it, the call
returns whether it differs from the new vector and leaves the new vector in the kernel. -/
theorem modifyRecord_of_held (hb : x.base.Bookkeeping) (h : KernelInv x) (hkey : key ≠ "")
    (hk : x.base.trackedMetadataByKey.lookup key = some md)
    (hv : x.base.internVector record = some (vector, magnitude))
    (hs : x.base.trackedVectors.lookup md.internalId = some saved)
    (hh : VectorFlat.isHeld (x.base.trackedVectors.insert md.internalId vector) saved = true) :
    ∃ k : VectorFlat, x.modifyRecord key record =
        some (.ok (decide (saved ≠ vector)),
          ⟨(x.base.updateMetadata key (magnitude.getD kDefaultMagnitude) vector).2, k⟩) ∧
      k.algo.data.lookup md.internalId = some vector := by
  have hd : x.kernel.algo.data.lookup md.internalId = some saved :=
    (h.lookup _ (Finmap.mem_of_lookup_eq_some (hb.inverse.lookup_id hk))).trans hs
  obtain ⟨k, hk', hkd, -⟩ := VectorFlat.modifyRecordImpl_of_held vector hd hh
  refine ⟨k, ?_, by rw [hkd, Finmap.lookup_insert]⟩
  simp only [modifyRecord, hv, VectorBase.getInternalId, VectorBase.updateMetadata, hkey,
    if_false, hk, VectorBase.trackVector, hk', Option.map_some']

/-- When no other entry of `tracked_vectors_` holds the key's vector and the record is another
vector, `ModifyRecordImpl` reads freed memory. -/
theorem modifyRecord_of_released (hb : x.base.Bookkeeping) (h : KernelInv x) (hkey : key ≠ "")
    (hk : x.base.trackedMetadataByKey.lookup key = some md)
    (hv : x.base.internVector record = some (vector, magnitude))
    (hs : x.base.trackedVectors.lookup md.internalId = some saved)
    (hh : VectorFlat.isHeld (x.base.trackedVectors.insert md.internalId vector) saved = false) :
    x.modifyRecord key record = none := by
  have hd : x.kernel.algo.data.lookup md.internalId = some saved :=
    (h.lookup _ (Finmap.mem_of_lookup_eq_some (hb.inverse.lookup_id hk))).trans hs
  simp only [modifyRecord, hv, VectorBase.getInternalId, VectorBase.updateMetadata, hkey,
    if_false, hk, VectorBase.trackVector, VectorFlat.modifyRecordImpl_of_released vector hd hh,
    Option.map_none']

/-- The vector `UpdateMetadata` replaces is released exactly when it is not the new vector and
no other entry holds it. -/
theorem isHeld_insert_eq_false {tv : Finmap fun _ : Nat => List UInt8} {id : Nat} :
    VectorFlat.isHeld (tv.insert id vector) saved = false ↔
      saved ≠ vector ∧ ∀ id' ≠ id, tv.lookup id' ≠ some saved := by
  rw [← Bool.not_eq_true, VectorFlat.isHeld_insert, not_or, not_exists]
  simp only [not_and, exists_prop]

theorem modifyRecord_isSome (hb : x.base.Bookkeeping) (h : KernelInv x)
    (hr : ¬ x.Releases (.modifyRecord key record)) : ∃ p, x.modifyRecord key record = some p := by
  cases hv : x.base.internVector record with
  | none => exact ⟨_, by rw [modifyRecord, hv]⟩
  | some p =>
    obtain ⟨vector, magnitude⟩ := p
    by_cases hkey : key = ""
    · subst hkey
      simp only [modifyRecord, hv, VectorBase.updateMetadata, if_true]
      cases x.base.getInternalId "" <;> exact ⟨_, rfl⟩
    cases hk : x.base.trackedMetadataByKey.lookup key with
    | none => exact ⟨_, by rw [modifyRecord, hv, VectorBase.getInternalId, hk]⟩
    | some md =>
      obtain ⟨saved, hs⟩ :=
        Finmap.mem_iff.1 (hb.vectors _ (Finmap.mem_of_lookup_eq_some (hb.inverse.lookup_id hk)))
      cases hh : VectorFlat.isHeld (x.base.trackedVectors.insert md.internalId vector) saved
      · exact absurd ⟨hkey, md, vector, magnitude, saved, hk, hv, hs,
          isHeld_insert_eq_false.1 hh⟩ hr
      · obtain ⟨k, hx, -⟩ := modifyRecord_of_held hb h hkey hk hv hs hh
        exact ⟨_, hx⟩

/-- On a state with both invariants, `ModifyRecord` reads a released vector exactly when it
`Releases`. -/
theorem modifyRecord_eq_none_iff (hb : x.base.Bookkeeping) (h : KernelInv x) :
    x.modifyRecord key record = none ↔ x.Releases (.modifyRecord key record) := by
  refine ⟨fun hn => by_contra fun hr => ?_, ?_⟩
  · obtain ⟨p, hp⟩ := modifyRecord_isSome hb h hr
    rw [hp] at hn
    cases hn
  · rintro ⟨hkey, md, vector, magnitude, old, hk, hv, hs, hne, hall⟩
    exact modifyRecord_of_released hb h hkey hk hv hs (isHeld_insert_eq_false.2 ⟨hne, hall⟩)

/-- With `block_size ≥ 1` every `AddRecordImpl` loop returns within two turns. -/
theorem addRecord_isSome (x : FlatIndex) (key : String) (record : List UInt8)
    (hb : 1 ≤ x.kernel.blockSize) {fuel : Nat} (hfuel : 2 ≤ fuel) :
    ∃ p, x.addRecord key record fuel = some p := by
  unfold addRecord
  rcases x.base.internVector record with _ | ⟨vector, magnitude⟩
  · exact ⟨_, rfl⟩
  dsimp only
  rcases x.base.trackKey key (magnitude.getD kDefaultMagnitude) vector with ⟨e | id, s⟩
  · exact ⟨_, rfl⟩
  obtain ⟨k, hk⟩ := VectorFlat.addRecordImpl_of_blockSize_pos x.kernel id vector hb fuel hfuel
  dsimp only
  rw [hk]
  exact ⟨_, rfl⟩

/-- On a state with both invariants and two turns for each loop, a mutation fails to return
exactly when it `Releases`. -/
theorem apply_eq_none_iff (hb : x.base.Bookkeeping) (h : KernelInv x) {fuel : Nat}
    (hfuel : 2 ≤ fuel) (m : Mutation) : x.apply fuel m = none ↔ x.Releases m := by
  cases m with
  | addRecord key record =>
    obtain ⟨p, hp⟩ := addRecord_isSome x key record h.blockSize_pos hfuel
    exact iff_of_false (by simp only [apply, hp]; exact Option.some_ne_none _) id
  | modifyRecord key record => exact modifyRecord_eq_none_iff hb h
  | removeRecord key => exact iff_of_false (Option.some_ne_none _) id

theorem apply_isSome (hb : x.base.Bookkeeping) (h : KernelInv x) {fuel : Nat} (hfuel : 2 ≤ fuel)
    {m : Mutation} (hm : ¬ x.Releases m) : ∃ p, x.apply fuel m = some p :=
  Option.ne_none_iff_exists'.1 (mt (apply_eq_none_iff hb h hfuel m).1 hm)

end Release

/-- One mutation from a state with both invariants, when the id it may issue does not wrap
`inc_id_`, keeps both and moves `inc_id_` up by at most one. -/
theorem apply_inv {x y : FlatIndex} (hb : x.base.Bookkeeping) (h : KernelInv x) {fuel : Nat}
    {m : Mutation} {r : Except String Bool} (hx : x.apply fuel m = some (r, y))
    (hinc : x.base.incId + 1 < 2 ^ 64) :
    y.base.Bookkeeping ∧ KernelInv y ∧ y.base.incId ≤ x.base.incId + 1 := by
  obtain ⟨reply, hrep⟩ := apply_base hx
  have hb' := hb.apply reply m fun _ => hinc
  have hi := VectorBase.apply_incId x.base reply m
  rw [hrep] at hb' hi
  exact ⟨hb', h.apply hb hx, by rcases hi with e | e <;> rw [e] <;> omega⟩

/-- From a state with both invariants, a run whose ids do not wrap `inc_id_` and that returns
follows `VectorBase.run` with some kernel answers and keeps both invariants. -/
theorem run_inv {x y : FlatIndex} (hb : x.base.Bookkeeping) (h : KernelInv x) {fuel : Nat}
    (ops : List Mutation) (hn : x.base.incId + ops.length < 2 ^ 64)
    (hy : x.run fuel ops = some y) :
    (∃ replies : List KernelReply, replies.length = ops.length ∧
        y.base = x.base.run (ops.zip replies)) ∧
      y.base.Bookkeeping ∧ KernelInv y := by
  induction ops generalizing x with
  | nil =>
    cases hy
    exact ⟨⟨[], rfl, rfl⟩, hb, h⟩
  | cons m rest ih =>
    rw [List.length_cons] at hn
    obtain ⟨⟨r, x'⟩, hx, hrest⟩ := Option.bind_eq_some.1 hy
    obtain ⟨reply, hrep⟩ := apply_base hx
    obtain ⟨hb', h', hinc⟩ := apply_inv hb h hx (by omega)
    obtain ⟨⟨replies, hlen, hrun⟩, hby, hy'⟩ := ih hb' h' (by omega) hrest
    refine ⟨⟨reply :: replies, by simp [hlen], ?_⟩, hby, hy'⟩
    rw [hrun, List.zip_cons_cons, VectorBase.run, hrep]

/-- Two keys on one vector, then `a` moved to another vector: `b` still holds the old one, so
the comparison reads live memory. -/
def addAddModifyRemove : List Mutation :=
  [.addRecord "a" [0, 0, 0, 0], .addRecord "b" [0, 0, 0, 0], .modifyRecord "a" [0, 0, 0, 2],
    .removeRecord "b"]

/-- A new flat index of one dimension, with capacity and block size `1`. -/
def newFlat : FlatIndex :=
  ⟨VectorBase.empty VectorBase.flatL2Dim1, VectorFlat.create 1 1 (by decide) (by decide)⟩

/-- The key `a` added to `newFlat` with a zero vector: id `0` in the bookkeeping and in the
kernel. -/
def oneKeyFlat : FlatIndex where
  base :=
    { params := VectorBase.flatL2Dim1
      trackedMetadataByKey := Finmap.singleton "a" ⟨0, kDefaultMagnitude⟩
      keyByInternalId := Finmap.singleton 0 "a"
      incId := 1
      trackedVectors := Finmap.singleton 0 [0, 0, 0, 0] }
  kernel := ⟨⟨1, 1, by decide, Finmap.singleton 0 [0, 0, 0, 0]⟩, 1, by decide⟩

theorem oneKeyFlat_inv : oneKeyFlat.base.Bookkeeping ∧ KernelInv oneKeyFlat :=
  (@run_inv newFlat oneKeyFlat (VectorBase.bookkeeping_empty _) (KernelInv.create _ _ _ le_rfl) 2
    [.addRecord "a" [0, 0, 0, 0]] (by decide) rfl).2

/-- The keys `a` and `b` added to a new flat index of capacity `2` with the vectors `0` and `1`:
ids `0` and `1`. -/
def twoKeyFlat : FlatIndex where
  base :=
    { params := VectorBase.flatL2Dim1
      trackedMetadataByKey :=
        Finmap.insert "b" ⟨1, kDefaultMagnitude⟩ (Finmap.singleton "a" ⟨0, kDefaultMagnitude⟩)
      keyByInternalId := Finmap.insert 1 "b" (Finmap.singleton 0 "a")
      incId := 2
      trackedVectors := Finmap.insert 1 [0, 0, 0, 1] (Finmap.singleton 0 [0, 0, 0, 0]) }
  kernel := ⟨⟨2, 2, by decide, Finmap.insert 1 [0, 0, 0, 1] (Finmap.singleton 0 [0, 0, 0, 0])⟩,
    1, by decide⟩

theorem twoKeyFlat_inv : twoKeyFlat.base.Bookkeeping ∧ KernelInv twoKeyFlat :=
  (@run_inv ⟨VectorBase.empty VectorBase.flatL2Dim1, VectorFlat.create 2 1 (by decide) (by decide)⟩
    twoKeyFlat (VectorBase.bookkeeping_empty _) (KernelInv.create _ _ _ le_rfl) 2
    [.addRecord "a" [0, 0, 0, 0], .addRecord "b" [0, 0, 0, 1]] (by decide) rfl).2

/-- The keys `a` and `b` added to a new flat index of capacity `2`, both with the vector `0`:
ids `0` and `1` on one interned vector. -/
def sharedFlat : FlatIndex where
  base :=
    { params := VectorBase.flatL2Dim1
      trackedMetadataByKey :=
        Finmap.insert "b" ⟨1, kDefaultMagnitude⟩ (Finmap.singleton "a" ⟨0, kDefaultMagnitude⟩)
      keyByInternalId := Finmap.insert 1 "b" (Finmap.singleton 0 "a")
      incId := 2
      trackedVectors := Finmap.insert 1 [0, 0, 0, 0] (Finmap.singleton 0 [0, 0, 0, 0]) }
  kernel := ⟨⟨2, 2, by decide, Finmap.insert 1 [0, 0, 0, 0] (Finmap.singleton 0 [0, 0, 0, 0])⟩,
    1, by decide⟩

theorem sharedFlat_inv : sharedFlat.base.Bookkeeping ∧ KernelInv sharedFlat :=
  (@run_inv ⟨VectorBase.empty VectorBase.flatL2Dim1, VectorFlat.create 2 1 (by decide) (by decide)⟩
    sharedFlat (VectorBase.bookkeeping_empty _) (KernelInv.create _ _ _ le_rfl) 2
    [.addRecord "a" [0, 0, 0, 0], .addRecord "b" [0, 0, 0, 0]] (by decide) rfl).2

/-! ## Errors: on a consistent index the kernel never fails -/

section Errors

variable {x y : FlatIndex} {key : String} {record : List UInt8} {fuel : Nat} {e : String}

/-- `AddRecordImpl` never fails, so `AddRecord` fails only in `TrackKey`: on the empty key, or
on a key already tracked. -/
theorem addRecord_error (hx : x.addRecord key record fuel = some (.error e, y)) :
    key = "" ∧ e = "key can't be empty" ∨
      key ∈ x.base.trackedMetadataByKey ∧ e = "Embedding id already exists: " ++ key := by
  unfold addRecord at hx
  generalize x.base.internVector record = o at hx
  rcases o with _ | ⟨vector, magnitude⟩ <;> dsimp only at hx
  · cases hx
  generalize ht : x.base.trackKey key (magnitude.getD kDefaultMagnitude) vector = t at hx
  rcases t with ⟨e' | id, s⟩ <;> dsimp only at hx
  · cases hx
    exact (VectorBase.trackKey_eq_error ht).1
  · obtain ⟨⟨r', k⟩, hk, hr⟩ := Option.map_eq_some'.1 hx
    obtain ⟨rfl, -⟩ := VectorFlat.addRecordImpl_eq_some hk
    cases hr

/-- On a state whose maps are inverse `RemoveRecord` never fails: `UnTrackKey` does not take its
error branch and `RemoveRecordImpl` does not throw. -/
theorem removeRecord_ok (hb : x.base.Bookkeeping) (key : String) :
    ∃ b, (x.removeRecord key).1 = .ok b := by
  obtain ⟨r, hr⟩ := VectorBase.unTrackKey_ok hb.inverse key
  unfold removeRecord
  rcases hu : x.base.unTrackKey key with ⟨r', s⟩
  rw [hu] at hr
  obtain rfl : r' = .ok r := hr
  rcases r with _ | id
  · exact ⟨_, rfl⟩
  · exact ⟨_, rfl⟩

/-- On a state with both invariants `ModifyRecord` fails only when `GetInternalId` finds no key
or `UpdateMetadata` refuses the empty key, and then it leaves the index as it was. -/
theorem modifyRecord_error (hb : x.base.Bookkeeping) (h : KernelInv x)
    (hx : x.modifyRecord key record = some (.error e, y)) :
    y = x ∧ (key ∉ x.base.trackedMetadataByKey ∧ e = "Record was not found" ∨
      key = "" ∧ e = "key can't be empty") := by
  unfold modifyRecord at hx
  generalize x.base.internVector record = o at hx
  rcases o with _ | ⟨vector, magnitude⟩ <;> dsimp only at hx
  · cases hx
  generalize hg : x.base.getInternalId key = g at hx
  rcases g with e' | id <;> dsimp only at hx
  · cases hx
    exact ⟨rfl, .inl (VectorBase.getInternalId_eq_error hg)⟩
  generalize hu : x.base.updateMetadata key (magnitude.getD kDefaultMagnitude) vector = u at hx
  rcases u with ⟨e' | _, s⟩ <;> dsimp only at hx
  · cases hx
    obtain ⟨_, he, rfl, hmsg⟩ | ⟨hr, -⟩ := VectorBase.updateMetadata_eq hu
    · cases he
      refine ⟨rfl, .inr (hmsg.resolve_right fun ⟨hnone, _⟩ => ?_)⟩
      obtain ⟨md, hmd, -⟩ := VectorBase.getInternalId_eq_ok hg
      rw [hmd] at hnone
      cases hnone
    · cases hr
  · -- the id is stored, so `ModifyRecordImpl` reads the row or freed memory; it never fails
    obtain ⟨saved, hs⟩ := Finmap.mem_iff.1 ((h.mem_iff id).2 (hb.getInternalId_mem hg))
    obtain ⟨⟨r', k⟩, hk, hr⟩ := Option.map_eq_some'.1 hx
    obtain ⟨rfl, -⟩ := VectorFlat.modifyRecordImpl_eq_some hs hk
    cases hr

/-- On a state with both invariants the kernel never fails: a mutation that fails is an
`AddRecord` of the empty key or of a tracked key, or a `ModifyRecord` of an untracked key or of
the empty key, which leaves the index as it was; `RemoveRecord` never fails. -/
theorem apply_error (hb : x.base.Bookkeeping) (h : KernelInv x) {m : Mutation}
    (hx : x.apply fuel m = some (.error e, y)) :
    (∃ key record, m = .addRecord key record ∧
      (key = "" ∧ e = "key can't be empty" ∨
        key ∈ x.base.trackedMetadataByKey ∧ e = "Embedding id already exists: " ++ key)) ∨
    ∃ key record, m = .modifyRecord key record ∧ y = x ∧
      (key ∉ x.base.trackedMetadataByKey ∧ e = "Record was not found" ∨
        key = "" ∧ e = "key can't be empty") := by
  cases m with
  | addRecord key record => exact .inl ⟨key, record, rfl, addRecord_error hx⟩
  | modifyRecord key record => exact .inr ⟨key, record, rfl, modifyRecord_error hb h hx⟩
  | removeRecord key =>
    obtain ⟨b, hr⟩ := removeRecord_ok hb key
    rw [show x.removeRecord key = (.error e, y) from Option.some.inj hx] at hr
    cases hr

theorem apply_error_modify_untracked :
    oneKeyFlat.base.Bookkeeping ∧ KernelInv oneKeyFlat ∧
      oneKeyFlat.apply 2 (.modifyRecord "b" [0, 0, 0, 1]) =
        some (.error "Record was not found", oneKeyFlat) ∧
      ((∃ key record, Mutation.modifyRecord "b" [0, 0, 0, 1] = .addRecord key record ∧
        (key = "" ∧ "Record was not found" = "key can't be empty" ∨
          key ∈ oneKeyFlat.base.trackedMetadataByKey ∧
            "Record was not found" = "Embedding id already exists: " ++ key)) ∨
      ∃ key record, Mutation.modifyRecord "b" [0, 0, 0, 1] = .modifyRecord key record ∧
        oneKeyFlat = oneKeyFlat ∧
        (key ∉ oneKeyFlat.base.trackedMetadataByKey ∧ "Record was not found" = "Record was not found" ∨
          key = "" ∧ "Record was not found" = "key can't be empty")) :=
  have hx : oneKeyFlat.apply 2 (.modifyRecord "b" [0, 0, 0, 1]) =
      some (.error "Record was not found", oneKeyFlat) := rfl
  ⟨oneKeyFlat_inv.1, oneKeyFlat_inv.2, hx, apply_error oneKeyFlat_inv.1 oneKeyFlat_inv.2 hx⟩

end Errors

/-! ## Distances: the kernel scores the vectors the bookkeeping tracks -/

section Distances

variable {D : Type} {x : FlatIndex}

/-- `ComputeDistanceFromRecord` of a flat index: the key's id from the bookkeeping, then the
kernel's `ComputeDistanceFromRecordImpl`, `distance` being `fstdistfunc_` from the query. -/
def computeDistanceFromRecord (x : FlatIndex) (distance : List UInt8 → D) (key : String) :
    Except String (D × Nat) :=
  x.base.computeDistanceFromRecord (x.kernel.computeDistanceFromRecordImpl distance) key

/-- On a flat index with both invariants, a tracked key is scored by the vector
`tracked_vectors_` holds for its id, and labelled with that id. -/
theorem computeDistanceFromRecord_of_lookup (hb : x.base.Bookkeeping) (h : KernelInv x)
    (distance : List UInt8 → D) {key : String} {md : TrackedMetadata}
    (hk : x.base.trackedMetadataByKey.lookup key = some md) :
    ∃ v, x.base.trackedVectors.lookup md.internalId = some v ∧
      x.computeDistanceFromRecord distance key = .ok (distance v, md.internalId) := by
  have hid := Finmap.mem_of_lookup_eq_some (hb.inverse.lookup_id hk)
  obtain ⟨v, hv⟩ := Finmap.mem_iff.1 (hb.vectors _ hid)
  have hd : x.kernel.algo.data.lookup md.internalId = some v := (h.lookup _ hid).trans hv
  refine ⟨v, hv, VectorBase.computeDistanceFromRecord_eq_ok.2 ⟨md, hk, ?_⟩⟩
  simp only [VectorFlat.computeDistanceFromRecordImpl, hd]

/-- The pre-filter loop over a flat index with both invariants, `count ≥ 1`, and no tracked
vector at NaN from the query: it returns, keeps `min(count, #tracked ids offered)` entries,
each the distance of an offered tracked key's vector labelled with its id, and every offered
tracked key left out is at least as far from the query as every entry kept. -/
theorem prefilter_flat [LinearOrder D] (hb : x.base.Bookkeeping) (h : KernelInv x)
    (distance : List UInt8 → FloatDist D)
    (hnan : ∀ id v, x.base.trackedVectors.lookup id = some v → distance v ≠ .nan) {count : Nat}
    (hc : 1 ≤ count) (keys : List String) :
    ∃ results topKeys,
      prefilter (x.computeDistanceFromRecord distance) count keys = some (results, topKeys) ∧
      results.size = min count (definedLabels (x.computeDistanceFromRecord distance) keys).card ∧
      (∀ y ∈ results.elems, ∃ key ∈ keys, ∃ md v,
        x.base.trackedMetadataByKey.lookup key = some md ∧
        x.base.trackedVectors.lookup md.internalId = some v ∧ y = (distance v, md.internalId)) ∧
      ∀ key ∈ keys, ∀ md v, x.base.trackedMetadataByKey.lookup key = some md →
        x.base.trackedVectors.lookup md.internalId = some v → md.internalId ∉ results.labels →
        ∀ y ∈ results.elems, y.1 ≤ distance v := by
  -- a key has a distance only through its tracked vector, so no distance is NaN
  obtain ⟨cd, hcd⟩ : ∃ cd, numDist cd = x.computeDistanceFromRecord distance := by
    refine exists_numDist fun key e he => ?_
    obtain ⟨md, hk, -⟩ := VectorBase.computeDistanceFromRecord_eq_ok.1 he
    obtain ⟨v, hv, hd⟩ := computeDistanceFromRecord_of_lookup hb h distance hk
    rw [hd] at he
    cases he
    exact hnan _ v hv
  have hinj : LabelInjective (x.computeDistanceFromRecord distance) :=
    VectorFlat.labelInjective_flat hb.inverse x.kernel distance
  rw [← hcd] at hinj ⊢
  obtain ⟨r, t, hrun, hi⟩ := Ordered.prefilter_inv (labelInjective_of_numDist hinj) hc keys
  refine ⟨.ofQueue r, t, by rw [prefilter_numDist, hrun]; rfl,
    by rw [FloatQueue.size_ofQueue, hi.size_eq, definedLabels_numDist], fun y hy => ?_, ?_⟩
  · obtain ⟨y₀, hy₀, rfl⟩ := List.mem_map.1 hy
    obtain ⟨key, hkey, hk⟩ := hi.sound y₀ hy₀
    have hk' : x.computeDistanceFromRecord distance key = .ok (numEntry y₀) :=
      hcd ▸ numDist_eq_ok.2 ⟨y₀, hk, rfl⟩
    obtain ⟨md, hmd, -⟩ := VectorBase.computeDistanceFromRecord_eq_ok.1 hk'
    obtain ⟨v, hv, hd⟩ := computeDistanceFromRecord_of_lookup hb h distance hmd
    exact ⟨key, hkey, md, v, hmd, hv, Except.ok.inj (hk'.symm.trans hd)⟩
  · intro key hkey md v hk hv hl y hy
    obtain ⟨y₀, hy₀, rfl⟩ := List.mem_map.1 hy
    obtain ⟨v', hv', hd⟩ := computeDistanceFromRecord_of_lookup hb h distance hk
    obtain rfl : v = v' := Option.some.inj (hv.symm.trans hv')
    obtain ⟨e₀, he₀, he⟩ := numDist_eq_ok.1 (hcd.symm ▸ hd)
    obtain ⟨hd₀, hl₀⟩ : FloatDist.num e₀.1 = distance v ∧ e₀.2 = md.internalId :=
      Prod.ext_iff.1 he
    rw [← hd₀]
    rw [FloatQueue.labels_ofQueue, ← hl₀] at hl
    exact FloatDist.num_le_num.2 (hi.nearest key hkey e₀ he₀ hl y₀ hy₀)

/-- `a`'s vector scores `0` from the query, `b`'s scores `1`: the sum of its bytes. -/
def byteSum (v : List UInt8) : FloatDist Nat := .num (v.foldr (fun b acc => b.toNat + acc) 0)

theorem prefilter_flat_two_keys :
    twoKeyFlat.base.Bookkeeping ∧ KernelInv twoKeyFlat ∧
    (∀ id v, twoKeyFlat.base.trackedVectors.lookup id = some v → byteSum v ≠ .nan) ∧ 1 ≤ 1 ∧
    ∃ results topKeys,
      prefilter (twoKeyFlat.computeDistanceFromRecord byteSum) 1 ["b", "a", "c"] =
        some (results, topKeys) ∧
      results.size =
        min 1 (definedLabels (twoKeyFlat.computeDistanceFromRecord byteSum) ["b", "a", "c"]).card ∧
      (∀ y ∈ results.elems, ∃ key ∈ ["b", "a", "c"], ∃ md v,
        twoKeyFlat.base.trackedMetadataByKey.lookup key = some md ∧
        twoKeyFlat.base.trackedVectors.lookup md.internalId = some v ∧
          y = (byteSum v, md.internalId)) ∧
      ∀ key ∈ ["b", "a", "c"], ∀ md v,
        twoKeyFlat.base.trackedMetadataByKey.lookup key = some md →
        twoKeyFlat.base.trackedVectors.lookup md.internalId = some v →
        md.internalId ∉ results.labels → ∀ y ∈ results.elems, y.1 ≤ byteSum v :=
  have hnan : ∀ id v, twoKeyFlat.base.trackedVectors.lookup id = some v → byteSum v ≠ .nan :=
    fun _ _ _ => FloatDist.noConfusion
  ⟨twoKeyFlat_inv.1, twoKeyFlat_inv.2, hnan, le_rfl,
    prefilter_flat twoKeyFlat_inv.1 twoKeyFlat_inv.2 byteSum hnan le_rfl ["b", "a", "c"]⟩

/-- When every label of the heap is stored, `CreateReply` drops none of its entries: each
becomes the neighbor of the key tracked under its label, at its distance. -/
theorem forall₂_filterMap_neighborOf (s : VectorBase) {l : List (D × Nat)}
    (hl : ∀ e ∈ l, e.2 ∈ s.keyByInternalId) :
    (l.filterMap s.neighborOf).Forall₂ (fun n e => s.keyByInternalId.lookup e.2 =
      some n.externalId ∧ n.distance = e.1 ∧ n.attributeContents = none) l := by
  induction l with
  | nil => exact .nil
  | cons e l ih =>
    obtain ⟨key, hkey⟩ := Finmap.mem_iff.1 (hl e (List.mem_cons_self _ _))
    rw [List.filterMap_cons_some (show s.neighborOf e = some ⟨key, e.1, none⟩ by
      simp only [VectorBase.neighborOf, hkey, Option.map_some'])]
    exact .cons ⟨hkey, rfl, rfl⟩ (ih fun e' he' => hl e' (List.mem_cons_of_mem _ he'))

/-- A search of a flat index with the kernel invariant, for a query of the right size, asks the
kernel for `min(count, GetRecordCount())` neighbors of the (normalised) query; when the heap it
gets holds only stored ids, the search returns one neighbor for each heap entry, in `pop` order:
the key tracked under the entry's id, at the entry's distance. -/
theorem search_flat [LinearOrder D] (h : KernelInv x) {query : List UInt8}
    (hq : isValidSizeVector x.base.params query = true) {count : Nat}
    {searchKnn : List UInt8 → Nat → Except String (PriorityQueue D)} {knnRes : PriorityQueue D}
    (hres : searchKnn (if x.base.params.normalize then (x.base.params.normalizeEmbedding query).1
      else query) (min count x.base.getRecordCount) = .ok knnRes)
    (hknn : ∀ e ∈ knnRes.elems, e.2 ∈ x.kernel.algo.data) :
    ∃ neighbors, x.kernel.search x.base query count searchKnn = .ok neighbors ∧
      neighbors.Forall₂ (fun n e => x.base.keyByInternalId.lookup e.2 = some n.externalId ∧
        n.distance = e.1 ∧ n.attributeContents = none) knnRes.elems := by
  refine ⟨_, ?_, forall₂_filterMap_neighborOf x.base fun e he => (h.mem_iff _).1 (hknn e he)⟩
  rw [VectorFlat.search, if_neg (by simp [hq]), h.count_eq_getRecordCount]
  dsimp only
  rw [hres]
  exact congrArg _ (VectorBase.createReply_eq _ _)

theorem search_flat_two_hits :
    KernelInv twoKeyFlat ∧ isValidSizeVector twoKeyFlat.base.params [0, 0, 0, 1] = true ∧
      (fun _ _ => .ok VectorBase.twoHits : List UInt8 → Nat → Except String (PriorityQueue Nat))
          (if twoKeyFlat.base.params.normalize then
            (twoKeyFlat.base.params.normalizeEmbedding [0, 0, 0, 1]).1 else [0, 0, 0, 1])
          (min 5 twoKeyFlat.base.getRecordCount) = .ok VectorBase.twoHits ∧
      (∀ e ∈ VectorBase.twoHits.elems, e.2 ∈ twoKeyFlat.kernel.algo.data) ∧
      ∃ neighbors, twoKeyFlat.kernel.search twoKeyFlat.base [0, 0, 0, 1] 5
          (fun _ _ => .ok VectorBase.twoHits) = .ok neighbors ∧
        neighbors.Forall₂ (fun n e => twoKeyFlat.base.keyByInternalId.lookup e.2 =
          some n.externalId ∧ n.distance = e.1 ∧ n.attributeContents = none)
          VectorBase.twoHits.elems :=
  ⟨twoKeyFlat_inv.2, by decide, rfl, by decide,
    search_flat twoKeyFlat_inv.2 (by decide) rfl (by decide)⟩

end Distances

end FlatIndex

end ValkeySearch
