import ValkeySearch.Indexes.VectorBase

/-
  The bookkeeping invariant of `VectorBase`: `tracked_metadata_by_key_` and
  `key_by_internal_id_` are mutually inverse, every tracked id is below `inc_id_`, and every
  tracked id has its vector in `tracked_vectors_`. `TrackKey`, `UnTrackKey` and
  `UpdateMetadata` keep it (`TrackKey` as long as `inc_id_ + 1` does not wrap), hence so does
  every mutation, whatever the kernel answers.
-/

namespace ValkeySearch

/-- Two maps are mutually inverse: `meta[key].internal_id = id` exactly when
`kbi[id] = key`. -/
def Inverse (meta : Finmap fun _ : String => TrackedMetadata)
    (kbi : Finmap fun _ : Nat => String) : Prop :=
  ∀ key id, (meta.lookup key).map TrackedMetadata.internalId = some id ↔ kbi.lookup id = some key

section Inverse

variable {meta : Finmap fun _ : String => TrackedMetadata} {kbi : Finmap fun _ : Nat => String}

theorem Inverse.lookup_id (h : Inverse meta kbi) {key : String} {md : TrackedMetadata}
    (hk : meta.lookup key = some md) : kbi.lookup md.internalId = some key :=
  (h key _).1 (by rw [hk]; rfl)

theorem Inverse.insert (h : Inverse meta kbi) {key : String} {id : Nat} (mag : Float)
    (hk : key ∉ meta) (hi : id ∉ kbi) :
    Inverse (meta.insert key ⟨id, mag⟩) (kbi.insert id key) := by
  intro key' id'
  by_cases e : key' = key <;> by_cases f : id' = id
  · subst e f; simp [Finmap.lookup_insert]
  · subst e
    rw [Finmap.lookup_insert, Finmap.lookup_insert_of_ne _ f, ← h, Finmap.lookup_eq_none.2 hk]
    simp [Ne.symm f]
  · subst f
    rw [Finmap.lookup_insert_of_ne _ e, Finmap.lookup_insert, h, Finmap.lookup_eq_none.2 hi]
    simp [Ne.symm e]
  · rw [Finmap.lookup_insert_of_ne _ e, Finmap.lookup_insert_of_ne _ f]
    exact h key' id'

theorem Inverse.erase (h : Inverse meta kbi) {key : String} {md : TrackedMetadata}
    (hk : meta.lookup key = some md) :
    Inverse (meta.erase key) (kbi.erase md.internalId) := by
  intro key' id'
  by_cases e : key' = key <;> by_cases f : id' = md.internalId
  · subst e f; simp [Finmap.lookup_erase]
  · subst e
    rw [Finmap.lookup_erase, Finmap.lookup_erase_ne f, ← h, hk]
    simp [Ne.symm f]
  · subst f
    rw [Finmap.lookup_erase_ne e, Finmap.lookup_erase, h, h.lookup_id hk]
    simp [Ne.symm e]
  · rw [Finmap.lookup_erase_ne e, Finmap.lookup_erase_ne f]
    exact h key' id'

theorem Inverse.setMagnitude (h : Inverse meta kbi) {key : String} {md : TrackedMetadata}
    (hk : meta.lookup key = some md) (mag : Float) :
    Inverse (meta.insert key { md with magnitude := mag }) kbi := by
  intro key' id'
  by_cases e : key' = key
  · subst e; rw [Finmap.lookup_insert, ← h, hk]; rfl
  · rw [Finmap.lookup_insert_of_ne _ e, h]

/-- Mutually inverse maps have as many entries: `GetRecordCount` counts tracked keys. -/
theorem Inverse.card_keys (h : Inverse meta kbi) : meta.keys.card = kbi.keys.card := by
  refine Finset.card_nbij' (fun key => ((meta.lookup key).map (·.internalId)).getD 0)
    (fun id => (kbi.lookup id).getD "") ?_ ?_ ?_ ?_ <;>
  intro a ha <;> rw [Finmap.mem_keys, ← Finmap.lookup_isSome, Option.isSome_iff_exists] at ha
  · obtain ⟨md, hmd⟩ := ha
    dsimp only
    rw [hmd, Finmap.mem_keys, ← Finmap.lookup_isSome, Option.map_some', Option.getD_some,
      h.lookup_id hmd]
    rfl
  · obtain ⟨key, hkey⟩ := ha
    obtain ⟨md, hmd, -⟩ := Option.map_eq_some'.1 ((h _ _).2 hkey)
    dsimp only
    rw [hkey, Option.getD_some, Finmap.mem_keys, ← Finmap.lookup_isSome, hmd]
    rfl
  · obtain ⟨md, hmd⟩ := ha
    dsimp only
    rw [hmd, Option.map_some', Option.getD_some, h.lookup_id hmd, Option.getD_some]
  · obtain ⟨key, hkey⟩ := ha
    dsimp only
    rw [hkey, Option.getD_some, (h _ _).2 hkey, Option.getD_some]

end Inverse

namespace VectorBase

/-- The bookkeeping invariant of a vector index. -/
structure Bookkeeping (s : VectorBase) : Prop where
  inverse : Inverse s.trackedMetadataByKey s.keyByInternalId
  below : ∀ id ∈ s.keyByInternalId, id < s.incId
  vectors : ∀ id ∈ s.keyByInternalId, id ∈ s.trackedVectors

theorem bookkeeping_empty (p : IndexParams) : Bookkeeping (empty p) :=
  ⟨fun _ _ => by simp [empty], fun _ h => absurd h Finmap.not_mem_empty,
    fun _ h => absurd h Finmap.not_mem_empty⟩

section Step

variable {s : VectorBase}

theorem Bookkeeping.trackKey (h : Bookkeeping s) {key : String} {mag : Float}
    {v : List UInt8} (hb : (s.trackKey key mag v).2.incId ≠ s.incId → s.incId + 1 < 2 ^ 64) :
    Bookkeeping (s.trackKey key mag v).2 := by
  rw [trackKey_incId] at hb
  unfold VectorBase.trackKey
  split_ifs at hb ⊢ with hkey hmem
  · exact h
  · have hb := hb (by omega)
    refine ⟨h.inverse, fun id hid => ?_, fun id hid => ?_⟩
    · have := h.below id hid; simp only [trackVector]; omega
    · simp [trackVector, h.vectors id hid]
  · have hb := hb (by omega)
    have hfresh : s.incId ∉ s.keyByInternalId := fun hm => lt_irrefl _ (h.below _ hm)
    simp only [mapInsert_of_not_mem hfresh]
    refine ⟨h.inverse.insert mag hmem hfresh, fun id hid => ?_, fun id hid => ?_⟩
    · rcases Finmap.mem_insert.1 hid with rfl | hid
      · simp only [trackVector]; omega
      · have := h.below id hid; simp only [trackVector]; omega
    · rcases Finmap.mem_insert.1 hid with rfl | hid
      · simp [trackVector]
      · simp [trackVector, h.vectors id hid]

theorem Bookkeeping.unTrackKey (h : Bookkeeping s) (key : String) :
    Bookkeeping (s.unTrackKey key).2 := by
  unfold VectorBase.unTrackKey
  split_ifs
  · exact h
  · split
    · exact h
    · rename_i md hmd
      dsimp only
      rw [if_pos (Finmap.mem_of_lookup_eq_some (h.inverse.lookup_id hmd))]
      refine ⟨h.inverse.erase hmd, fun id hid => h.below id (Finmap.mem_erase.1 hid).2,
        fun id hid => ?_⟩
      obtain ⟨hne, hid⟩ := Finmap.mem_erase.1 hid
      exact Finmap.mem_erase.2 ⟨hne, h.vectors id hid⟩

/-- On a state with mutually inverse maps, `UnTrackKey` never takes its error branch. -/
theorem unTrackKey_ok (h : Inverse s.trackedMetadataByKey s.keyByInternalId) (key : String) :
    ∃ r, (s.unTrackKey key).1 = .ok r := by
  unfold VectorBase.unTrackKey
  split_ifs
  · exact ⟨none, rfl⟩
  · split
    · exact ⟨none, rfl⟩
    · rename_i md hmd
      dsimp only
      rw [if_pos (Finmap.mem_of_lookup_eq_some (h.lookup_id hmd))]
      exact ⟨_, rfl⟩

theorem Bookkeeping.updateMetadata (h : Bookkeeping s) (key : String) (mag : Float)
    (v : List UInt8) : Bookkeeping (s.updateMetadata key mag v).2 := by
  unfold VectorBase.updateMetadata
  split_ifs
  · exact h
  · split
    · exact h
    · rename_i md hmd
      exact ⟨h.inverse.setMagnitude hmd mag, h.below, fun id hid => by
        simp [trackVector, h.vectors id hid]⟩

theorem Bookkeeping.addRecord (h : Bookkeeping s) {key : String} {record : List UInt8}
    {kernel : KernelReply}
    (hb : (s.addRecord key record kernel).2.incId ≠ s.incId → s.incId + 1 < 2 ^ 64) :
    Bookkeeping (s.addRecord key record kernel).2 := by
  obtain ⟨mag, v, e | e | e⟩ := addRecord_state s key record kernel <;> rw [e] at hb ⊢
  · exact h
  · exact h.trackKey hb
  · exact (h.trackKey (by simpa using hb)).unTrackKey key

theorem Bookkeeping.modifyRecord (h : Bookkeeping s) (key : String) (record : List UInt8)
    (kernel : KernelReply) : Bookkeeping (s.modifyRecord key record kernel).2 := by
  obtain ⟨mag, v, e | e | e | e⟩ := modifyRecord_state s key record kernel <;> rw [e]
  · exact h
  · exact h.unTrackKey key
  · exact h.updateMetadata key mag v
  · exact (h.updateMetadata key mag v).unTrackKey key

/-- One mutation keeps the invariant, whatever the kernel answers, as long as the id it may
issue does not wrap `inc_id_`. -/
theorem Bookkeeping.apply (h : Bookkeeping s) (kernel : KernelReply) (m : Mutation)
    (hb : (s.apply kernel m).2.incId ≠ s.incId → s.incId + 1 < 2 ^ 64) :
    Bookkeeping (s.apply kernel m).2 := by
  cases m with
  | addRecord key record => exact h.addRecord hb
  | modifyRecord key record => exact h.modifyRecord key record kernel
  | removeRecord key =>
    show Bookkeeping (s.removeRecord key kernel).2
    rw [removeRecord_state]; exact h.unTrackKey key

/-- A mutation either leaves `inc_id_` alone or increments it. -/
theorem apply_incId (s : VectorBase) (kernel : KernelReply) (m : Mutation) :
    (s.apply kernel m).2.incId = s.incId ∨
      (s.apply kernel m).2.incId = (s.incId + 1) % 2 ^ 64 := by
  cases m with
  | addRecord key record =>
    obtain ⟨mag, v, e | e | e⟩ := addRecord_state s key record kernel <;>
    simp only [VectorBase.apply, e, unTrackKey_incId, trackKey_incId]
    · exact .inl trivial
    all_goals split_ifs <;> simp
  | modifyRecord key record =>
    obtain ⟨mag, v, e | e | e | e⟩ := modifyRecord_state s key record kernel <;>
    simp [apply, e]
  | removeRecord key => simp [apply, removeRecord_state]

end Step

/-- Along a run whose issued ids do not wrap `inc_id_`, the invariant holds at the end, the
issued ids are `inc_id_, inc_id_ + 1, …` in order, and `inc_id_` has advanced by their
number. -/
theorem Bookkeeping.run {s : VectorBase} (h : Bookkeeping s) (ops : List (Mutation × KernelReply))
    (hb : s.incId + (s.issuedIds ops).length < 2 ^ 64) :
    Bookkeeping (s.run ops) ∧ s.issuedIds ops = List.range' s.incId (s.issuedIds ops).length ∧
      (s.run ops).incId = s.incId + (s.issuedIds ops).length := by
  induction ops generalizing s with
  | nil => exact ⟨h, rfl, rfl⟩
  | cons op rest ih =>
    obtain ⟨m, kernel⟩ := op
    simp only [VectorBase.issuedIds, VectorBase.run] at hb ⊢
    rcases apply_incId s kernel m with e | e
    · simp only [e, if_true, List.nil_append] at hb ⊢
      have h' := h.apply kernel m (by rw [e]; exact absurd rfl)
      rw [← e] at hb ⊢
      exact ih h' hb
    · have hne : (s.incId + 1) % 2 ^ 64 ≠ s.incId := by omega
      simp only [e, hne, if_false, List.singleton_append, List.length_cons] at hb ⊢
      have e' : (s.apply kernel m).2.incId = s.incId + 1 := by rw [e]; omega
      have h' := h.apply kernel m (fun _ => by omega)
      obtain ⟨hi, hr, hc⟩ := ih h' (by omega)
      rw [e'] at hr hc
      exact ⟨hi, by rw [hr, List.length_range']; rfl, by omega⟩

/-- Every state a run from a new index reaches, when the run issues fewer than `2^64` ids,
whatever the keys, the payloads and the kernel's answers: the two maps are mutually inverse,
every tracked id is below `inc_id_`, `TrackKey` issued `0, 1, 2, …` (so no id twice),
`UnTrackKey` never takes its error branch, and `GetRecordCount` is the number of tracked
keys. -/
theorem bookkeeping_of_run (p : IndexParams) (ops : List (Mutation × KernelReply))
    (s : VectorBase) (hs : (empty p).run ops = s)
    (hn : ((empty p).issuedIds ops).length < 2 ^ 64) :
    Inverse s.trackedMetadataByKey s.keyByInternalId ∧
      (∀ id ∈ s.keyByInternalId, id < s.incId) ∧
      (empty p).issuedIds ops = List.range s.incId ∧ ((empty p).issuedIds ops).Nodup ∧
      (∀ key, ∃ r, (s.unTrackKey key).1 = .ok r) ∧
      s.getRecordCount = s.trackedMetadataByKey.keys.card := by
  subst hs
  obtain ⟨h, hr, hc⟩ := (bookkeeping_empty p).run ops (by simpa [empty] using hn)
  have hrange : (empty p).issuedIds ops = List.range ((empty p).run ops).incId := by
    rw [hc, List.range_eq_range', show (empty p).incId = 0 from rfl, zero_add]; exact hr
  exact ⟨h.inverse, h.below, hrange, hrange ▸ List.nodup_range _,
    fun key => unTrackKey_ok h.inverse key, h.inverse.card_keys.symm⟩

/-- A one-dimensional index with the L2 metric (no normalisation). -/
def flatL2Dim1 : IndexParams := ⟨1, false, fun r => (r, 0)⟩

/-- Add a key, add it again, remove it. -/
def addTwiceRemove : List (Mutation × KernelReply) :=
  [(.addRecord "a" [0, 0, 0, 0], {}), (.addRecord "a" [0, 0, 0, 0], {}), (.removeRecord "a", {})]

theorem bookkeeping_of_add_twice_remove :
    ((empty flatL2Dim1).issuedIds addTwiceRemove).length < 2 ^ 64 ∧
    Inverse ((empty flatL2Dim1).run addTwiceRemove).trackedMetadataByKey
        ((empty flatL2Dim1).run addTwiceRemove).keyByInternalId ∧
      (∀ id ∈ ((empty flatL2Dim1).run addTwiceRemove).keyByInternalId,
        id < ((empty flatL2Dim1).run addTwiceRemove).incId) ∧
      (empty flatL2Dim1).issuedIds addTwiceRemove =
        List.range ((empty flatL2Dim1).run addTwiceRemove).incId ∧
      ((empty flatL2Dim1).issuedIds addTwiceRemove).Nodup ∧
      (∀ key, ∃ r, (((empty flatL2Dim1).run addTwiceRemove).unTrackKey key).1 = .ok r) ∧
      ((empty flatL2Dim1).run addTwiceRemove).getRecordCount =
        ((empty flatL2Dim1).run addTwiceRemove).trackedMetadataByKey.keys.card :=
  ⟨by decide, bookkeeping_of_run _ _ _ rfl (by decide)⟩

/-- The index after `AddRecord("a", 4 zero bytes)` with the kernel succeeding. -/
def oneKeyIndex : VectorBase :=
  (empty flatL2Dim1).run [(.addRecord "a" [0, 0, 0, 0], {})]

/-- `TrackKey` calls `TrackVector` before it reports a key that is already tracked: a second
`AddRecord` of the key fails, yet leaves a vector under id 1, which no key holds. -/
theorem addRecord_duplicate_leaks_vector :
    (oneKeyIndex.addRecord "a" [0, 0, 0, 0] {}).1.toBool = false ∧
      1 ∉ oneKeyIndex.trackedVectors ∧
      1 ∈ (oneKeyIndex.addRecord "a" [0, 0, 0, 0] {}).2.trackedVectors ∧
      1 ∉ (oneKeyIndex.addRecord "a" [0, 0, 0, 0] {}).2.keyByInternalId := by
  decide

end VectorBase

end ValkeySearch
