import ValkeySearch.Indexes.FlatIndex

/-
  What a flat vector index is for. `KeyVectors` maps each indexed key to the vector it is
  indexed under, and `KeyVectors.apply` says what `AddRecord`, `ModifyRecord` and
  `RemoveRecord` do to that map and what they return, errors included. This abstract index is
  stated here, not translated from the sources. `VectorBase.vectorOf` reads the map off the
  bookkeeping: the vector `tracked_vectors_` holds for the id of each tracked key.
  `KeyVectors.Releases` names, in the abstract index, the mutations on which the flat index may
  read a vector it freed, and `KeyVectors.SafeRun` the runs with none.

  Proved:
  * `FlatIndex.apply_refines`: one step of the simulation. On a state with both invariants and
    the empty key untracked, a mutation of the flat index reads a freed vector exactly when it
    `Releases`; otherwise it returns what the abstract index returns, changes the map as it
    does, and keeps the invariants. The vector `TrackKey` leaks on a duplicate key is never
    seen through a key. `FlatIndex.releases_keyVectors`: such a mutation `Releases` in the
    abstract index too.
  * `FlatIndex.run_refines`: every safe run of fewer than `2^64` mutations from a new flat
    index with `block_size ≥ 1` returns, in the map the abstract index reaches by the same
    mutations.
  * How mutations compose, computed on the abstract index and carried over: adding a new key
    and removing it again gives back every key's vector (`addRecord_removeRecord`), and after
    a `ModifyRecord` that returns, a second one with the same payload returns false and changes
    nothing (`modifyRecord_twice`).
-/

namespace ValkeySearch

/-! ## The abstract index -/

/-- What a vector index is for: the vector each key is indexed under, `none` for a key that is
not indexed. -/
structure KeyVectors where
  vectorOf : String → Option (List UInt8)

namespace KeyVectors

/-- The index with no key. -/
def empty : KeyVectors := ⟨fun _ => none⟩

/-- `key` indexed under `v`, or dropped for `none`. -/
def set (m : KeyVectors) (key : String) (v : Option (List UInt8)) : KeyVectors :=
  ⟨Function.update m.vectorOf key v⟩

/-- One mutation; `intern` is the vector a payload is indexed as, `none` for a payload of the
wrong size. Such a payload is refused, and drops the key it was to modify. The empty key and a
key already indexed cannot be added, only an indexed key can be modified; a modification
returns whether the vector changed, a removal whether the key was indexed. -/
def apply (intern : List UInt8 → Option (List UInt8)) (m : KeyVectors) :
    Mutation → Except String Bool × KeyVectors
  | .addRecord key record =>
    match intern record with
    | none => (.ok false, m)
    | some v =>
      if key = "" then (.error "key can't be empty", m)
      else if (m.vectorOf key).isSome then (.error ("Embedding id already exists: " ++ key), m)
      else (.ok true, m.set key (some v))
  | .modifyRecord key record =>
    match intern record with
    | none => (.ok false, m.set key none)
    | some v =>
      match m.vectorOf key with
      | none => (.error "Record was not found", m)
      | some old => (.ok (decide (old ≠ v)), m.set key (some v))
  | .removeRecord key => (.ok (m.vectorOf key).isSome, m.set key none)

/-- The abstract index after a sequence of mutations. -/
def run (intern : List UInt8 → Option (List UInt8)) (m : KeyVectors) :
    List Mutation → KeyVectors
  | [] => m
  | op :: rest => (m.apply intern op).2.run intern rest

/-- The mutations on which a flat index may read a vector it has freed: a modification of an
indexed key to another vector while no other key is indexed under the key's vector. -/
def Releases (intern : List UInt8 → Option (List UInt8)) (m : KeyVectors) : Mutation → Prop
  | .modifyRecord key record => ∃ v old, intern record = some v ∧ m.vectorOf key = some old ∧
      old ≠ v ∧ ∀ k ≠ key, m.vectorOf k ≠ some old
  | _ => False

/-- A sequence of mutations none of which `Releases` in the index it meets. -/
def SafeRun (intern : List UInt8 → Option (List UInt8)) (m : KeyVectors) : List Mutation → Prop
  | [] => True
  | op :: rest => ¬ m.Releases intern op ∧ (m.apply intern op).2.SafeRun intern rest

@[simp] theorem set_vectorOf_self (m : KeyVectors) (key : String) (v : Option (List UInt8)) :
    (m.set key v).vectorOf key = v := Function.update_same _ _ _

@[simp] theorem set_set (m : KeyVectors) (key : String) (v w : Option (List UInt8)) :
    (m.set key v).set key w = m.set key w := congrArg mk (Function.update_idem _ _ _)

theorem set_of_eq {m : KeyVectors} {key : String} {v : Option (List UInt8)}
    (h : m.vectorOf key = v) : m.set key v = m := by
  show (⟨Function.update m.vectorOf key v⟩ : KeyVectors) = m
  rw [← h, Function.update_eq_self]

section Apply

variable {intern : List UInt8 → Option (List UInt8)} {m : KeyVectors} {key : String}
  {record v : List UInt8}

theorem apply_addRecord_fresh (hi : intern record = some v) (hkey : key ≠ "")
    (hn : m.vectorOf key = none) :
    m.apply intern (.addRecord key record) = (.ok true, m.set key (some v)) := by
  simp [apply, hi, hkey, hn]

theorem apply_modifyRecord_of_some (hi : intern record = some v) {old : List UInt8}
    (ho : m.vectorOf key = some old) :
    m.apply intern (.modifyRecord key record) = (.ok (decide (old ≠ v)), m.set key (some v)) := by
  simp [apply, hi, ho]

end Apply

/-- The abstract index never indexes the empty key. -/
theorem apply_vectorOf_empty (intern : List UInt8 → Option (List UInt8)) {m : KeyVectors}
    (h : m.vectorOf "" = none) (op : Mutation) : (m.apply intern op).2.vectorOf "" = none := by
  have hset : ∀ key v, key ≠ "" → (m.set key v).vectorOf "" = none := fun key v hk => by
    show Function.update m.vectorOf key v "" = none
    rw [Function.update_noteq (Ne.symm hk), h]
  cases op with
  | addRecord key record =>
    simp only [apply]
    split
    · exact h
    · split_ifs with hk
      · exact h
      · exact h
      · exact hset _ _ hk
  | modifyRecord key record =>
    simp only [apply]
    split
    · simp [set, Function.update_apply, h]
    · split
      · exact h
      · next old hold => exact hset _ _ fun e => by rw [e, h] at hold; cases hold
  | removeRecord key => simp [apply, set, Function.update_apply, h]

end KeyVectors

/-- The vector `InternVector` indexes a payload as under `p`. -/
def IndexParams.intern (p : IndexParams) (record : List UInt8) : Option (List UInt8) :=
  ((VectorBase.empty p).internVector record).map Prod.fst

/-- Distinct tracked keys hold distinct ids. -/
theorem Inverse.internalId_ne {meta : Finmap fun _ : String => TrackedMetadata}
    {kbi : Finmap fun _ : Nat => String} (h : Inverse meta kbi) {k k' : String}
    {md md' : TrackedMetadata} (hk : meta.lookup k = some md) (hk' : meta.lookup k' = some md')
    (hne : k ≠ k') : md.internalId ≠ md'.internalId := fun e => by
  have h₁ := h.lookup_id hk
  rw [e, h.lookup_id hk'] at h₁
  exact hne (Option.some.inj h₁).symm

namespace VectorBase

/-- The vector a tracked key is indexed under: the one `tracked_vectors_` holds for its id. -/
def vectorOf (s : VectorBase) (key : String) : Option (List UInt8) :=
  (s.trackedMetadataByKey.lookup key).bind fun md => s.trackedVectors.lookup md.internalId

theorem internVector_map_fst (s : VectorBase) (record : List UInt8) :
    (s.internVector record).map Prod.fst = s.params.intern record := rfl

theorem intern_eq_of_internVector {s : VectorBase} {record vector : List UInt8}
    {magnitude : Option Float} (h : s.internVector record = some (vector, magnitude)) :
    s.params.intern record = some vector := by
  rw [← internVector_map_fst, h]
  rfl

/-! ## What each step does to the indexed vectors -/

section VectorOf

variable {s s' : VectorBase} {key : String}

/-- A tracked key has a vector. -/
theorem Bookkeeping.vectorOf_eq_none (hb : s.Bookkeeping) :
    s.vectorOf key = none ↔ key ∉ s.trackedMetadataByKey := by
  rw [← Finmap.lookup_eq_none, vectorOf]
  cases hk : s.trackedMetadataByKey.lookup key with
  | none => simp
  | some md =>
    obtain ⟨v, hv⟩ := Finmap.mem_iff.1
      (hb.vectors _ (Finmap.mem_of_lookup_eq_some (hb.inverse.lookup_id hk)))
    simp [hv]

/-- The tracked keys unchanged, and the vectors of the tracked ids. -/
theorem Bookkeeping.vectorOf_frame (hb : s.Bookkeeping)
    (hk : s'.trackedMetadataByKey = s.trackedMetadataByKey)
    (hv : ∀ id ∈ s.keyByInternalId, s'.trackedVectors.lookup id = s.trackedVectors.lookup id) :
    s'.vectorOf = s.vectorOf := funext fun k => by
  simp only [vectorOf, hk]
  cases hmd : s.trackedMetadataByKey.lookup k with
  | none => rfl
  | some md =>
    exact hv _ (Finmap.mem_of_lookup_eq_some (hb.inverse.lookup_id hmd))

/-- `key` tracked under an id no other tracked key holds, with the vector `v`. -/
theorem vectorOf_insert {md' : TrackedMetadata} {v : List UInt8}
    (hk : s'.trackedMetadataByKey = s.trackedMetadataByKey.insert key md')
    (hv : s'.trackedVectors = s.trackedVectors.insert md'.internalId v)
    (hid : ∀ k ≠ key, ∀ md, s.trackedMetadataByKey.lookup k = some md →
      md.internalId ≠ md'.internalId) :
    s'.vectorOf = Function.update s.vectorOf key (some v) := funext fun k => by
  by_cases e : k = key
  · subst e
    simp [vectorOf, hk, hv]
  · rw [Function.update_noteq e]
    simp only [vectorOf, hk, hv, Finmap.lookup_insert_of_ne _ e]
    cases hmd : s.trackedMetadataByKey.lookup k with
    | none => rfl
    | some md => exact Finmap.lookup_insert_of_ne _ (hid k e md hmd)

/-- `key` untracked, its id's vector forgotten. -/
theorem vectorOf_erase {id : Nat}
    (hk : s'.trackedMetadataByKey = s.trackedMetadataByKey.erase key)
    (hv : s'.trackedVectors = s.trackedVectors.erase id)
    (hid : ∀ k ≠ key, ∀ md, s.trackedMetadataByKey.lookup k = some md → md.internalId ≠ id) :
    s'.vectorOf = Function.update s.vectorOf key none := funext fun k => by
  by_cases e : k = key
  · subst e
    simp [vectorOf, hk]
  · rw [Function.update_noteq e]
    simp only [vectorOf, hk, hv, Finmap.lookup_erase_ne e]
    cases hmd : s.trackedMetadataByKey.lookup k with
    | none => rfl
    | some md => exact Finmap.lookup_erase_ne (hid k e md hmd)

end VectorOf

/-! ## The parameters never change -/

section Params

variable (s : VectorBase) (key : String)

@[simp] theorem trackKey_params (mag : Float) (v : List UInt8) :
    (s.trackKey key mag v).2.params = s.params := by
  unfold trackKey; split_ifs <;> rfl

@[simp] theorem unTrackKey_params : (s.unTrackKey key).2.params = s.params := by
  unfold unTrackKey; split_ifs
  · rfl
  · split
    · rfl
    · dsimp only; split_ifs <;> rfl

@[simp] theorem updateMetadata_params (mag : Float) (v : List UInt8) :
    (s.updateMetadata key mag v).2.params = s.params := by
  unfold updateMetadata; split_ifs
  · rfl
  · split <;> rfl

theorem apply_params (kernel : KernelReply) (m : Mutation) :
    (s.apply kernel m).2.params = s.params := by
  cases m with
  | addRecord key record =>
    obtain ⟨mag, v, e | e | e⟩ := addRecord_state s key record kernel <;>
      simp only [apply, e, trackKey_params, unTrackKey_params]
  | modifyRecord key record =>
    obtain ⟨mag, v, e | e | e | e⟩ := modifyRecord_state s key record kernel <;>
      simp only [apply, e, unTrackKey_params, updateMetadata_params]
  | removeRecord key => simp only [apply, removeRecord_state, unTrackKey_params]

end Params

end VectorBase

namespace FlatIndex

/-- The abstract index a flat index stands for. -/
def keyVectors (x : FlatIndex) : KeyVectors := ⟨x.base.vectorOf⟩

/-! ## Each mutation refines the abstract one -/

section Refines

variable {x y : FlatIndex} {key : String} {record : List UInt8} {fuel : Nat}
  {r : Except String Bool}

theorem apply_params {m : Mutation} (hx : x.apply fuel m = some (r, y)) :
    y.base.params = x.base.params := by
  obtain ⟨reply, hrep⟩ := apply_base hx
  rw [← VectorBase.apply_params x.base reply m, hrep]

/-- `RemoveRecord` on a state whose maps are inverse, the empty key untracked: it returns
whether the key was indexed and drops it. -/
theorem removeRecord_refines (hb : x.base.Bookkeeping) (he : "" ∉ x.base.trackedMetadataByKey)
    (key : String) :
    ((x.removeRecord key).1, (x.removeRecord key).2.keyVectors) =
      x.keyVectors.apply x.base.params.intern (.removeRecord key) := by
  unfold removeRecord
  rcases hu : x.base.unTrackKey key with ⟨r, s⟩
  rcases VectorBase.unTrackKey_eq hu with ⟨rfl, rfl, hk⟩ | ⟨md, hmd, rfl, -, hmeta, -, htv⟩ |
    ⟨e, id, rfl, -⟩
  · have hk : key ∉ x.base.trackedMetadataByKey := hk.elim (fun e => e ▸ he) id
    have hnone := hb.vectorOf_eq_none.2 hk
    simp only [keyVectors, KeyVectors.apply, KeyVectors.set, hnone, Option.isSome_none]
    rw [← hnone, Function.update_eq_self]
  · have hsome : (x.base.vectorOf key).isSome := by
      rw [Option.isSome_iff_ne_none, Ne, hb.vectorOf_eq_none, not_not]
      exact Finmap.mem_of_lookup_eq_some hmd
    simp only [keyVectors, KeyVectors.apply, KeyVectors.set, hsome, VectorFlat.removeRecordImpl]
    rw [VectorBase.vectorOf_erase hmeta htv fun k hne md' hk' =>
      hb.inverse.internalId_ne hk' hmd hne]
  · obtain ⟨r', hr'⟩ := VectorBase.unTrackKey_ok hb.inverse key
    rw [hu] at hr'
    cases hr'

/-- `AddRecord` on a state with the bookkeeping invariant: the kernel never fails, so it
returns what the abstract index returns and indexes the key as it does. -/
theorem addRecord_refines (hb : x.base.Bookkeeping) (he : "" ∉ x.base.trackedMetadataByKey)
    (hx : x.addRecord key record fuel = some (r, y)) :
    (r, y.keyVectors) = x.keyVectors.apply x.base.params.intern (.addRecord key record) := by
  simp only [KeyVectors.apply, ← VectorBase.internVector_map_fst]
  unfold addRecord at hx
  generalize x.base.internVector record = o at hx ⊢
  rcases o with _ | ⟨vector, magnitude⟩ <;> dsimp only [Option.map] at hx ⊢
  · cases hx
    rfl
  generalize ht : x.base.trackKey key (magnitude.getD kDefaultMagnitude) vector = t at hx
  rcases t with ⟨e | id, s⟩ <;> dsimp only at hx
  · cases hx
    obtain ⟨hmsg, hmeta, -, htv⟩ := VectorBase.trackKey_eq_error ht
    have hframe : s.vectorOf = x.base.vectorOf := hb.vectorOf_frame hmeta fun id hid =>
      htv id (ne_of_lt (hb.below id hid))
    rcases hmsg with ⟨rfl, rfl⟩ | ⟨hmem, rfl⟩
    · simp only [keyVectors, hframe, if_true]
    · have hkey : key ≠ "" := fun e => he (e ▸ hmem)
      have hsome : (x.base.vectorOf key).isSome := by
        rw [Option.isSome_iff_ne_none, Ne, hb.vectorOf_eq_none, not_not]
        exact hmem
      simp only [keyVectors, hframe, hkey, hsome, if_false, if_true]
  · obtain ⟨⟨r', k⟩, hk, hr⟩ := Option.map_eq_some'.1 hx
    obtain ⟨rfl, -⟩ := VectorFlat.addRecordImpl_eq_some hk
    cases hr
    obtain ⟨rfl, hkey, hmem, hmeta, -, htv⟩ := VectorBase.trackKey_eq_ok ht
    dsimp only [keyVectors]
    rw [VectorBase.vectorOf_insert hmeta htv fun k _ md hmd hid =>
      lt_irrefl _ (hid ▸ hb.below _ (Finmap.mem_of_lookup_eq_some (hb.inverse.lookup_id hmd)))]
    simp [KeyVectors.set, hkey, hb.vectorOf_eq_none.2 hmem]

/-- `ModifyRecord` on a state with both invariants, the empty key untracked: when it returns, it
returns what the abstract index returns and changes the key's vector as it does. -/
theorem modifyRecord_refines (hb : x.base.Bookkeeping) (h : KernelInv x)
    (he : "" ∉ x.base.trackedMetadataByKey) (hx : x.modifyRecord key record = some (r, y)) :
    (r, y.keyVectors) = x.keyVectors.apply x.base.params.intern (.modifyRecord key record) := by
  cases hi : x.base.internVector record with
  | none =>
    have hrem := removeRecord_refines hb he key
    simp only [KeyVectors.apply] at hrem
    rw [modifyRecord, hi] at hx
    cases hx
    simp only [KeyVectors.apply, ← VectorBase.internVector_map_fst, hi, Option.map_none',
      ← (Prod.mk.inj hrem).2]
  | some p =>
    obtain ⟨vector, magnitude⟩ := p
    simp only [KeyVectors.apply, ← VectorBase.internVector_map_fst, hi, Option.map_some']
    by_cases hk : key ∈ x.base.trackedMetadataByKey
    · obtain ⟨md, hmd⟩ := Finmap.mem_iff.1 hk
      have hkey : key ≠ "" := fun e => he (e ▸ hk)
      obtain ⟨saved, hs⟩ :=
        Finmap.mem_iff.1 (hb.vectors _ (Finmap.mem_of_lookup_eq_some (hb.inverse.lookup_id hmd)))
      cases hh : VectorFlat.isHeld (x.base.trackedVectors.insert md.internalId vector) saved
      · rw [modifyRecord_of_released hb h hkey hmd hi hs hh] at hx
        cases hx
      obtain ⟨k, hx', -⟩ := modifyRecord_of_held hb h hkey hmd hi hs hh
      rw [hx'] at hx
      cases hx
      obtain ⟨-, hmeta, -, htv⟩ :=
        VectorBase.updateMetadata_of_lookup (magnitude.getD kDefaultMagnitude) vector hkey hmd
      have hsaved : x.base.vectorOf key = some saved := by
        simp only [VectorBase.vectorOf, hmd, hs, Option.some_bind]
      simp only [keyVectors, KeyVectors.set, hsaved]
      rw [VectorBase.vectorOf_insert hmeta htv fun k hne md'' hk' =>
        (hb.inverse.internalId_ne hk' hmd hne :)]
    · have hnone := hb.vectorOf_eq_none.2 hk
      have hg : x.base.getInternalId key = .error "Record was not found" := by
        simp only [VectorBase.getInternalId, Finmap.lookup_eq_none.2 hk]
      simp only [modifyRecord, hi, hg, Option.some.injEq] at hx
      cases hx
      simp only [keyVectors, hnone]

/-- Each mutation of a flat index with both invariants and the empty key untracked returns what
the abstract index returns, and changes the indexed vectors as it does. -/
theorem apply_keyVectors (hb : x.base.Bookkeeping) (h : KernelInv x)
    (he : "" ∉ x.base.trackedMetadataByKey) {m : Mutation} (hx : x.apply fuel m = some (r, y)) :
    (r, y.keyVectors) = x.keyVectors.apply x.base.params.intern m := by
  cases m with
  | addRecord key record => exact addRecord_refines hb he hx
  | modifyRecord key record => exact modifyRecord_refines hb h he hx
  | removeRecord key =>
    rw [← removeRecord_refines hb he key, Option.some.inj hx]

/-- The empty key stays untracked. -/
theorem emptyKey_untracked (hb : x.base.Bookkeeping) (h : KernelInv x)
    (he : "" ∉ x.base.trackedMetadataByKey) {m : Mutation} (hx : x.apply fuel m = some (r, y))
    (hb' : y.base.Bookkeeping) : "" ∉ y.base.trackedMetadataByKey := by
  have hm := congrArg (fun p => p.2.vectorOf "") (apply_keyVectors hb h he hx)
  rw [← hb'.vectorOf_eq_none]
  exact hm.trans (KeyVectors.apply_vectorOf_empty _ (hb.vectorOf_eq_none.2 he) m)

/-- A flat index reads a freed vector only where the abstract index `Releases`: the key's old
vector, which no other entry of `tracked_vectors_` holds, is no other key's vector. -/
theorem releases_keyVectors (hb : x.base.Bookkeeping) {m : Mutation} (hr : x.Releases m) :
    x.keyVectors.Releases x.base.params.intern m := by
  cases m with
  | modifyRecord key record =>
    obtain ⟨-, md, vector, magnitude, old, hk, hv, hs, hne, hall⟩ := hr
    refine ⟨vector, old, VectorBase.intern_eq_of_internVector hv,
      by simp only [keyVectors, VectorBase.vectorOf, hk, hs, Option.some_bind], hne,
      fun k hk' hold => ?_⟩
    obtain ⟨md', hmd', hs'⟩ := Option.bind_eq_some.1 hold
    exact hall _ (hb.inverse.internalId_ne hmd' hk hk') hs'
  | addRecord => exact hr
  | removeRecord => exact hr

end Refines

/-! ## How mutations compose -/

section Compose

variable {x : FlatIndex} {key : String} {record : List UInt8} {vector : List UInt8}
  {magnitude : Option Float}

/-- `AddRecord` of a new key followed by `RemoveRecord` of it, on a consistent index whose next
id does not wrap: both return OK(true), and every key is then indexed under the vector it had
before. -/
theorem addRecord_removeRecord (hb : x.base.Bookkeeping) (h : KernelInv x)
    (he : "" ∉ x.base.trackedMetadataByKey) (hinc : x.base.incId + 1 < 2 ^ 64)
    (hk : key ∉ x.base.trackedMetadataByKey) (hkey : key ≠ "")
    (hv : x.base.internVector record = some (vector, magnitude)) :
    ∃ y z, x.apply 2 (.addRecord key record) = some (.ok true, y) ∧
      y.apply 2 (.removeRecord key) = some (.ok true, z) ∧ z.keyVectors = x.keyVectors := by
  have hi := VectorBase.intern_eq_of_internVector hv
  obtain ⟨⟨r₁, y⟩, hx₁⟩ := apply_isSome hb h le_rfl (m := .addRecord key record) id
  have e₁ := apply_keyVectors hb h he hx₁
  rw [KeyVectors.apply_addRecord_fresh hi hkey (hb.vectorOf_eq_none.2 hk)] at e₁
  obtain ⟨rfl, hy⟩ := Prod.mk.inj e₁
  obtain ⟨hb₁, h₁, -⟩ := apply_inv hb h hx₁ hinc
  obtain ⟨⟨r₂, z⟩, hx₂⟩ := apply_isSome hb₁ h₁ le_rfl (m := .removeRecord key) id
  have e₂ := apply_keyVectors hb₁ h₁ (emptyKey_untracked hb h he hx₁ hb₁) hx₂
  simp only [KeyVectors.apply, hy, KeyVectors.set_vectorOf_self, Option.isSome_some,
    KeyVectors.set_set] at e₂
  obtain ⟨rfl, hz⟩ := Prod.mk.inj e₂
  exact ⟨y, z, hx₁, hx₂, hz.trans (KeyVectors.set_of_eq (hb.vectorOf_eq_none.2 hk))⟩

theorem addRecord_removeRecord_b :
    oneKeyFlat.base.Bookkeeping ∧ KernelInv oneKeyFlat ∧
      "" ∉ oneKeyFlat.base.trackedMetadataByKey ∧ oneKeyFlat.base.incId + 1 < 2 ^ 64 ∧
      "b" ∉ oneKeyFlat.base.trackedMetadataByKey ∧ "b" ≠ "" ∧
      oneKeyFlat.base.internVector [0, 0, 0, 1] = some ([0, 0, 0, 1], none) ∧
      ∃ y z, oneKeyFlat.apply 2 (.addRecord "b" [0, 0, 0, 1]) = some (.ok true, y) ∧
        y.apply 2 (.removeRecord "b") = some (.ok true, z) ∧ z.keyVectors = oneKeyFlat.keyVectors :=
  have hv : oneKeyFlat.base.internVector [0, 0, 0, 1] = some ([0, 0, 0, 1], none) := rfl
  ⟨oneKeyFlat_inv.1, oneKeyFlat_inv.2, by decide, by decide, by decide, by decide, hv,
    addRecord_removeRecord oneKeyFlat_inv.1 oneKeyFlat_inv.2 (by decide) (by decide) (by decide)
      (by decide) hv⟩

/-- `ModifyRecord` is idempotent: on a consistent index, modifying a tracked key with a payload
of the right size, when this first call reads no freed vector, returns OK and indexes the key
under the payload's vector; a second call with the same payload then always returns OK(false)
and leaves every key indexed under the same vector. -/
theorem modifyRecord_twice (hb : x.base.Bookkeeping) (h : KernelInv x)
    (he : "" ∉ x.base.trackedMetadataByKey) (hinc : x.base.incId + 1 < 2 ^ 64)
    (hk : key ∈ x.base.trackedMetadataByKey)
    (hv : x.base.internVector record = some (vector, magnitude))
    (hr : ¬ x.Releases (.modifyRecord key record)) :
    ∃ b y z, x.apply 2 (.modifyRecord key record) = some (.ok b, y) ∧
      y.apply 2 (.modifyRecord key record) = some (.ok false, z) ∧
      y.keyVectors.vectorOf key = some vector ∧ z.keyVectors = y.keyVectors := by
  have hi := VectorBase.intern_eq_of_internVector hv
  obtain ⟨old, hold⟩ := Option.ne_none_iff_exists'.1 (mt hb.vectorOf_eq_none.1 (not_not.2 hk))
  obtain ⟨⟨r₁, y⟩, hx₁⟩ := apply_isSome hb h le_rfl hr
  have e₁ := apply_keyVectors hb h he hx₁
  rw [KeyVectors.apply_modifyRecord_of_some hi hold] at e₁
  obtain ⟨rfl, hy⟩ := Prod.mk.inj e₁
  have hyv : y.keyVectors.vectorOf key = some vector := by
    rw [hy, KeyVectors.set_vectorOf_self]
  obtain ⟨hb₁, h₁, -⟩ := apply_inv hb h hx₁ hinc
  -- the key already holds the payload's vector, so the second call frees nothing
  have hr₂ : ¬ y.Releases (.modifyRecord key record) := fun hr₂ => by
    obtain ⟨v, old', hv', hold', hne, -⟩ := releases_keyVectors hb₁ hr₂
    rw [apply_params hx₁, hi] at hv'
    rw [hyv] at hold'
    cases hv'
    cases hold'
    exact hne rfl
  obtain ⟨⟨r₂, z⟩, hx₂⟩ := apply_isSome hb₁ h₁ le_rfl hr₂
  have e₂ := apply_keyVectors hb₁ h₁ (emptyKey_untracked hb h he hx₁ hb₁) hx₂
  rw [apply_params hx₁, KeyVectors.apply_modifyRecord_of_some hi hyv,
    KeyVectors.set_of_eq hyv] at e₂
  obtain ⟨rfl, hz⟩ := Prod.mk.inj e₂
  exact ⟨_, y, z, hx₁, by simpa using hx₂, hyv, hz⟩

/-- `a` and `b` share a vector, so moving `a` to another frees nothing. -/
theorem modifyRecord_twice_shared :
    sharedFlat.base.Bookkeeping ∧ KernelInv sharedFlat ∧
      "" ∉ sharedFlat.base.trackedMetadataByKey ∧ sharedFlat.base.incId + 1 < 2 ^ 64 ∧
      "a" ∈ sharedFlat.base.trackedMetadataByKey ∧
      sharedFlat.base.internVector [0, 0, 0, 1] = some ([0, 0, 0, 1], none) ∧
      ¬ sharedFlat.Releases (.modifyRecord "a" [0, 0, 0, 1]) ∧
      ∃ b y z, sharedFlat.apply 2 (.modifyRecord "a" [0, 0, 0, 1]) = some (.ok b, y) ∧
        y.apply 2 (.modifyRecord "a" [0, 0, 0, 1]) = some (.ok false, z) ∧
        y.keyVectors.vectorOf "a" = some [0, 0, 0, 1] ∧ z.keyVectors = y.keyVectors :=
  have hv : sharedFlat.base.internVector [0, 0, 0, 1] = some ([0, 0, 0, 1], none) := rfl
  have hr : ¬ sharedFlat.Releases (.modifyRecord "a" [0, 0, 0, 1]) := fun hr =>
    absurd ((apply_eq_none_iff sharedFlat_inv.1 sharedFlat_inv.2 le_rfl _).2 hr)
      (Option.isSome_iff_ne_none.1 (by decide))
  ⟨sharedFlat_inv.1, sharedFlat_inv.2, by decide, by decide, by decide, hv, hr,
    modifyRecord_twice sharedFlat_inv.1 sharedFlat_inv.2 (by decide) (by decide) (by decide) hv
      hr⟩

end Compose

/-! ## Runs -/

/-- From a state with both invariants and the empty key untracked, every run whose ids do not
wrap `inc_id_` and none of whose mutations `Releases` in the abstract index returns, with two
turns for each loop, in the map the abstract index reaches by the same mutations. -/
theorem run_refines_of_inv {x : FlatIndex} (hb : x.base.Bookkeeping) (h : KernelInv x)
    (he : "" ∉ x.base.trackedMetadataByKey) (ops : List Mutation)
    (hn : x.base.incId + ops.length < 2 ^ 64)
    (hsafe : x.keyVectors.SafeRun x.base.params.intern ops) :
    ∃ y, x.run 2 ops = some y ∧ y.keyVectors = x.keyVectors.run x.base.params.intern ops := by
  induction ops generalizing x with
  | nil => exact ⟨x, rfl, rfl⟩
  | cons m rest ih =>
    rw [List.length_cons] at hn
    obtain ⟨hm, hrest⟩ := hsafe
    obtain ⟨⟨r, x'⟩, hx⟩ := apply_isSome hb h le_rfl (mt (releases_keyVectors hb) hm)
    obtain ⟨hb', h', hinc⟩ := apply_inv hb h hx (by omega)
    have hk : x'.keyVectors = (x.keyVectors.apply x.base.params.intern m).2 :=
      congrArg Prod.snd (apply_keyVectors hb h he hx)
    obtain ⟨y, hy, hrun⟩ := ih hb' h' (emptyKey_untracked hb h he hx hb') (by omega)
      (by rwa [hk, apply_params hx])
    refine ⟨y, by rw [run, hx, Option.some_bind, hy], ?_⟩
    rw [hrun, apply_params hx, hk, KeyVectors.run]

/-- A new flat index with `block_size ≥ 1` implements the abstract index on every run that is
safe for it: a run of fewer than `2^64` mutations none of which `Releases` in the abstract index
returns, with two turns for each loop, and ends in the map the abstract index reaches from no
key by the same mutations. -/
theorem run_refines (p : IndexParams) {initialCap blockSize : Nat} (hc : initialCap < 2 ^ 64)
    (hbs : blockSize < 2 ^ 32) (hpos : 1 ≤ blockSize) (ops : List Mutation)
    (hn : ops.length < 2 ^ 64) (hsafe : KeyVectors.empty.SafeRun p.intern ops) :
    ∃ y, (⟨VectorBase.empty p, VectorFlat.create initialCap blockSize hc hbs⟩ : FlatIndex).run 2
        ops = some y ∧ y.keyVectors = KeyVectors.empty.run p.intern ops :=
  run_refines_of_inv (VectorBase.bookkeeping_empty p) (KernelInv.create p hc hbs hpos)
    Finmap.not_mem_empty ops (by simpa using hn) hsafe

/-- `b` still holds `a`'s first vector when `a` moves, so the run is safe. -/
theorem safeRun_addAddModifyRemove :
    KeyVectors.empty.SafeRun VectorBase.flatL2Dim1.intern addAddModifyRemove :=
  ⟨id, id, fun ⟨_, old, _, hold, _, hall⟩ => hall "b" (by decide) (hold ▸ rfl), id, trivial⟩

theorem run_refines_shared_vector :
    1 < 2 ^ 64 ∧ 1 < 2 ^ 32 ∧ 1 ≤ 1 ∧ addAddModifyRemove.length < 2 ^ 64 ∧
      KeyVectors.empty.SafeRun VectorBase.flatL2Dim1.intern addAddModifyRemove ∧
      ∃ y, (⟨VectorBase.empty VectorBase.flatL2Dim1,
          VectorFlat.create 1 1 (by decide) (by decide)⟩ : FlatIndex).run 2 addAddModifyRemove =
          some y ∧
        y.keyVectors = KeyVectors.empty.run VectorBase.flatL2Dim1.intern addAddModifyRemove :=
  ⟨by decide, by decide, le_rfl, by decide, safeRun_addAddModifyRemove,
    run_refines VectorBase.flatL2Dim1 _ _ le_rfl _ (by decide) safeRun_addAddModifyRemove⟩

end FlatIndex

end ValkeySearch
