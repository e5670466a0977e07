import ValkeySearch.Indexes.Bookkeeping

/-
  Saving and restoring the bookkeeping of a vector index (src/indexes/vector_base.cc):
  `ToProto` writes one `TrackedKeyMetadata` per tracked key, `LoadTrackedKeys` reads such a
  list back into a new index, and `LoadKeysAndInternalIds` reads the older RDB layout, a count
  followed by `(id, key)` pairs. Both loaders insert with `absl::flat_hash_map::insert` (the
  first entry for a key or an id wins), raise `inc_id_` to the largest id, and end with
  `++inc_id_`. Neither checks the snapshot.

  Proved:
  * `loadTrackedKeys_toProto`: loading, in any order, the list `ToProto` writes for a state
    reached from a new index (fewer than `2^64 - 1` ids issued) gives back both maps exactly,
    with `inc_id_` above every loaded id.
  * `load_valid`: a snapshot with distinct keys, distinct ids, all below `2^64 - 1`, is loaded
    by either loader into mutually inverse maps with one entry per tuple.
  * `load_duplicate_id_or_max_id`: without those conditions the load still succeeds and the
    state is not valid.

  The `ExternalizeVector` call in each loop iteration only registers the vector with the
  externalizer; it is left out.
-/

namespace ValkeySearch

/-- The `TrackedKeyMetadata` message of the `tracked_keys` proto. -/
structure TrackedKeyMetadata where
  key : String
  internalId : Nat
  magnitude : Float

/-- The `(id, key)` pair of a tuple. -/
def TrackedKeyMetadata.pair (t : TrackedKeyMetadata) : Nat × String := (t.internalId, t.key)

/-- An item of the RDB stream (`RDBInputStream` is not in the sources): what `loadSizeT` and
`loadString` read. -/
inductive RdbItem
  | sizeT (n : Nat)
  | string (s : String)

/-- `loadSizeT`: fails (`none`) when the next item is missing or not a `size_t`. -/
def loadSizeT : List RdbItem → Option (Nat × List RdbItem)
  | .sizeT n :: rest => some (n, rest)
  | _ => none

/-- `loadString`: fails (`none`) when the next item is missing or not a string. -/
def loadString : List RdbItem → Option (String × List RdbItem)
  | .string s :: rest => some (s, rest)
  | _ => none

/-- `std::numeric_limits<float>::lowest()`, the placeholder magnitude of a normalised index
restored from the older layout. -/
def floatLowest : Float := -3.4028234663852886e38

namespace VectorBase

/-- The `tracked_keys` `ToProto` writes: one entry per tracked key. The hash map's iteration
order is unspecified, so this is a multiset. -/
def toProto (s : VectorBase) : Multiset TrackedKeyMetadata :=
  s.trackedMetadataByKey.entries.map fun e => ⟨e.1, e.2.internalId, e.2.magnitude⟩

/-- One iteration of `LoadTrackedKeys`. -/
def loadTrackedKey (s : VectorBase) (t : TrackedKeyMetadata) : VectorBase :=
  { s with
    trackedMetadataByKey := mapInsert t.key ⟨t.internalId, t.magnitude⟩ s.trackedMetadataByKey
    keyByInternalId := mapInsert t.internalId t.key s.keyByInternalId
    incId := max s.incId t.internalId }

/-- `LoadTrackedKeys`: always returns `OkStatus`. -/
def loadTrackedKeys (s : VectorBase) (trackedKeys : List TrackedKeyMetadata) :
    Except String VectorBase :=
  let s := trackedKeys.foldl loadTrackedKey s
  .ok { s with incId := (s.incId + 1) % 2 ^ 64 }

/-- The magnitude `LoadKeysAndInternalIds` records: a placeholder until the backfill. -/
def placeholderMagnitude (s : VectorBase) : Float :=
  if s.params.normalize then floatLowest else -1.0

/-- One iteration of `LoadKeysAndInternalIds`, once the id and the key are read. -/
def loadKeyAndInternalId (s : VectorBase) (id : Nat) (key : String) : VectorBase :=
  { s with
    keyByInternalId := mapInsert id key s.keyByInternalId
    trackedMetadataByKey := mapInsert key ⟨id, s.placeholderMagnitude⟩ s.trackedMetadataByKey
    incId := max s.incId id }

/-- The loop of `LoadKeysAndInternalIds` over `keys_count` pairs. -/
def loadKeysAndInternalIdsLoop (s : VectorBase) :
    Nat → List RdbItem → Except String (VectorBase × List RdbItem)
  | 0, stream => .ok (s, stream)
  | n + 1, stream =>
    match loadSizeT stream with
    | none => .error "Error loading id"
    | some (id, stream) =>
      match loadString stream with
      | none => .error "Error loading key"
      | some (key, stream) => (s.loadKeyAndInternalId id key).loadKeysAndInternalIdsLoop n stream

/-- `LoadKeysAndInternalIds`: the count, the pairs, then `++inc_id_`. -/
def loadKeysAndInternalIds (s : VectorBase) (stream : List RdbItem) :
    Except String (VectorBase × List RdbItem) :=
  match loadSizeT stream with
  | none => .error "Error loading keys count"
  | some (keysCount, stream) =>
    match s.loadKeysAndInternalIdsLoop keysCount stream with
    | .error e => .error e
    | .ok (s, stream) => .ok ({ s with incId := (s.incId + 1) % 2 ^ 64 }, stream)

end VectorBase

/-! ## Folding `insert` over a list -/

section FoldInsert

variable {τ α β : Type} [DecidableEq α] (f : τ → α) (g : τ → β)

theorem lookup_foldl_mapInsert_of_not_mem {l : List τ} {m : Finmap fun _ : α => β} {a : α}
    (ha : a ∉ l.map f) :
    (l.foldl (fun m t => mapInsert (f t) (g t) m) m).lookup a = m.lookup a := by
  induction l generalizing m with
  | nil => rfl
  | cons t l ih =>
    rw [List.map_cons, List.mem_cons, not_or] at ha
    rw [List.foldl_cons, ih ha.2]
    unfold mapInsert; split_ifs
    · rfl
    · exact Finmap.lookup_insert_of_ne _ ha.1

theorem lookup_foldl_mapInsert_of_mem {l : List τ} {m : Finmap fun _ : α => β} {t : τ}
    (hn : (l.map f).Nodup) (ht : t ∈ l) (hm : f t ∉ m) :
    (l.foldl (fun m t => mapInsert (f t) (g t) m) m).lookup (f t) = some (g t) := by
  induction l generalizing m with
  | nil => cases ht
  | cons u l ih =>
    rw [List.map_cons, List.nodup_cons] at hn
    rw [List.foldl_cons]
    rcases List.mem_cons.1 ht with rfl | ht
    · rw [lookup_foldl_mapInsert_of_not_mem f g hn.1, mapInsert_of_not_mem hm,
        Finmap.lookup_insert]
    · have hne : f t ≠ f u := fun e => hn.1 (e ▸ List.mem_map_of_mem f ht)
      refine ih hn.2 ht ?_
      unfold mapInsert; split_ifs
      · exact hm
      · rw [Finmap.mem_insert]; exact fun h => h.elim hne hm

theorem mem_foldl_mapInsert {l : List τ} {m : Finmap fun _ : α => β} {a : α} :
    a ∈ l.foldl (fun m t => mapInsert (f t) (g t) m) m ↔ a ∈ m ∨ a ∈ l.map f := by
  induction l generalizing m with
  | nil => simp
  | cons t l ih =>
    rw [List.foldl_cons, ih, mem_mapInsert, List.map_cons, List.mem_cons]
    tauto

end FoldInsert

/-- The older RDB layout of a list of `(id, key)` pairs. -/
def keysAndInternalIdsStream (pairs : List (Nat × String)) : List RdbItem :=
  .sizeT pairs.length :: pairs.flatMap fun p => [.sizeT p.1, .string p.2]

namespace VectorBase

/-! ## The `LoadTrackedKeys` loop -/

section LoadLoop

variable (l : List TrackedKeyMetadata)

theorem foldl_loadTrackedKey_meta (s : VectorBase) :
    (l.foldl loadTrackedKey s).trackedMetadataByKey =
      l.foldl (fun m t => mapInsert t.key ⟨t.internalId, t.magnitude⟩ m)
        s.trackedMetadataByKey := by
  induction l generalizing s with
  | nil => rfl
  | cons t l ih => exact ih _

theorem foldl_loadTrackedKey_kbi (s : VectorBase) :
    (l.foldl loadTrackedKey s).keyByInternalId =
      l.foldl (fun m t => mapInsert t.internalId t.key m) s.keyByInternalId := by
  induction l generalizing s with
  | nil => rfl
  | cons t l ih => exact ih _

theorem le_foldl_loadTrackedKey_incId (s : VectorBase) :
    s.incId ≤ (l.foldl loadTrackedKey s).incId := by
  induction l generalizing s with
  | nil => exact le_rfl
  | cons t l ih => exact (le_max_left s.incId t.internalId).trans (ih (s.loadTrackedKey t))

theorem internalId_le_foldl_incId {s : VectorBase} {t : TrackedKeyMetadata} (ht : t ∈ l) :
    t.internalId ≤ (l.foldl loadTrackedKey s).incId := by
  induction l generalizing s with
  | nil => cases ht
  | cons u l ih =>
    rcases List.mem_cons.1 ht with rfl | ht
    · exact (le_max_right s.incId t.internalId).trans
        (le_foldl_loadTrackedKey_incId _ (s.loadTrackedKey t))
    · exact ih ht

theorem foldl_loadTrackedKey_incId_le {s : VectorBase} {bound : Nat} (hs : s.incId ≤ bound)
    (hl : ∀ t ∈ l, t.internalId ≤ bound) : (l.foldl loadTrackedKey s).incId ≤ bound := by
  induction l generalizing s with
  | nil => exact hs
  | cons u l ih =>
    exact ih (max_le hs (hl u (List.mem_cons_self _ _))) fun t ht =>
      hl t (List.mem_cons_of_mem _ ht)

variable {l} {s : VectorBase}

theorem foldl_lookup_meta_of_mem (hm : s.trackedMetadataByKey = ∅)
    (hkeys : (l.map (·.key)).Nodup) {t : TrackedKeyMetadata} (ht : t ∈ l) :
    (l.foldl loadTrackedKey s).trackedMetadataByKey.lookup t.key =
      some ⟨t.internalId, t.magnitude⟩ := by
  rw [foldl_loadTrackedKey_meta, hm]
  exact lookup_foldl_mapInsert_of_mem (·.key) _ hkeys ht Finmap.not_mem_empty

theorem foldl_lookup_meta_of_not_mem (hm : s.trackedMetadataByKey = ∅) {key : String}
    (hk : key ∉ l.map (·.key)) : (l.foldl loadTrackedKey s).trackedMetadataByKey.lookup key = none := by
  rw [foldl_loadTrackedKey_meta, hm, lookup_foldl_mapInsert_of_not_mem _ _ hk]
  exact Finmap.lookup_empty key

theorem foldl_lookup_kbi_of_mem (hk : s.keyByInternalId = ∅)
    (hids : (l.map (·.internalId)).Nodup) {t : TrackedKeyMetadata} (ht : t ∈ l) :
    (l.foldl loadTrackedKey s).keyByInternalId.lookup t.internalId = some t.key := by
  rw [foldl_loadTrackedKey_kbi, hk]
  exact lookup_foldl_mapInsert_of_mem (·.internalId) _ hids ht Finmap.not_mem_empty

theorem foldl_lookup_kbi_of_not_mem (hk : s.keyByInternalId = ∅) {id : Nat}
    (hi : id ∉ l.map (·.internalId)) : (l.foldl loadTrackedKey s).keyByInternalId.lookup id = none := by
  rw [foldl_loadTrackedKey_kbi, hk, lookup_foldl_mapInsert_of_not_mem _ _ hi]
  exact Finmap.lookup_empty id

end LoadLoop

/-- What a load of the `(id, key)` pairs of a snapshot should leave: mutually inverse maps
with one entry per pair, and `inc_id_` above every loaded id. -/
structure LoadedFrom (s : VectorBase) (pairs : List (Nat × String)) : Prop where
  inverse : Inverse s.trackedMetadataByKey s.keyByInternalId
  entries : ∀ p ∈ pairs, s.keyByInternalId.lookup p.1 = some p.2
  card : s.trackedMetadataByKey.keys.card = pairs.length
  below : ∀ id ∈ s.keyByInternalId, id < s.incId

/-- Loading tuples with distinct keys and distinct ids below `2^64 - 1` into a state with no
tracked key and `inc_id_ = 0` leaves a state loaded from them. -/
theorem loadTrackedKeys_loadedFrom {s : VectorBase} (hm : s.trackedMetadataByKey = ∅)
    (hk : s.keyByInternalId = ∅) (h0 : s.incId = 0) {l : List TrackedKeyMetadata}
    (hkeys : (l.map (·.key)).Nodup) (hids : (l.map (·.internalId)).Nodup)
    (hb : ∀ t ∈ l, t.internalId < 2 ^ 64 - 1) :
    ∃ s', s.loadTrackedKeys l = .ok s' ∧ LoadedFrom s' (l.map (·.pair)) := by
  refine ⟨_, rfl, ?_⟩
  have lookupMeta := fun t (ht : t ∈ l) => foldl_lookup_meta_of_mem hm hkeys ht
  have lookupKbi := fun t (ht : t ∈ l) => foldl_lookup_kbi_of_mem hk hids ht
  have memMeta : ∀ key, key ∈ (l.foldl loadTrackedKey s).trackedMetadataByKey ↔
      key ∈ l.map (·.key) := fun key => by
    rw [foldl_loadTrackedKey_meta, hm, mem_foldl_mapInsert]; simp [Finmap.not_mem_empty]
  have memKbi : ∀ id, id ∈ (l.foldl loadTrackedKey s).keyByInternalId ↔
      id ∈ l.map (·.internalId) := fun id => by
    rw [foldl_loadTrackedKey_kbi, hk, mem_foldl_mapInsert]; simp [Finmap.not_mem_empty]
  have incLe : (l.foldl loadTrackedKey s).incId ≤ 2 ^ 64 - 2 :=
    foldl_loadTrackedKey_incId_le l (by omega) fun t ht => by have := hb t ht; omega
  refine ⟨fun key id => ⟨fun h => ?_, fun h => ?_⟩, ?_, ?_, ?_⟩
  · obtain ⟨md, hmd, rfl⟩ := Option.map_eq_some'.1 h
    obtain ⟨t, ht, rfl⟩ := List.mem_map.1 ((memMeta key).1 (Finmap.mem_of_lookup_eq_some hmd))
    rw [lookupMeta t ht, Option.some.injEq] at hmd
    rw [← hmd]; exact lookupKbi t ht
  · obtain ⟨t, ht, rfl⟩ := List.mem_map.1 ((memKbi id).1 (Finmap.mem_of_lookup_eq_some h))
    rw [lookupKbi t ht, Option.some.injEq] at h
    rw [← h, lookupMeta t ht]; rfl
  · intro p hp
    obtain ⟨t, ht, rfl⟩ := List.mem_map.1 hp
    exact lookupKbi t ht
  · have : (l.foldl loadTrackedKey s).trackedMetadataByKey.keys = (l.map (·.key)).toFinset :=
      Finset.ext fun key => by rw [Finmap.mem_keys, memMeta, List.mem_toFinset]
    rw [this, List.toFinset_card_of_nodup hkeys, List.length_map, List.length_map]
  · intro id hid
    obtain ⟨t, ht, rfl⟩ := List.mem_map.1 ((memKbi id).1 hid)
    have := internalId_le_foldl_incId l (s := s) ht
    show t.internalId < ((l.foldl loadTrackedKey s).incId + 1) % 2 ^ 64
    omega

/-! ## The older layout -/

/-- The tuples `LoadKeysAndInternalIds` records for `(id, key)` pairs. -/
def pairsToMetadata (s : VectorBase) (pairs : List (Nat × String)) : List TrackedKeyMetadata :=
  pairs.map fun p => ⟨p.2, p.1, s.placeholderMagnitude⟩

/-- On a stream that holds `keys_count` and then the pairs, `LoadKeysAndInternalIds` succeeds
and does what `LoadTrackedKeys` does with placeholder magnitudes. -/
theorem loadKeysAndInternalIds_stream (s : VectorBase) (pairs : List (Nat × String))
    (rest : List RdbItem) :
    s.loadKeysAndInternalIds (keysAndInternalIdsStream pairs ++ rest) =
      (s.loadTrackedKeys (s.pairsToMetadata pairs)).map (·, rest) := by
  have loop : ∀ s : VectorBase, s.loadKeysAndInternalIdsLoop pairs.length
      ((pairs.flatMap fun p => [.sizeT p.1, .string p.2]) ++ rest) =
      .ok ((s.pairsToMetadata pairs).foldl loadTrackedKey s, rest) := by
    induction pairs with
    | nil => intro s; rfl
    | cons p pairs ih => intro s; exact ih (s.loadKeyAndInternalId p.1 p.2)
  simp only [loadKeysAndInternalIds, keysAndInternalIdsStream, List.cons_append, loadSizeT,
    loop, loadTrackedKeys]
  rfl

/-! ## Round trip -/

/-- The index `LoadFromRDB` hands to the loaders: new, holding the vectors the kernel's
`LoadIndex` tracked. -/
def restoring (p : IndexParams) (tv : Finmap fun _ : Nat => List UInt8) : VectorBase :=
  { empty p with trackedVectors := tv }

theorem mem_toProto {s : VectorBase} {t : TrackedKeyMetadata} :
    t ∈ s.toProto ↔ s.trackedMetadataByKey.lookup t.key = some ⟨t.internalId, t.magnitude⟩ := by
  unfold toProto
  rw [Multiset.mem_map]
  constructor
  · rintro ⟨⟨key, md⟩, he, rfl⟩
    exact Finmap.mem_lookup_iff.2 he
  · exact fun h => ⟨⟨t.key, ⟨t.internalId, t.magnitude⟩⟩, Finmap.mem_lookup_iff.1 h, rfl⟩

theorem toProto_map_key (s : VectorBase) :
    s.toProto.map (·.key) = s.trackedMetadataByKey.keys.val := by
  unfold toProto; rw [Multiset.map_map]; rfl

/-- A list `ToProto` writes for a state with mutually inverse maps has distinct keys and
distinct ids. -/
theorem nodup_of_toProto {s : VectorBase} (h : Inverse s.trackedMetadataByKey s.keyByInternalId)
    {l : List TrackedKeyMetadata} (hl : (l : Multiset TrackedKeyMetadata) = s.toProto) :
    (l.map (·.key)).Nodup ∧ (l.map (·.internalId)).Nodup := by
  have hkeys : (l.map (·.key)).Nodup := Multiset.coe_nodup.1 (by
    rw [← Multiset.map_coe, hl, toProto_map_key]; exact Finset.nodup _)
  refine ⟨hkeys, (List.Nodup.of_map _ hkeys).map_on fun t ht u hu e => ?_⟩
  have ht' := mem_toProto.1 (hl ▸ Multiset.mem_coe.2 ht)
  have hu' := mem_toProto.1 (hl ▸ Multiset.mem_coe.2 hu)
  have hkey : t.key = u.key := by
    have := h.lookup_id ht'; rw [show t.internalId = u.internalId from e, h.lookup_id hu'] at this
    exact (Option.some.inj this).symm
  rw [hkey, hu', Option.some.injEq, TrackedMetadata.mk.injEq] at ht'
  cases t; cases u; simp_all

/-- Saving a state reached from a new index (fewer than `2^64 - 1` ids issued) with `ToProto`
and loading the list, in any order, with `LoadTrackedKeys` into a new index gives back both
maps, magnitudes included, with `inc_id_` above every restored id, so the next `TrackKey`
issues an id no restored key holds. -/
theorem loadTrackedKeys_toProto (p p' : IndexParams) (tv : Finmap fun _ : Nat => List UInt8)
    (ops : List (Mutation × KernelReply)) (s : VectorBase) (hs : (empty p).run ops = s)
    (hn : ((empty p).issuedIds ops).length < 2 ^ 64 - 1)
    (l : List TrackedKeyMetadata) (hl : (l : Multiset TrackedKeyMetadata) = s.toProto) :
    ∃ s', (restoring p' tv).loadTrackedKeys l = .ok s' ∧
      s'.trackedMetadataByKey = s.trackedMetadataByKey ∧
      s'.keyByInternalId = s.keyByInternalId ∧
      (∀ id ∈ s'.keyByInternalId, id < s'.incId) ∧
      ∀ key mag v id, (s'.trackKey key mag v).1 = .ok id → id ∉ s'.keyByInternalId := by
  subst hs
  obtain ⟨h, -, hc⟩ := (bookkeeping_empty p).run ops (by rw [empty_incId]; omega)
  have hmem : ∀ {t}, t ∈ l → ((empty p).run ops).trackedMetadataByKey.lookup t.key =
      some ⟨t.internalId, t.magnitude⟩ := fun ht => mem_toProto.1 (hl ▸ Multiset.mem_coe.2 ht)
  obtain ⟨hkeys, hids⟩ := nodup_of_toProto h.inverse hl
  have hb : ∀ t ∈ l, t.internalId < 2 ^ 64 - 1 := fun t ht => by
    have := h.below _ (Finmap.mem_of_lookup_eq_some (h.inverse.lookup_id (hmem ht)))
    rw [empty_incId] at hc; dsimp only at this; omega
  obtain ⟨s', hs', hv⟩ := loadTrackedKeys_loadedFrom (s := restoring p' tv) rfl rfl rfl
    hkeys hids hb
  cases hs'
  refine ⟨_, rfl, Finmap.ext_lookup fun key => ?_, Finmap.ext_lookup fun id => ?_, hv.below,
    fun key mag v id hid hmemId => lt_irrefl _ (trackKey_ok hid ▸ hv.below id hmemId)⟩
  · show (l.foldl loadTrackedKey (restoring p' tv)).trackedMetadataByKey.lookup key = _
    cases hk : ((empty p).run ops).trackedMetadataByKey.lookup key with
    | none =>
      refine foldl_lookup_meta_of_not_mem rfl fun hkey => ?_
      obtain ⟨t, ht, rfl⟩ := List.mem_map.1 hkey
      rw [hmem ht] at hk; cases hk
    | some md =>
      have ht : (⟨key, md.internalId, md.magnitude⟩ : TrackedKeyMetadata) ∈ l :=
        Multiset.mem_coe.1 (hl ▸ mem_toProto.2 hk)
      exact foldl_lookup_meta_of_mem rfl hkeys ht
  · show (l.foldl loadTrackedKey (restoring p' tv)).keyByInternalId.lookup id = _
    cases hk : ((empty p).run ops).keyByInternalId.lookup id with
    | none =>
      refine foldl_lookup_kbi_of_not_mem rfl fun hid => ?_
      obtain ⟨t, ht, rfl⟩ := List.mem_map.1 hid
      rw [h.inverse.lookup_id (hmem ht)] at hk; cases hk
    | some key =>
      obtain ⟨md, hmd, rfl⟩ := Option.map_eq_some'.1 ((h.inverse key id).2 hk)
      have ht : (⟨key, md.internalId, md.magnitude⟩ : TrackedKeyMetadata) ∈ l :=
        Multiset.mem_coe.1 (hl ▸ mem_toProto.2 hmd)
      exact foldl_lookup_kbi_of_mem rfl hids ht

/-- Add `a`, add `b`, remove `a`: `b` keeps id 1 and id 0 is a gap. -/
def addAddRemove : List (Mutation × KernelReply) :=
  [(.addRecord "a" [0, 0, 0, 0], {}), (.addRecord "b" [0, 0, 0, 0], {}), (.removeRecord "a", {})]

theorem loadTrackedKeys_toProto_with_gap :
    ((empty flatL2Dim1).issuedIds addAddRemove).length < 2 ^ 64 - 1 ∧
      (([⟨"b", 1, kDefaultMagnitude⟩] : List TrackedKeyMetadata) : Multiset TrackedKeyMetadata) =
        ((empty flatL2Dim1).run addAddRemove).toProto ∧
      ∃ s', (restoring flatL2Dim1 ∅).loadTrackedKeys [⟨"b", 1, kDefaultMagnitude⟩] = .ok s' ∧
        s'.trackedMetadataByKey = ((empty flatL2Dim1).run addAddRemove).trackedMetadataByKey ∧
        s'.keyByInternalId = ((empty flatL2Dim1).run addAddRemove).keyByInternalId ∧
        (∀ id ∈ s'.keyByInternalId, id < s'.incId) ∧
        ∀ key mag v id, (s'.trackKey key mag v).1 = .ok id → id ∉ s'.keyByInternalId :=
  ⟨by decide, rfl, loadTrackedKeys_toProto _ _ _ _ _ rfl (by decide) _ rfl⟩

/-! ## Arbitrary snapshots -/

/-- A snapshot with distinct keys and distinct ids below `2^64 - 1` is loaded into a new index
by `LoadTrackedKeys`, and by `LoadKeysAndInternalIds` from the older layout, into a state
loaded from it. -/
theorem load_valid (p : IndexParams) (tv : Finmap fun _ : Nat => List UInt8)
    (l : List TrackedKeyMetadata) (hkeys : (l.map (·.key)).Nodup)
    (hids : (l.map (·.internalId)).Nodup) (hb : ∀ t ∈ l, t.internalId < 2 ^ 64 - 1) :
    (∃ s', (restoring p tv).loadTrackedKeys l = .ok s' ∧ LoadedFrom s' (l.map (·.pair))) ∧
      ∀ rest, ∃ s', (restoring p tv).loadKeysAndInternalIds
        (keysAndInternalIdsStream (l.map (·.pair)) ++ rest) = .ok (s', rest) ∧
        LoadedFrom s' (l.map (·.pair)) := by
  refine ⟨loadTrackedKeys_loadedFrom rfl rfl rfl hkeys hids hb, fun rest => ?_⟩
  have hpairs : ((restoring p tv).pairsToMetadata (l.map (·.pair))).map (·.pair) =
      l.map (·.pair) := by simp [pairsToMetadata, TrackedKeyMetadata.pair]
  obtain ⟨s', hs', hv⟩ := loadTrackedKeys_loadedFrom (s := restoring p tv) rfl rfl rfl
    (l := (restoring p tv).pairsToMetadata (l.map (·.pair)))
    (by simpa [pairsToMetadata, TrackedKeyMetadata.pair] using hkeys)
    (by simpa [pairsToMetadata, TrackedKeyMetadata.pair] using hids)
    (by simpa [pairsToMetadata, TrackedKeyMetadata.pair] using hb)
  rw [hpairs] at hv
  exact ⟨s', by rw [loadKeysAndInternalIds_stream, hs']; rfl, hv⟩

/-- Two keys with distinct ids. -/
def twoKeySnapshot : List TrackedKeyMetadata :=
  [⟨"a", 0, kDefaultMagnitude⟩, ⟨"b", 7, kDefaultMagnitude⟩]

theorem load_valid_two_keys :
    (twoKeySnapshot.map (·.key)).Nodup ∧ (twoKeySnapshot.map (·.internalId)).Nodup ∧
      (∀ t ∈ twoKeySnapshot, t.internalId < 2 ^ 64 - 1) ∧
      ((∃ s', (restoring flatL2Dim1 ∅).loadTrackedKeys twoKeySnapshot = .ok s' ∧
          LoadedFrom s' (twoKeySnapshot.map (·.pair))) ∧
        ∀ rest, ∃ s', (restoring flatL2Dim1 ∅).loadKeysAndInternalIds
          (keysAndInternalIdsStream (twoKeySnapshot.map (·.pair)) ++ rest) = .ok (s', rest) ∧
          LoadedFrom s' (twoKeySnapshot.map (·.pair))) :=
  ⟨by decide, by decide, by decide, load_valid _ _ _ (by decide) (by decide) (by decide)⟩

/-- The loads check nothing: a snapshot that gives two keys the same id, or one that holds the
id `2^64 - 1`, is loaded without an error into a state that is not loaded from it. -/
theorem load_duplicate_id_or_max_id :
    (∃ s', (restoring flatL2Dim1 ∅).loadTrackedKeys
        [⟨"a", 0, kDefaultMagnitude⟩, ⟨"b", 0, kDefaultMagnitude⟩] = .ok s' ∧
      ¬ LoadedFrom s' [(0, "a"), (0, "b")]) ∧
    ∃ s', (restoring flatL2Dim1 ∅).loadTrackedKeys [⟨"a", 2 ^ 64 - 1, kDefaultMagnitude⟩] =
      .ok s' ∧ s'.incId = 0 ∧ ¬ LoadedFrom s' [(2 ^ 64 - 1, "a")] := by
  refine ⟨⟨_, rfl, fun h => ?_⟩, ⟨_, rfl, by decide, fun h => ?_⟩⟩
  · exact absurd ((h.inverse "b" 0).1 (by decide)) (by decide)
  · exact absurd (h.below _ (Finmap.mem_of_lookup_eq_some
      (h.entries _ (List.mem_singleton_self _)))) (by decide)

end VectorBase

end ValkeySearch
