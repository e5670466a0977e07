import ValkeySearch.Indexes.Search

/-
  `AddPrefilteredKey` (src/indexes/vector_base.cc) and the pre-filter loop that calls it.

  Model. `ComputeDistanceFromRecord(·, query)` is a function from keys to a distance and a
  label, or an error. A distance is a `float` (`FloatDist`): a number of a linear order `D`
  (the floats other than NaN, infinities included; `<` does not tell the two zeros apart, and
  neither does `D`), or NaN, for which `<` and `<=` are false. The results heap is a
  `std::priority_queue` ordered by the pair's `operator<` (`pairLess`), kept as its elements in
  `pop` order (`FloatQueue`). `std::priority_queue` needs its comparator to be a strict weak
  order: a `push` or `pop` over values where `pairLess` is not one is undefined behaviour, and
  so is `top()` of an empty heap; both are modelled as failure. The pre-filter loop of
  src/query/search.cc is not in the sources; `prefilter` is modelled from the spec: every
  offered key in turn, from an empty heap and an empty `top_keys`.
  `Ordered` is the same loop over linearly ordered distances with a `PriorityQueue`: the
  abstract model, where the loop's invariant is proved.

  Proved:
  * `Ordered.PrefilterInv.step`, `Ordered.PrefilterInv.run`: with `count ≥ 1` and distinct
    keys having distinct labels, the ordered `AddPrefilteredKey` always returns and keeps
    `PrefilterInv`: `top_keys` is the set of labels of the heap, no label twice, every entry
    comes from an offered key, the heap is full or holds every offered label, and every
    offered key left out is at least as far as everything kept; a key left out stays out.
  * `prefilter_numDist`: on distances that are all numbers, the float pre-filter is the
    ordered one, entry for entry.
  * `prefilter_nan_keeps_farther`: with NaN it is not: a key at NaN that entered the heap
    first keeps out a key at `1`, since `1 < NaN` is false. `prefilter_nearest`: with no
    distance NaN, the heap holds `min(count, #defined labels offered)` entries of nearest
    offered keys, `top_keys` holds their labels, and no key is re-admitted.
  * `prefilter_eq_take_sorted`: then the heap agrees with the plain selection: the distances
    it keeps, nearest first, are the first `count` of the offered distances sorted.
  * `prefilter_count_zero`: with `count = 0` the loop reads `top()` of an empty heap exactly
    when some offered key has a distance, and otherwise ends with the empty heap.
-/

namespace ValkeySearch

/-! ## Labels -/

section Labels

variable {D : Type}

/-- Distinct keys never get the same label. -/
def LabelInjective (computeDistance : String → Except String (D × Nat)) : Prop :=
  ∀ k₁ k₂ e₁ e₂, computeDistance k₁ = .ok e₁ → computeDistance k₂ = .ok e₂ → e₁.2 = e₂.2 →
    k₁ = k₂

/-- On an index whose maps are mutually inverse, a kernel that labels each distance with the
id it was asked about gives distinct keys distinct labels. -/
theorem VectorBase.labelInjective_computeDistanceFromRecord {s : VectorBase}
    (h : Inverse s.trackedMetadataByKey s.keyByInternalId) {impl : Nat → Except String (D × Nat)}
    (himpl : ∀ id e, impl id = .ok e → e.2 = id) :
    LabelInjective (s.computeDistanceFromRecord impl) := by
  intro k₁ k₂ e₁ e₂ h₁ h₂ he
  obtain ⟨md₁, hk₁, hi₁⟩ := VectorBase.computeDistanceFromRecord_eq_ok.1 h₁
  obtain ⟨md₂, hk₂, hi₂⟩ := VectorBase.computeDistanceFromRecord_eq_ok.1 h₂
  have hid : md₁.internalId = md₂.internalId := by rw [← himpl _ _ hi₁, ← himpl _ _ hi₂, he]
  have := h.lookup_id hk₁
  rw [hid, h.lookup_id hk₂] at this
  exact (Option.some.inj this).symm

variable {cd : String → Except String (D × Nat)} {keys : List String}

/-- The labels of the offered keys whose distance is defined. -/
def definedLabels (computeDistance : String → Except String (D × Nat)) (keys : List String) :
    Finset Nat :=
  (keys.filterMap fun key =>
    match computeDistance key with
    | .ok e => some e.2
    | .error _ => none).toFinset

theorem mem_definedLabels {l : Nat} :
    l ∈ definedLabels cd keys ↔ ∃ key ∈ keys, ∃ e, cd key = .ok e ∧ e.2 = l := by
  simp only [definedLabels, List.mem_toFinset, List.mem_filterMap]
  refine exists_congr fun key => and_congr_right fun _ => ?_
  cases cd key <;> simp
end Labels

/-! ## The pre-filter over linearly ordered distances -/

namespace Ordered

section Loop

variable {D : Type} [LinearOrder D] {cd : String → Except String (D × Nat)} {keys : List String}
  {count : Nat} {offered : List String} {r : PriorityQueue D} {t : Finset Nat}

/-- `AddPrefilteredKey` over distances that `<` orders linearly, with a heap that is a
`PriorityQueue`; `none` where it reads `top()` of an empty heap. -/
def addPrefilteredKey (computeDistance : String → Except String (D × Nat)) (count : Nat)
    (key : String) (results : PriorityQueue D) (topKeys : Finset Nat) :
    Option (PriorityQueue D × Finset Nat) :=
  match computeDistance key with
  | .error _ => some (results, topKeys)
  | .ok result =>
    if result.2 ∈ topKeys then some (results, topKeys)
    else if results.size < count then some (results.emplace result, insert result.2 topKeys)
    else
      match results.top? with
      | none => none
      | some top =>
        if result.1 < top.1 then
          some (results.pop.emplace result, insert result.2 (topKeys.erase top.2))
        else some (results, topKeys)

/-- One turn of the pre-filter loop. -/
def prefilterStep (computeDistance : String → Except String (D × Nat)) (count : Nat)
    (acc : PriorityQueue D × Finset Nat) (key : String) : Option (PriorityQueue D × Finset Nat) :=
  addPrefilteredKey computeDistance count key acc.1 acc.2

/-- The pre-filter loop over linearly ordered distances. -/
def prefilter (computeDistance : String → Except String (D × Nat)) (count : Nat)
    (keys : List String) : Option (PriorityQueue D × Finset Nat) :=
  keys.foldlM (prefilterStep computeDistance count) (.empty, ∅)
/-- What one call of `AddPrefilteredKey` can do, when `top_keys` holds the heap's labels and
`count ≥ 1`: leave both unchanged (the key has no distance, its label is in, or the heap is
full and the key is no nearer than `top()`), add the key to a heap that is not full, or
replace `top()` with a nearer key. -/
theorem addPrefilteredKey_cases (hc : 1 ≤ count) (ht : t = r.labels.toFinset) (key : String) :
    (addPrefilteredKey cd count key r t = some (r, t) ∧
        ∀ e, cd key = .ok e → e.2 ∈ r.labels ∨ count ≤ r.size ∧ ∀ x ∈ r.elems, x.1 ≤ e.1) ∨
      (∃ e, cd key = .ok e ∧ e.2 ∉ r.labels ∧ r.size < count ∧
        addPrefilteredKey cd count key r t = some (r.emplace e, insert e.2 t)) ∨
      ∃ e top, cd key = .ok e ∧ e.2 ∉ r.labels ∧ count ≤ r.size ∧ r.top? = some top ∧
        e.1 < top.1 ∧
        addPrefilteredKey cd count key r t = some (r.pop.emplace e, insert e.2 (t.erase top.2)) := by
  subst ht
  unfold addPrefilteredKey
  cases cd key with
  | error _ => exact .inl ⟨rfl, fun _ h => nomatch h⟩
  | ok e =>
    by_cases hl : e.2 ∈ r.labels
    · exact .inl ⟨by simp [hl], fun _ h => by cases h; exact .inl hl⟩
    by_cases hs : r.size < count
    · exact .inr (.inl ⟨e, rfl, hl, hs, by simp [hl, hs]⟩)
    obtain ⟨top, htop⟩ := PriorityQueue.exists_top?_of_pos (show 0 < r.size by omega)
    by_cases hd : e.1 < top.1
    · exact .inr (.inr ⟨e, top, rfl, hl, by omega, htop, hd, by simp [hl, hs, htop, hd]⟩)
    · refine .inl ⟨by simp [hl, hs, htop, hd], fun _ h => ?_⟩
      cases h
      exact .inr ⟨by omega, fun x hx => (PriorityQueue.le_top htop hx).trans (not_lt.1 hd)⟩

/-- The invariant of the pre-filter loop once the keys `offered` went through it. -/
structure PrefilterInv (cd : String → Except String (D × Nat)) (count : Nat)
    (offered : List String) (r : PriorityQueue D) (t : Finset Nat) : Prop where
  topKeys_eq : t = r.labels.toFinset
  nodup : r.labels.Nodup
  sound : ∀ e ∈ r.elems, ∃ key ∈ offered, cd key = .ok e
  size_le : r.size ≤ count
  complete : r.size < count → ∀ key ∈ offered, ∀ e, cd key = .ok e → e.2 ∈ r.labels
  nearest : ∀ key ∈ offered, ∀ e, cd key = .ok e → e.2 ∉ r.labels → ∀ x ∈ r.elems, x.1 ≤ e.1

namespace PrefilterInv

theorem init : PrefilterInv cd count [] .empty ∅ :=
  ⟨rfl, List.nodup_nil, (fun _ h => nomatch h), Nat.zero_le _, (fun _ _ h => nomatch h),
    (fun _ h => nomatch h)⟩

theorem sound_append (h : PrefilterInv cd count offered r t) (key : String) :
    ∀ e ∈ r.elems, ∃ k ∈ offered ++ [key], cd k = .ok e := fun e he =>
  let ⟨k, hk, he⟩ := h.sound e he
  ⟨k, List.mem_append_left _ hk, he⟩

/-- A call that changes nothing keeps the invariant, given why it changed nothing. -/
theorem keep (h : PrefilterInv cd count offered r t) {key : String}
    (hk : ∀ e, cd key = .ok e → e.2 ∈ r.labels ∨ count ≤ r.size ∧ ∀ x ∈ r.elems, x.1 ≤ e.1) :
    PrefilterInv cd count (offered ++ [key]) r t where
  topKeys_eq := h.topKeys_eq
  nodup := h.nodup
  sound := h.sound_append key
  size_le := h.size_le
  complete hs k hk' e he := by
    rcases List.mem_append.1 hk' with hk' | hk'
    · exact h.complete hs k hk' e he
    · rw [List.mem_singleton.1 hk'] at he
      exact (hk e he).resolve_right fun h' => absurd hs (not_lt.2 h'.1)
  nearest k hk' e he hl := by
    rcases List.mem_append.1 hk' with hk' | hk'
    · exact h.nearest k hk' e he hl
    · rw [List.mem_singleton.1 hk'] at he
      exact ((hk e he).resolve_left hl).2

/-- Adding a new label to a heap that is not full keeps the invariant. -/
theorem emplace (h : PrefilterInv cd count offered r t) {key : String} {e : D × Nat}
    (hk : cd key = .ok e) (hl : e.2 ∉ r.labels) (hs : r.size < count) :
    PrefilterInv cd count (offered ++ [key]) (r.emplace e) (insert e.2 t) := by
  have hall : ∀ k ∈ offered ++ [key], ∀ e', cd k = .ok e' → e'.2 ∈ (r.emplace e).labels := by
    intro k hk' e' he'
    rw [PriorityQueue.mem_labels_emplace]
    rcases List.mem_append.1 hk' with hk' | hk'
    · exact .inr (h.complete hs k hk' e' he')
    · rw [List.mem_singleton.1 hk', hk] at he'
      cases he'
      exact .inl rfl
  refine ⟨?_, PriorityQueue.labels_emplace_perm.nodup_iff.2 (List.nodup_cons.2 ⟨hl, h.nodup⟩),
    fun x hx => ?_, by simp only [PriorityQueue.size_emplace]; omega, fun _ => hall,
    fun k hk' e' he' hl' => absurd (hall k hk' e' he') hl'⟩
  · rw [h.topKeys_eq, List.toFinset_eq_of_perm _ _ PriorityQueue.labels_emplace_perm,
      List.toFinset_cons]
  · rcases PriorityQueue.mem_emplace.1 hx with rfl | hx
    · exact ⟨key, by simp, hk⟩
    · exact h.sound_append key x hx

/-- Replacing `top()` of a full heap with a nearer new label keeps the invariant. -/
theorem replace (h : PrefilterInv cd count offered r t) (hinj : LabelInjective cd)
    {key : String} {e top : D × Nat} (hk : cd key = .ok e) (hl : e.2 ∉ r.labels)
    (hs : count ≤ r.size) (htop : r.top? = some top) (hd : e.1 < top.1) :
    PrefilterInv cd count (offered ++ [key]) (r.pop.emplace e) (insert e.2 (t.erase top.2)) := by
  have hlab := PriorityQueue.labels_of_top? htop
  have hnd := h.nodup
  rw [hlab, List.nodup_cons] at hnd
  have hl' : e.2 ∉ r.pop.labels := fun hm => hl (hlab ▸ List.mem_cons_of_mem _ hm)
  have htop_mem := PriorityQueue.top?_mem htop
  have hsize : (r.pop.emplace e).size = r.size := by
    rw [PriorityQueue.size_emplace]
    simp [PriorityQueue.size, PriorityQueue.elems_of_top? htop]
  refine ⟨?_, PriorityQueue.labels_emplace_perm.nodup_iff.2 (List.nodup_cons.2 ⟨hl', hnd.2⟩),
    fun x hx => ?_, hsize ▸ h.size_le, fun hs' => absurd hs (by omega), ?_⟩
  · rw [h.topKeys_eq, hlab, List.toFinset_cons, Finset.erase_insert (by simpa using hnd.1),
      List.toFinset_eq_of_perm _ _ PriorityQueue.labels_emplace_perm, List.toFinset_cons]
  · rcases PriorityQueue.mem_emplace.1 hx with rfl | hx
    · exact ⟨key, by simp, hk⟩
    · exact h.sound_append key x (PriorityQueue.mem_of_mem_pop hx)
  · -- everything kept is no farther than the old `top()`, which no left-out key undercuts
    intro k hk' e' he' hl''
    suffices top.1 ≤ e'.1 from fun x hx =>
      (PriorityQueue.mem_emplace.1 hx).elim (fun hx => hx ▸ hd.le.trans this)
        fun hx => (PriorityQueue.le_top htop (PriorityQueue.mem_of_mem_pop hx)).trans this
    rcases List.mem_append.1 hk' with hk' | hk'
    · by_cases htl : e'.2 = top.2
      · obtain ⟨k₀, -, hk₀⟩ := h.sound top htop_mem
        obtain rfl := hinj k k₀ e' top he' hk₀ htl
        rw [he'] at hk₀
        cases hk₀
        exact le_rfl
      · refine h.nearest k hk' e' he' (fun hm => ?_) top htop_mem
        rw [hlab] at hm
        exact (List.mem_cons.1 hm).elim htl
          fun hm => hl'' (PriorityQueue.mem_labels_emplace.2 (.inr hm))
    · rw [List.mem_singleton.1 hk', hk] at he'
      cases he'
      exact absurd (PriorityQueue.mem_labels_emplace.2 (.inl rfl)) hl''

/-- One call of `AddPrefilteredKey` returns, keeps the invariant, and lets no label back in
that an offered key had while out of the heap. -/
theorem step (h : PrefilterInv cd count offered r t) (hinj : LabelInjective cd) (hc : 1 ≤ count)
    (key : String) :
    ∃ r' t', addPrefilteredKey cd count key r t = some (r', t') ∧
      PrefilterInv cd count (offered ++ [key]) r' t' ∧
      ∀ k ∈ offered, ∀ e, cd k = .ok e → e.2 ∉ r.labels → e.2 ∉ r'.labels := by
  rcases addPrefilteredKey_cases hc h.topKeys_eq key with
    ⟨hr, hk⟩ | ⟨e, hk, hl, hs, hr⟩ | ⟨e, top, hk, hl, hs, htop, hd, hr⟩
  · exact ⟨r, t, hr, h.keep hk, fun _ _ _ _ hl => hl⟩
  · exact ⟨_, _, hr, h.emplace hk hl hs,
      fun k hk' e' he' hl' => absurd (h.complete hs k hk' e' he') hl'⟩
  · refine ⟨_, _, hr, h.replace hinj hk hl hs htop hd, fun k hk' e' he' hl' hm => ?_⟩
    rcases PriorityQueue.mem_labels_emplace.1 hm with he2 | hm
    · -- the same label is the same key, which the invariant puts no nearer than `top()`
      obtain rfl := hinj k key e' e he' hk he2
      obtain rfl : e' = e := Except.ok.inj (he'.symm.trans hk)
      exact absurd (h.nearest k hk' _ he' hl' top (PriorityQueue.top?_mem htop)) (not_le.2 hd)
    · rw [PriorityQueue.labels_of_top? htop] at hl'
      exact hl' (List.mem_cons_of_mem _ hm)

/-- The run lemma: the loop over further keys returns and keeps the invariant, and a label
out of the heap at the start stays out. -/
theorem run (h : PrefilterInv cd count offered r t) (hinj : LabelInjective cd) (hc : 1 ≤ count)
    (keys : List String) :
    ∃ r' t', keys.foldlM (prefilterStep cd count) (r, t) = some (r', t') ∧
      PrefilterInv cd count (offered ++ keys) r' t' ∧
      ∀ k ∈ offered, ∀ e, cd k = .ok e → e.2 ∉ r.labels → e.2 ∉ r'.labels := by
  induction keys generalizing offered r t with
  | nil => exact ⟨r, t, rfl, by simpa using h, fun _ _ _ _ hl => hl⟩
  | cons key keys ih =>
    obtain ⟨r₁, t₁, h₁, hi₁, hout₁⟩ := h.step hinj hc key
    obtain ⟨r₂, t₂, h₂, hi₂, hout₂⟩ := ih hi₁
    refine ⟨r₂, t₂, by simp [prefilterStep, h₁, h₂], by simpa using hi₂,
      fun k hk e he hl => hout₂ k (List.mem_append_left _ hk) e he (hout₁ k hk e he hl)⟩

/-- The heap holds `min(count, #defined labels offered)` entries. -/
theorem size_eq (h : PrefilterInv cd count offered r t) :
    r.size = min count (definedLabels cd offered).card := by
  have hcard : r.labels.toFinset.card = r.size := by
    rw [List.toFinset_card_of_nodup h.nodup]
    simp [PriorityQueue.labels, PriorityQueue.size]
  have hsub : r.labels.toFinset ⊆ definedLabels cd offered := fun l hl => by
    obtain ⟨x, hx, rfl⟩ := List.mem_map.1 (List.mem_toFinset.1 hl)
    obtain ⟨k, hk, he⟩ := h.sound x hx
    exact mem_definedLabels.2 ⟨k, hk, x, he, rfl⟩
  have hle := Finset.card_le_card hsub
  rcases Nat.lt_or_ge r.size count with hs | hs
  · have hsup : definedLabels cd offered ⊆ r.labels.toFinset := fun l hl => by
      obtain ⟨k, hk, e, he, rfl⟩ := mem_definedLabels.1 hl
      exact List.mem_toFinset.2 (h.complete hs k hk e he)
    have := Finset.card_le_card hsup
    omega
  · have := h.size_le
    omega

end PrefilterInv

theorem prefilter_inv (hinj : LabelInjective cd) (hc : 1 ≤ count) (keys : List String) :
    ∃ r t, prefilter cd count keys = some (r, t) ∧ PrefilterInv cd count keys r t := by
  obtain ⟨r, t, hrun, hi, -⟩ := PrefilterInv.init.run hinj hc keys
  exact ⟨r, t, hrun, by simpa using hi⟩

/-- With `count ≥ 1` and distinct keys having distinct labels, the pre-filter loop returns a
heap and a `top_keys` that holds exactly its labels, each once; the heap holds
`min(count, #defined labels offered)` entries, and every offered key left out is at least
as far as every entry kept. A key offered and out of the heap at some point is never in it
afterwards. -/
theorem prefilter_spec (cd : String → Except String (D × Nat)) (hinj : LabelInjective cd)
    (count : Nat) (hc : 1 ≤ count) (keys : List String) :
    ∃ results topKeys, prefilter cd count keys = some (results, topKeys) ∧
      topKeys = results.labels.toFinset ∧ results.labels.Nodup ∧
      results.size = min count (definedLabels cd keys).card ∧
      (∀ key ∈ keys, ∀ e, cd key = .ok e → e.2 ∉ results.labels →
        ∀ x ∈ results.elems, x.1 ≤ e.1) ∧
      ∀ pre post, keys = pre ++ post → ∀ r t, prefilter cd count pre = some (r, t) →
        ∀ key ∈ pre, ∀ e, cd key = .ok e → e.2 ∉ r.labels → e.2 ∉ results.labels := by
  obtain ⟨results, topKeys, hrun, hi⟩ := prefilter_inv hinj hc keys
  refine ⟨results, topKeys, hrun, hi.topKeys_eq, hi.nodup, hi.size_eq, hi.nearest, ?_⟩
  rintro pre post rfl r t hpre key hk e he hl
  obtain ⟨r₁, t₁, h₁, hi₁⟩ := prefilter_inv hinj hc pre
  rw [hpre] at h₁
  cases h₁
  obtain ⟨r₂, t₂, h₂, -, hout⟩ := hi₁.run hinj hc post
  have hall : prefilter cd count (pre ++ post) = some (r₂, t₂) := by
    simp only [prefilter, List.foldlM_append]
    rw [show pre.foldlM (prefilterStep cd count) (.empty, ∅) = some (r, t) from hpre]
    exact h₂
  rw [hrun] at hall
  cases hall
  exact hout key hk e he hl

end Loop

end Ordered

/-! ## The plain selection the heap replaces -/

section Selection

variable {D : Type} [LinearOrder D] {cd : String → Except String (D × Nat)} {keys : List String}


/-- The entries of the offered keys that have a distance, each once. -/
def offeredEntries (cd : String → Except String (D × Nat)) (keys : List String) :
    List (D × Nat) :=
  (keys.filterMap fun key => (cd key).toOption).dedup

/-- The distances of the offered keys, each entry once, nearest first: the plain selection
of the `count` nearest takes the first `count` of them. -/
def offeredDistances (cd : String → Except String (D × Nat)) (keys : List String) : List D :=
  ((offeredEntries cd keys).map Prod.fst).insertionSort (· ≤ ·)

theorem mem_offeredEntries {e : D × Nat} :
    e ∈ offeredEntries cd keys ↔ ∃ key ∈ keys, cd key = .ok e := by
  rw [offeredEntries, List.mem_dedup, List.mem_filterMap]
  refine exists_congr fun key => and_congr_right fun _ => ?_
  cases cd key <;> simp [Except.toOption]

/-- Distinct entries `s` of `l` that are no farther than the rest of `l`: sorted, the
distances of `l` are those of `s` followed by those of the rest. -/
theorem exists_insertionSort_eq_append {s l : List (D × Nat)} (hs : s.Nodup) (hl : l.Nodup)
    (hsub : s ⊆ l) (hnear : ∀ x ∈ s, ∀ e ∈ l, e ∉ s → x.1 ≤ e.1) :
    ∃ rest : List (D × Nat), (∀ e ∈ rest, e ∈ l ∧ e ∉ s) ∧
      (l.map Prod.fst).insertionSort (· ≤ ·) =
        (s.map Prod.fst).insertionSort (· ≤ ·) ++ (rest.map Prod.fst).insertionSort (· ≤ ·) := by
  obtain ⟨s', hps, hsl⟩ := List.subperm_of_subset hs hsub
  obtain ⟨rest, hp⟩ := hsl.exists_perm_append
  replace hp : l.Perm (s ++ rest) := hp.trans (hps.append_right rest)
  have hrest : ∀ e ∈ rest, e ∈ l ∧ e ∉ s := fun e he =>
    ⟨hp.symm.subset (List.mem_append_right _ he),
      fun hes => (List.nodup_append.1 (hp.nodup_iff.1 hl)).2.2 hes he⟩
  refine ⟨rest, hrest, List.eq_of_perm_of_sorted ?_ (List.sorted_insertionSort _ _) ?_⟩
  · calc List.Perm ((l.map Prod.fst).insertionSort (· ≤ ·)) (l.map Prod.fst) :=
          List.perm_insertionSort _ _
      List.Perm _ ((s ++ rest).map Prod.fst) := hp.map _
      _ = s.map Prod.fst ++ rest.map Prod.fst := List.map_append _ _ _
      List.Perm _ _ := ((List.perm_insertionSort _ _).append (List.perm_insertionSort _ _)).symm
  · refine List.pairwise_append.2 ⟨List.sorted_insertionSort _ _, List.sorted_insertionSort _ _,
      fun a ha b hb => ?_⟩
    obtain ⟨x, hx, rfl⟩ := List.mem_map.1 ((List.perm_insertionSort _ _).subset ha)
    obtain ⟨e, he, rfl⟩ := List.mem_map.1 ((List.perm_insertionSort _ _).subset hb)
    exact hnear x hx e (hrest e he).1 (hrest e he).2

/-- The heap-based pre-filter agrees with the plain selection: with `count ≥ 1` and distinct
keys having distinct labels, the loop returns, and the distances it keeps, nearest first, are
the first `count` of the offered distances sorted. -/
theorem Ordered.prefilter_take_sorted (cd : String → Except String (D × Nat))
    (hinj : LabelInjective cd) (count : Nat) (hc : 1 ≤ count) (keys : List String) :
    ∃ results topKeys, Ordered.prefilter cd count keys = some (results, topKeys) ∧
      (results.elems.map Prod.fst).reverse = (offeredDistances cd keys).take count := by
  obtain ⟨r, t, hrun, hi⟩ := Ordered.prefilter_inv hinj hc keys
  refine ⟨r, t, hrun, ?_⟩
  -- a label in the heap is the label of one key only, so its entry is the heap's entry
  have hmem : ∀ e ∈ offeredEntries cd keys, e.2 ∈ r.labels → e ∈ r.elems := by
    intro e he hl
    obtain ⟨key, -, hk⟩ := mem_offeredEntries.1 he
    obtain ⟨x, hx, hx2⟩ := List.mem_map.1 hl
    obtain ⟨key', -, hk'⟩ := hi.sound x hx
    obtain rfl := hinj key' key x e hk' hk hx2
    rwa [← Except.ok.inj (hk'.symm.trans hk)]
  obtain ⟨rest, hrest, hsort⟩ := exists_insertionSort_eq_append (hi.nodup.of_map _)
    (show (offeredEntries cd keys).Nodup from List.nodup_dedup _) (fun e he => mem_offeredEntries.2 (hi.sound e he))
    fun x hx e he hne => by
      obtain ⟨key, hkey, hk⟩ := mem_offeredEntries.1 he
      exact hi.nearest key hkey e hk (mt (hmem e he) hne) x hx
  have hheap : (r.elems.map Prod.fst).insertionSort (· ≤ ·) = (r.elems.map Prod.fst).reverse :=
    List.eq_of_perm_of_sorted ((List.perm_insertionSort _ _).trans (List.reverse_perm _).symm)
      (List.sorted_insertionSort _ _) r.sorted_distances
  have hlen : (r.elems.map Prod.fst).reverse.length = r.size := by
    rw [List.length_reverse, List.length_map, PriorityQueue.size]
  rw [offeredDistances, hsort, hheap]
  rcases Nat.lt_or_ge r.size count with hs | hs
  · -- a heap that is not full holds every offered entry
    obtain rfl : rest = [] := List.eq_nil_iff_forall_not_mem.2 fun e he => by
      obtain ⟨hel, hne⟩ := hrest e he
      obtain ⟨key, hkey, hk⟩ := mem_offeredEntries.1 hel
      exact hne (hmem e hel (hi.complete hs key hkey e hk))
    rw [List.map_nil, List.insertionSort, List.append_nil, List.take_of_length_le (by omega)]
  · rw [List.take_left' (by rw [hlen]; exact le_antisymm hi.size_le hs)]
end Selection

/-! ## `float` distances and the heap that orders them -/

/-- A `float` distance: a number, or NaN. -/
inductive FloatDist (D : Type) where
  | num (d : D)
  | nan
  deriving DecidableEq

namespace FloatDist

variable {D : Type} [LinearOrder D]

/-- `<` on floats: false when a side is NaN. -/
def lt : FloatDist D → FloatDist D → Prop
  | num a, num b => a < b
  | _, _ => False

/-- `<=` on floats: false when a side is NaN. -/
def le : FloatDist D → FloatDist D → Prop
  | num a, num b => a ≤ b
  | _, _ => False

instance : LT (FloatDist D) := ⟨lt⟩

instance : LE (FloatDist D) := ⟨le⟩

instance decLt : DecidableRel (α := FloatDist D) (· < ·) := fun a b =>
  match a, b with
  | num a, num b => inferInstanceAs (Decidable (a < b))
  | num _, nan => isFalse id
  | nan, _ => isFalse id

instance decLe : DecidableRel (α := FloatDist D) (· ≤ ·) := fun a b =>
  match a, b with
  | num a, num b => inferInstanceAs (Decidable (a ≤ b))
  | num _, nan => isFalse id
  | nan, _ => isFalse id

@[simp] theorem num_lt_num {a b : D} : num a < num b ↔ a < b := Iff.rfl

@[simp] theorem num_le_num {a b : D} : num a ≤ num b ↔ a ≤ b := Iff.rfl

@[simp] theorem not_nan_le (a : FloatDist D) : ¬ nan ≤ a := id

end FloatDist

section Heap

variable {D : Type} [LinearOrder D]

/-- `std::less<std::pair<float, labeltype>>`, the order of the results heap: the pair's
`operator<`, which compares the distances with `<` only. -/
def pairLess (a b : FloatDist D × Nat) : Bool :=
  decide (a.1 < b.1) || !decide (b.1 < a.1) && decide (a.2 < b.2)

/-- `pairLess` is a strict weak order on the values `l`, as `std::priority_queue` requires of
its comparator: irreflexive and transitive, with "neither comes first" transitive too. -/
def StrictWeakOn (l : List (FloatDist D × Nat)) : Prop :=
  ∀ a ∈ l, ∀ b ∈ l, ∀ c ∈ l, pairLess a a = false ∧
    (pairLess a b = true → pairLess b c = true → pairLess a c = true) ∧
    (pairLess a b = false → pairLess b a = false → pairLess b c = false →
      pairLess c b = false → pairLess a c = false ∧ pairLess c a = false)

instance (l : List (FloatDist D × Nat)) : Decidable (StrictWeakOn l) :=
  inferInstanceAs (Decidable (∀ a ∈ l, ∀ b ∈ l, ∀ c ∈ l, pairLess a a = false ∧
    (pairLess a b = true → pairLess b c = true → pairLess a c = true) ∧
    (pairLess a b = false → pairLess b a = false → pairLess b c = false →
      pairLess c b = false → pairLess a c = false ∧ pairLess c a = false)))

end Heap

/-- The results heap, a `std::priority_queue<std::pair<float, labeltype>>`, as its elements in
the order `pop` removes them: each before the values it is not `pairLess` than. -/
structure FloatQueue (D : Type) where
  elems : List (FloatDist D × Nat)
  deriving DecidableEq

namespace FloatQueue

variable {D : Type} [LinearOrder D]

/-- A new, empty heap. -/
def empty : FloatQueue D := ⟨[]⟩

/-- `size()`. -/
def size (q : FloatQueue D) : Nat := q.elems.length

/-- `top()`; `none` on an empty heap, where `top()` is undefined. -/
def top? (q : FloatQueue D) : Option (FloatDist D × Nat) := q.elems.head?

/-- `pop()`; undefined unless `pairLess` is a strict weak order on the heap's values. -/
def pop (q : FloatQueue D) : Option (FloatQueue D) :=
  if StrictWeakOn q.elems then some ⟨q.elems.tail⟩ else none

/-- `emplace(x)`; undefined unless `pairLess` is a strict weak order on the heap's values and
`x`. -/
def emplace (q : FloatQueue D) (x : FloatDist D × Nat) : Option (FloatQueue D) :=
  if StrictWeakOn (x :: q.elems) then
    some ⟨q.elems.orderedInsert (fun a b => pairLess a b = false) x⟩
  else none

/-- The labels in the heap. -/
def labels (q : FloatQueue D) : List Nat := q.elems.map Prod.snd

end FloatQueue

/-! ## `AddPrefilteredKey` -/

section Prefilter

variable {D : Type} [LinearOrder D]

/-- `AddPrefilteredKey`, with `ComputeDistanceFromRecord(·, query)` as `computeDistance`;
`none` where it reads `top()` of an empty heap or a heap operation is undefined. -/
def addPrefilteredKey (computeDistance : String → Except String (FloatDist D × Nat))
    (count : Nat) (key : String) (results : FloatQueue D) (topKeys : Finset Nat) :
    Option (FloatQueue D × Finset Nat) :=
  match computeDistance key with
  | .error _ => some (results, topKeys)
  | .ok result =>
    if result.2 ∈ topKeys then some (results, topKeys)
    else if results.size < count then
      (results.emplace result).map fun results => (results, insert result.2 topKeys)
    else
      match results.top? with
      | none => none
      | some top =>
        if result.1 < top.1 then
          (results.pop.bind fun results => results.emplace result).map fun results =>
            (results, insert result.2 (topKeys.erase top.2))
        else some (results, topKeys)

/-- One turn of the pre-filter loop. -/
def prefilterStep (computeDistance : String → Except String (FloatDist D × Nat))
    (count : Nat) (acc : FloatQueue D × Finset Nat) (key : String) :
    Option (FloatQueue D × Finset Nat) :=
  addPrefilteredKey computeDistance count key acc.1 acc.2

/-- Modelled from the spec: the pre-filter loop of src/query/search.cc, which calls
`AddPrefilteredKey` on every key the pre-filter offers, in turn, from an empty heap and an
empty `top_keys`. -/
def prefilter (computeDistance : String → Except String (FloatDist D × Nat)) (count : Nat)
    (keys : List String) : Option (FloatQueue D × Finset Nat) :=
  keys.foldlM (prefilterStep computeDistance count) (.empty, ∅)

variable {cd : String → Except String (FloatDist D × Nat)}

/-- With `count = 0`, the first key with a distance makes `AddPrefilteredKey` read `top()` of
the empty heap. -/
theorem addPrefilteredKey_count_zero {key : String} {e : FloatDist D × Nat}
    (hk : cd key = .ok e) : addPrefilteredKey cd 0 key .empty ∅ = none := by
  simp [addPrefilteredKey, hk, FloatQueue.top?, FloatQueue.empty, FloatQueue.size]

/-- With `count = 0` the pre-filter loop keeps its empty heap until the first key with a
distance, where it reads `top()` of the empty heap: the loop fails exactly when some offered
key has a distance, and otherwise ends with the empty heap. -/
theorem prefilter_count_zero (cd : String → Except String (FloatDist D × Nat))
    (keys : List String) :
    (prefilter cd 0 keys = none ↔ ∃ key ∈ keys, ∃ e, cd key = .ok e) ∧
      (prefilter cd 0 keys = none ∨ prefilter cd 0 keys = some (.empty, ∅)) := by
  induction keys with
  | nil => exact ⟨by simp [prefilter], .inr rfl⟩
  | cons key keys ih =>
    rw [prefilter, List.foldlM_cons]
    cases hk : cd key with
    | ok e =>
      simp only [prefilterStep, addPrefilteredKey_count_zero hk, Option.bind_eq_bind,
        Option.none_bind, true_iff, true_or, and_true]
      exact ⟨key, List.mem_cons_self _ _, e, hk⟩
    | error msg =>
      have hstep : prefilterStep cd 0 (.empty, ∅) key = some (.empty, ∅) := by
        simp [prefilterStep, addPrefilteredKey, hk]
      rw [hstep, Option.bind_eq_bind, Option.some_bind, ← prefilter]
      exact ⟨ih.1.trans (by simp [hk]), ih.2⟩

end Prefilter

/-! ## On distances that are numbers, the float pre-filter is the ordered one -/

section Numbers

variable {D : Type}

/-- An entry with a number as its distance. -/
def numEntry (e : D × Nat) : FloatDist D × Nat := (.num e.1, e.2)

@[simp] theorem numEntry_fst (e : D × Nat) : (numEntry e).1 = .num e.1 := rfl

@[simp] theorem numEntry_snd (e : D × Nat) : (numEntry e).2 = e.2 := rfl

/-- A distance function whose distances are all numbers. -/
def numDist (cd : String → Except String (D × Nat)) (key : String) :
    Except String (FloatDist D × Nat) :=
  (cd key).map numEntry

/-- The numbers of a distance function, a NaN read as an error. -/
def numbersOf (cd : String → Except String (FloatDist D × Nat)) (key : String) :
    Except String (D × Nat) :=
  match cd key with
  | .ok (.num d, l) => .ok (d, l)
  | .ok (.nan, _) => .error "NaN"
  | .error e => .error e

variable {cd : String → Except String (D × Nat)}

theorem numDist_eq_ok {key : String} {e : FloatDist D × Nat} :
    numDist cd key = .ok e ↔ ∃ e₀, cd key = .ok e₀ ∧ numEntry e₀ = e := by
  unfold numDist
  cases cd key <;> simp [Except.map]

theorem labelInjective_of_numDist (h : LabelInjective (numDist cd)) : LabelInjective cd :=
  fun k₁ k₂ e₁ e₂ h₁ h₂ he => h k₁ k₂ (numEntry e₁) (numEntry e₂)
    (numDist_eq_ok.2 ⟨e₁, h₁, rfl⟩) (numDist_eq_ok.2 ⟨e₂, h₂, rfl⟩) he

theorem definedLabels_numDist (keys : List String) :
    definedLabels (numDist cd) keys = definedLabels cd keys := by
  ext l
  simp only [mem_definedLabels, numDist_eq_ok]
  refine exists_congr fun key => and_congr_right fun _ => ⟨?_, ?_⟩
  · rintro ⟨_, ⟨e₀, he₀, rfl⟩, rfl⟩
    exact ⟨e₀, he₀, rfl⟩
  · rintro ⟨e₀, he₀, rfl⟩
    exact ⟨_, ⟨e₀, he₀, rfl⟩, rfl⟩

/-- A distance function that never gives NaN is one of numbers. -/
theorem exists_numDist {cd : String → Except String (FloatDist D × Nat)}
    (hnan : ∀ key e, cd key = .ok e → e.1 ≠ .nan) : ∃ cd', numDist cd' = cd := by
  refine ⟨numbersOf cd, funext fun key => ?_⟩
  unfold numDist numbersOf
  rcases h : cd key with _ | ⟨_ | _, l⟩
  · rfl
  · rfl
  · exact absurd rfl (hnan key _ h)

variable [LinearOrder D]

/-- A heap of numbers as a heap of `float`s. -/
def FloatQueue.ofQueue (q : PriorityQueue D) : FloatQueue D := ⟨q.elems.map numEntry⟩

theorem pairLess_numEntry (a b : D × Nat) :
    pairLess (numEntry a) (numEntry b) = decide (toLex a < toLex b) := by
  simp only [pairLess, numEntry_fst, numEntry_snd, FloatDist.num_lt_num, Prod.Lex.lt_iff]
  rcases lt_trichotomy a.1 b.1 with h | h | h
  · simp [h]
  · simp [h]
  · simp [h, h.not_lt, h.ne']

/-- On numbers `pairLess` is the lexicographic order, so a value goes before another in `pop`
order exactly as in a `PriorityQueue`. -/
theorem pairLess_numEntry_eq_false (a b : D × Nat) :
    pairLess (numEntry a) (numEntry b) = false ↔ PopsBefore a b := by
  rw [pairLess_numEntry, decide_eq_false_iff_not, not_lt]
  rfl

theorem strictWeakOn_map_numEntry (l : List (D × Nat)) : StrictWeakOn (l.map numEntry) := by
  simp only [StrictWeakOn, List.forall_mem_map, pairLess_numEntry, decide_eq_true_eq,
    decide_eq_false_iff_not, not_lt]
  intro a _ b _ c _
  exact ⟨le_refl (toLex a), lt_trans, fun hab hba hbc hcb => ⟨le_trans hbc hab, le_trans hba hcb⟩⟩

namespace FloatQueue

variable {q : PriorityQueue D}

theorem emplace_ofQueue (x : D × Nat) :
    (ofQueue q).emplace (numEntry x) = some (ofQueue (q.emplace x)) := by
  rw [emplace, if_pos (show StrictWeakOn (numEntry x :: (ofQueue q).elems) from
    strictWeakOn_map_numEntry (x :: q.elems))]
  refine congrArg (some ∘ mk) (List.map_orderedInsert PopsBefore (fun a b => pairLess a b = false)
    numEntry q.elems x ?_ ?_).symm <;>
    exact fun a _ => (pairLess_numEntry_eq_false _ _).symm

theorem pop_ofQueue : (ofQueue q).pop = some (ofQueue q.pop) := by
  rw [pop, if_pos (show StrictWeakOn (ofQueue q).elems from strictWeakOn_map_numEntry q.elems)]
  simp [ofQueue, PriorityQueue.pop]

@[simp] theorem top?_ofQueue : (ofQueue q).top? = q.top?.map numEntry :=
  List.head?_map _ _

@[simp] theorem size_ofQueue : (ofQueue q).size = q.size := List.length_map _ _

@[simp] theorem labels_ofQueue : (ofQueue q).labels = q.labels := by
  simp [labels, ofQueue, PriorityQueue.labels, Function.comp_def]

end FloatQueue

/-- One call of `AddPrefilteredKey` on numbers does what the ordered one does. -/
theorem addPrefilteredKey_numDist (count : Nat) (key : String) (r : PriorityQueue D)
    (t : Finset Nat) :
    addPrefilteredKey (numDist cd) count key (.ofQueue r) t =
      (Ordered.addPrefilteredKey cd count key r t).map (Prod.map .ofQueue id) := by
  unfold addPrefilteredKey Ordered.addPrefilteredKey numDist
  cases cd key with
  | error => rfl
  | ok e =>
    simp only [Except.map, numEntry_snd, FloatQueue.size_ofQueue, FloatQueue.emplace_ofQueue,
      FloatQueue.top?_ofQueue, FloatQueue.pop_ofQueue, Option.some_bind]
    split_ifs
    · rfl
    · rfl
    · rcases r.top? with _ | top
      · rfl
      · simp only [Option.map_some', numEntry_fst, FloatDist.num_lt_num]
        split_ifs <;> rfl

/-- The run lemma of the simulation: on numbers the whole loop does what the ordered one
does. -/
theorem foldlM_prefilterStep_numDist (count : Nat) (keys : List String)
    (acc : PriorityQueue D × Finset Nat) :
    keys.foldlM (prefilterStep (numDist cd) count) (Prod.map .ofQueue id acc) =
      (keys.foldlM (Ordered.prefilterStep cd count) acc).map (Prod.map .ofQueue id) := by
  induction keys generalizing acc with
  | nil => rfl
  | cons key keys ih =>
    have hstep : prefilterStep (numDist cd) count (Prod.map .ofQueue id acc) key =
        (Ordered.prefilterStep cd count acc key).map (Prod.map .ofQueue id) :=
      addPrefilteredKey_numDist count key acc.1 acc.2
    rw [List.foldlM_cons, List.foldlM_cons, hstep]
    cases Ordered.prefilterStep cd count acc key with
    | none => rfl
    | some acc' => exact ih acc'

theorem prefilter_numDist (cd : String → Except String (D × Nat)) (count : Nat)
    (keys : List String) :
    prefilter (numDist cd) count keys =
      (Ordered.prefilter cd count keys).map (Prod.map .ofQueue id) :=
  foldlM_prefilterStep_numDist count keys (.empty, ∅)

end Numbers

/-! ## What the pre-filter keeps -/

section Results

variable {D : Type} [LinearOrder D]

/-- `twoKeyIndex`'s keys scored by a kernel that finds `a` (id `0`) at NaN from the query and
`b` (id `1`) at `1`. -/
def nanThenOne : String → Except String (FloatDist Nat × Nat) :=
  VectorBase.twoKeyIndex.computeDistanceFromRecord fun id =>
    .ok (if id = 0 then .nan else .num id, id)

/-- With `count = 1`, `a` at NaN enters the empty heap and `b` at `1` is turned away, since
`1 < NaN` is false: `b` is left out although the distance kept is not `≤ 1`. -/
theorem prefilter_nan_keeps_farther :
    LabelInjective nanThenOne ∧ nanThenOne "b" = .ok (.num 1, 1) ∧
      prefilter nanThenOne 1 ["a", "b"] = some (⟨[(.nan, 0)]⟩, {0}) ∧
      ¬ (FloatDist.nan : FloatDist Nat) ≤ .num 1 :=
  ⟨VectorBase.labelInjective_computeDistanceFromRecord
      ((VectorBase.bookkeeping_empty _).run _ (by decide)).1.inverse fun _ _ h => by cases h; rfl,
    rfl, by decide, FloatDist.not_nan_le _⟩

/-- With `count ≥ 1`, distinct keys having distinct labels and no distance NaN, the pre-filter
loop returns a heap and a `top_keys` that holds exactly its labels, each once; the heap holds
`min(count, #defined labels offered)` entries, and every offered key left out is at least as
far as every entry kept. A key offered and out of the heap at some point is never in it
afterwards. -/
theorem prefilter_nearest (cd : String → Except String (FloatDist D × Nat))
    (hnan : ∀ key e, cd key = .ok e → e.1 ≠ .nan) (hinj : LabelInjective cd) (count : Nat)
    (hc : 1 ≤ count) (keys : List String) :
    ∃ results topKeys, prefilter cd count keys = some (results, topKeys) ∧
      topKeys = results.labels.toFinset ∧ results.labels.Nodup ∧
      results.size = min count (definedLabels cd keys).card ∧
      (∀ key ∈ keys, ∀ e, cd key = .ok e → e.2 ∉ results.labels →
        ∀ x ∈ results.elems, x.1 ≤ e.1) ∧
      ∀ pre post, keys = pre ++ post → ∀ r t, prefilter cd count pre = some (r, t) →
        ∀ key ∈ pre, ∀ e, cd key = .ok e → e.2 ∉ r.labels → e.2 ∉ results.labels := by
  obtain ⟨cd, rfl⟩ := exists_numDist hnan
  obtain ⟨r, t, hrun, ht, hnd, hsize, hnear, hout⟩ :=
    Ordered.prefilter_spec cd (labelInjective_of_numDist hinj) count hc keys
  refine ⟨.ofQueue r, t, by rw [prefilter_numDist, hrun]; rfl, by rwa [FloatQueue.labels_ofQueue],
    by rwa [FloatQueue.labels_ofQueue], by rw [FloatQueue.size_ofQueue, hsize,
      definedLabels_numDist], fun key hkey e he hl x hx => ?_, ?_⟩
  · obtain ⟨e₀, he₀, rfl⟩ := numDist_eq_ok.1 he
    obtain ⟨x₀, hx₀, rfl⟩ := List.mem_map.1 hx
    exact FloatDist.num_le_num.2
      (hnear key hkey e₀ he₀ (by rwa [FloatQueue.labels_ofQueue] at hl) x₀ hx₀)
  · rintro pre post hkeys r' t' hpre key hkey e he hl
    obtain ⟨⟨r₀, t₀⟩, hpre₀, he'⟩ :=
      Option.map_eq_some'.1 ((prefilter_numDist cd count pre).symm.trans hpre)
    cases he'
    obtain ⟨e₀, he₀, rfl⟩ := numDist_eq_ok.1 he
    rw [FloatQueue.labels_ofQueue] at hl ⊢
    exact hout pre post hkeys r₀ t₀ hpre₀ key hkey e₀ he₀ hl

/-- `twoKeyIndex`'s keys scored by a kernel that puts each id at distance equal to itself. -/
def distanceIsId : String → Except String (FloatDist Nat × Nat) :=
  VectorBase.twoKeyIndex.computeDistanceFromRecord fun id => .ok (.num id, id)

theorem labelInjective_distanceIsId : LabelInjective distanceIsId :=
  VectorBase.labelInjective_computeDistanceFromRecord
    ((VectorBase.bookkeeping_empty _).run _ (by decide)).1.inverse fun _ _ h => by cases h; rfl

theorem distanceIsId_ne_nan : ∀ key e, distanceIsId key = .ok e → e.1 ≠ .nan := by
  intro key e h
  obtain ⟨md, -, he⟩ := VectorBase.computeDistanceFromRecord_eq_ok.1 h
  cases he
  exact FloatDist.noConfusion

theorem prefilter_nearest_two_keys :
    (∀ key e, distanceIsId key = .ok e → e.1 ≠ .nan) ∧ LabelInjective distanceIsId ∧ 1 ≤ 1 ∧
      ∃ results topKeys, prefilter distanceIsId 1 ["b", "a", "c", "b"] = some (results, topKeys) ∧
        topKeys = results.labels.toFinset ∧ results.labels.Nodup ∧
        results.size = min 1 (definedLabels distanceIsId ["b", "a", "c", "b"]).card ∧
        (∀ key ∈ ["b", "a", "c", "b"], ∀ e, distanceIsId key = .ok e → e.2 ∉ results.labels →
          ∀ x ∈ results.elems, x.1 ≤ e.1) ∧
        ∀ pre post, ["b", "a", "c", "b"] = pre ++ post → ∀ r t,
          prefilter distanceIsId 1 pre = some (r, t) →
          ∀ key ∈ pre, ∀ e, distanceIsId key = .ok e → e.2 ∉ r.labels →
            e.2 ∉ results.labels :=
  ⟨distanceIsId_ne_nan, labelInjective_distanceIsId, le_rfl,
    prefilter_nearest distanceIsId distanceIsId_ne_nan labelInjective_distanceIsId 1 le_rfl
      ["b", "a", "c", "b"]⟩

/-- The heap-based pre-filter agrees with the plain selection: on distances that are numbers,
with `count ≥ 1` and distinct keys having distinct labels, the loop returns, and the distances
it keeps, nearest first, are the first `count` of the offered distances sorted. -/
theorem prefilter_eq_take_sorted (cd : String → Except String (D × Nat))
    (hinj : LabelInjective cd) (count : Nat) (hc : 1 ≤ count) (keys : List String) :
    ∃ results topKeys, prefilter (numDist cd) count keys = some (results, topKeys) ∧
      (results.elems.map Prod.fst).reverse =
        ((offeredDistances cd keys).take count).map .num := by
  obtain ⟨r, t, hrun, hs⟩ := Ordered.prefilter_take_sorted cd hinj count hc keys
  refine ⟨.ofQueue r, t, by rw [prefilter_numDist, hrun]; rfl, ?_⟩
  rw [← hs, List.map_reverse]
  simp [FloatQueue.ofQueue, numEntry, Function.comp_def]

/-- Distances of `twoKeyIndex`'s keys as numbers: each id at distance equal to itself. -/
def idDistance : String → Except String (Nat × Nat) :=
  VectorBase.twoKeyIndex.computeDistanceFromRecord fun id => .ok (id, id)

theorem prefilter_eq_take_sorted_two_of_four :
    LabelInjective idDistance ∧ 1 ≤ 2 ∧
      ∃ results topKeys, prefilter (numDist idDistance) 2 ["b", "a", "c", "b"] =
          some (results, topKeys) ∧
        (results.elems.map Prod.fst).reverse =
          ((offeredDistances idDistance ["b", "a", "c", "b"]).take 2).map .num :=
  have hinj : LabelInjective idDistance :=
    VectorBase.labelInjective_computeDistanceFromRecord
      ((VectorBase.bookkeeping_empty _).run _ (by decide)).1.inverse fun _ _ h => by cases h; rfl
  ⟨hinj, by decide, prefilter_eq_take_sorted idDistance hinj 2 (by decide) ["b", "a", "c", "b"]⟩

end Results

end ValkeySearch
