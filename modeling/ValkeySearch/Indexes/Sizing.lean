import ValkeySearch.Indexes.KeyVectors

/-
  How the flat kernel is sized (src/indexes/vector_flat.cc). hnswlib's brute-force index has a
  fixed capacity. `AddRecordImpl` meets a full kernel with `ResizeIfFull`, which grows the
  capacity by `block_size_`, and retries; nothing shrinks it.

  Model. `Resized f g` is what one call of the kernel may do to its size: keep
  `block_size_`, hold no more elements than the capacity, and keep the capacity or, from a
  full kernel, grow it by `block_size_`. The capacity is a `size_t`: the results hold while
  `capacity + block_size_` stays below `2^64`.

  Proved:
  * `addRecordImpl_resized`: with `block_size ≥ 1`, a returning `AddRecordImpl` resizes at
    most once, and only a full kernel; a returning `ModifyRecordImpl` and `RemoveRecordImpl`
    keep the capacity.
  * `addRecord_kernel`, `modifyRecord_kernel`, `removeRecord_kernel`: a mutation changes the
    kernel only through those calls, so it resizes as they do (`apply_resized`).
  * `apply_capacity`: on a consistent index whose `GetRecordCount()` is within the capacity,
    every mutation that returns keeps it within, and changes the capacity only when the index was full,
    by `block_size_`.
  * `run_capacity`: every safe run (`KeyVectors.SafeRun`) of `n` mutations from a new flat
    index with `block_size ≥ 1` returns with `GetRecordCount()` within the capacity, and the
    capacity is `initial_cap` grown by `block_size_` at most `n` times, while
    `initial_cap + n · block_size < 2^64`.
-/

namespace ValkeySearch

namespace BruteforceSearch

variable {b b' : BruteforceSearch} {datapoint : List UInt8} {label : Nat}

theorem addPoint_maxElements (h : b.addPoint datapoint label = .ok b') :
    b'.maxElements = b.maxElements := by
  unfold addPoint at h
  split_ifs at h <;> cases h <;> rfl

/-- `addPoint` stores a new label only below the capacity. -/
theorem addPoint_fits (h : b.addPoint datapoint label = .ok b')
    (hb : b.curElementCount ≤ b.maxElements) : b'.curElementCount ≤ b'.maxElements := by
  unfold addPoint at h
  split_ifs at h with h₁ h₂ <;> cases h
  · exact hb
  · show b.curElementCount + 1 ≤ b.maxElements
    omega

end BruteforceSearch

namespace VectorFlat

/-- The kernel holds no more elements than its capacity. -/
def Fits (f : VectorFlat) : Prop := f.algo.curElementCount ≤ f.getCapacity

/-- What one call may do to the kernel's size: keep `block_size_` and the fit, and keep the
capacity or, from a full kernel, grow it by `block_size_`. -/
structure Resized (f g : VectorFlat) : Prop where
  blockSize : g.blockSize = f.blockSize
  fits : g.Fits
  capacity : g.getCapacity = f.getCapacity ∨
    f.algo.curElementCount = f.getCapacity ∧ g.getCapacity = f.getCapacity + f.blockSize

variable {f g : VectorFlat}

theorem Resized.refl (h : f.Fits) : Resized f f := ⟨rfl, h, .inl rfl⟩

theorem removeRecordImpl_resized (h : f.Fits) (internalId : Nat) :
    Resized f (f.removeRecordImpl internalId).2 := by
  unfold removeRecordImpl BruteforceSearch.removePoint
  split_ifs
  · refine ⟨rfl, ?_, .inl rfl⟩
    unfold Fits getCapacity at h ⊢
    dsimp only
    omega
  · exact .refl h

theorem modifyRecordImpl_resized (h : f.Fits) {trackedVectors : Finmap fun _ : Nat => List UInt8}
    {internalId : Nat} {record : List UInt8} {r : Except String Bool}
    (hx : f.modifyRecordImpl trackedVectors internalId record = some (r, g)) : Resized f g := by
  unfold modifyRecordImpl at hx
  generalize f.algo.data.lookup internalId = o at hx
  rcases o with _ | saved <;> dsimp only at hx
  · cases hx
    exact .refl h
  split_ifs at hx <;> cases hx
  exacts [.refl h, ⟨rfl, h, .inl rfl⟩]

/-- With `block_size ≥ 1`, a returning `AddRecordImpl` leaves the kernel resized once at most:
a full kernel grows by `block_size_` and then has room for the record. -/
theorem addRecordImpl_resized (hb : 1 ≤ f.blockSize) (h : f.Fits)
    (hcap : f.getCapacity + f.blockSize < 2 ^ 64) {internalId : Nat} {record : List UInt8}
    {fuel : Nat} {r : Except String Unit}
    (hx : f.addRecordImpl internalId record fuel = some (r, g)) : Resized f g := by
  rcases fuel with _ | fuel
  · nomatch hx
  cases hadd : f.algo.addPoint record internalId with
  | ok algo =>
    rw [addRecordImpl_of_addPoint_ok hadd] at hx
    cases hx
    exact ⟨rfl, BruteforceSearch.addPoint_fits hadd h,
      .inl (BruteforceSearch.addPoint_maxElements hadd)⟩
  | error e =>
    obtain ⟨hl, hf, -⟩ := BruteforceSearch.addPoint_eq_error hadd
    rw [addRecordImpl_of_full hl hf] at hx
    have hg : f.resizeIfFull.getCapacity = f.getCapacity + f.blockSize := by
      rw [resizeIfFull_of_full hf, Nat.mod_eq_of_lt hcap]
    have hroom : f.resizeIfFull.algo.curElementCount < f.resizeIfFull.getCapacity := by
      rw [resizeIfFull_algo_curElementCount, hg, hf]
      exact Nat.lt_add_of_pos_right hb
    obtain ⟨algo, hok⟩ := BruteforceSearch.addPoint_of_not_full record internalId hroom.ne
    rcases fuel with _ | fuel
    · nomatch hx
    rw [addRecordImpl_of_addPoint_ok hok] at hx
    cases hx
    exact ⟨resizeIfFull_blockSize f, BruteforceSearch.addPoint_fits hok hroom.le,
      .inr ⟨hf, (BruteforceSearch.addPoint_maxElements hok).trans hg⟩⟩

end VectorFlat

namespace FlatIndex

variable {x y : FlatIndex} {key : String} {record : List UInt8} {fuel : Nat}
  {r : Except String Bool}

/-! ## Where a mutation touches the kernel -/

theorem addRecord_kernel (hx : x.addRecord key record fuel = some (r, y)) :
    y.kernel = x.kernel ∨ ∃ id v r', x.kernel.addRecordImpl id v fuel = some (r', y.kernel) := by
  unfold addRecord at hx
  generalize x.base.internVector record = o at hx
  rcases o with _ | ⟨vector, magnitude⟩ <;> dsimp only at hx
  · cases hx
    exact .inl rfl
  generalize x.base.trackKey key (magnitude.getD kDefaultMagnitude) vector = t at hx
  rcases t with ⟨e | id, s⟩ <;> dsimp only at hx
  · cases hx
    exact .inl rfl
  obtain ⟨⟨r', k⟩, hk, hr⟩ := Option.map_eq_some'.1 hx
  rcases r' with e | _ <;> cases hr <;> exact .inr ⟨id, vector, _, hk⟩

theorem removeRecord_kernel (x : FlatIndex) (key : String) :
    (x.removeRecord key).2.kernel = x.kernel ∨
      ∃ id, (x.removeRecord key).2.kernel = (x.kernel.removeRecordImpl id).2 := by
  unfold removeRecord
  rcases x.base.unTrackKey key with ⟨e | (_ | id), s⟩
  exacts [.inl rfl, .inl rfl, .inr ⟨id, rfl⟩]

theorem modifyRecord_kernel (hx : x.modifyRecord key record = some (r, y)) :
    y.kernel = x.kernel ∨ (∃ id, y.kernel = (x.kernel.removeRecordImpl id).2) ∨
      ∃ tv id v r', x.kernel.modifyRecordImpl tv id v = some (r', y.kernel) := by
  unfold modifyRecord at hx
  generalize x.base.internVector record = o at hx
  rcases o with _ | ⟨vector, magnitude⟩ <;> dsimp only at hx
  · cases hx
    exact (removeRecord_kernel x key).imp_right .inl
  generalize x.base.getInternalId key = g at hx
  rcases g with e | id <;> dsimp only at hx
  · cases hx
    exact .inl rfl
  generalize x.base.updateMetadata key (magnitude.getD kDefaultMagnitude) vector = u at hx
  rcases u with ⟨e | _, s⟩ <;> dsimp only at hx
  · cases hx
    exact .inl rfl
  obtain ⟨⟨r', k⟩, hk, hr⟩ := Option.map_eq_some'.1 hx
  rcases r' with e | _ <;> cases hr <;> exact .inr (.inr ⟨_, id, vector, _, hk⟩)

/-- Every mutation resizes the kernel as one of its calls may. -/
theorem apply_resized (hb : 1 ≤ x.kernel.blockSize) (h : x.kernel.Fits)
    (hcap : x.kernel.getCapacity + x.kernel.blockSize < 2 ^ 64) {m : Mutation}
    (hx : x.apply fuel m = some (r, y)) : VectorFlat.Resized x.kernel y.kernel := by
  cases m with
  | addRecord key record =>
    rcases addRecord_kernel hx with e | ⟨id, v, r', hk⟩
    · rw [e]
      exact .refl h
    · exact VectorFlat.addRecordImpl_resized hb h hcap hk
  | modifyRecord key record =>
    rcases modifyRecord_kernel hx with e | ⟨id, e⟩ | ⟨tv, id, v, r', hk⟩
    · rw [e]
      exact .refl h
    · rw [e]
      exact VectorFlat.removeRecordImpl_resized h id
    · exact VectorFlat.modifyRecordImpl_resized h hk
  | removeRecord key =>
    obtain rfl : (x.removeRecord key).2 = y := by rw [Option.some.inj hx]
    rcases removeRecord_kernel x key with e | ⟨id, e⟩ <;> rw [e]
    exacts [.refl h, VectorFlat.removeRecordImpl_resized h id]

/-! ## The capacity over steps and runs -/

/-- On a consistent index whose records fit its capacity, every mutation keeps them within
it, and changes the capacity only when the index was full, growing it by `block_size_`. -/
theorem apply_capacity (hb : x.base.Bookkeeping) (h : KernelInv x)
    (hfit : x.base.getRecordCount ≤ x.kernel.getCapacity)
    (hcap : x.kernel.getCapacity + x.kernel.blockSize < 2 ^ 64)
    (hinc : x.base.incId + 1 < 2 ^ 64) {m : Mutation} (hx : x.apply fuel m = some (r, y)) :
    y.base.getRecordCount ≤ y.kernel.getCapacity ∧
      (y.kernel.getCapacity = x.kernel.getCapacity ∨
        x.base.getRecordCount = x.kernel.getCapacity ∧
          y.kernel.getCapacity = x.kernel.getCapacity + x.kernel.blockSize) := by
  have hfits : x.kernel.Fits := by
    rw [VectorFlat.Fits, h.count_eq_getRecordCount]
    exact hfit
  have hr := apply_resized h.blockSize_pos hfits hcap hx
  rw [← h.count_eq_getRecordCount, ← (apply_inv hb h hx hinc).2.1.count_eq_getRecordCount]
  exact ⟨hr.fits, hr.capacity⟩

theorem apply_capacity_add_full :
    oneKeyFlat.base.Bookkeeping ∧ KernelInv oneKeyFlat ∧
      oneKeyFlat.base.getRecordCount ≤ oneKeyFlat.kernel.getCapacity ∧
      oneKeyFlat.kernel.getCapacity + oneKeyFlat.kernel.blockSize < 2 ^ 64 ∧
      oneKeyFlat.base.incId + 1 < 2 ^ 64 ∧
      ∃ y, oneKeyFlat.apply 2 (.addRecord "b" [0, 0, 0, 1]) = some (.ok true, y) ∧
        y.base.getRecordCount ≤ y.kernel.getCapacity ∧
        (y.kernel.getCapacity = oneKeyFlat.kernel.getCapacity ∨
          oneKeyFlat.base.getRecordCount = oneKeyFlat.kernel.getCapacity ∧
            y.kernel.getCapacity = oneKeyFlat.kernel.getCapacity + oneKeyFlat.kernel.blockSize) :=
  have ⟨y, hx⟩ : ∃ y, oneKeyFlat.apply 2 (.addRecord "b" [0, 0, 0, 1]) = some (.ok true, y) :=
    ⟨_, rfl⟩
  ⟨oneKeyFlat_inv.1, oneKeyFlat_inv.2, by decide, by decide, by decide, y, hx,
    apply_capacity oneKeyFlat_inv.1 oneKeyFlat_inv.2 (by decide) (by decide) (by decide) hx⟩

/-- Over a run, `block_size_` is kept, the records fit, and the capacity grew by
`block_size_` at most once per mutation. -/
theorem run_resized (ops : List Mutation) (hy : x.run fuel ops = some y)
    (hb : 1 ≤ x.kernel.blockSize) (h : x.kernel.Fits)
    (hcap : x.kernel.getCapacity + ops.length * x.kernel.blockSize < 2 ^ 64) :
    y.kernel.blockSize = x.kernel.blockSize ∧ y.kernel.Fits ∧
      ∃ k ≤ ops.length, y.kernel.getCapacity = x.kernel.getCapacity + k * x.kernel.blockSize := by
  induction ops generalizing x with
  | nil =>
    cases hy
    exact ⟨rfl, h, 0, le_rfl, by rw [Nat.zero_mul, Nat.add_zero]⟩
  | cons m rest ih =>
    obtain ⟨⟨r, x'⟩, hx, hrest⟩ := Option.bind_eq_some.1 hy
    dsimp only at hrest
    rw [List.length_cons, Nat.succ_mul] at hcap
    have hr := apply_resized hb h (by omega) hx
    have hle : x'.kernel.getCapacity ≤ x.kernel.getCapacity + x.kernel.blockSize := by
      rcases hr.capacity with e | ⟨-, e⟩ <;> omega
    obtain ⟨hbs, hfit, k, hk, e⟩ :=
      ih hrest (hr.blockSize ▸ hb) hr.fits (by rw [hr.blockSize]; omega)
    refine ⟨hbs.trans hr.blockSize, hfit, ?_⟩
    rw [e, hr.blockSize]
    rcases hr.capacity with e' | ⟨-, e'⟩
    · exact ⟨k, by rw [List.length_cons]; omega, by rw [e']⟩
    · exact ⟨k + 1, by rw [List.length_cons]; omega, by rw [e', Nat.succ_mul]; omega⟩

/-- Every safe run of `n` mutations from a new flat index with `block_size ≥ 1` returns, with
`GetRecordCount()` within the capacity and the capacity `initial_cap` grown by `block_size_`
at most `n` times, while `initial_cap + n · block_size < 2^64`. -/
theorem run_capacity (p : IndexParams) {initialCap blockSize : Nat} (hc : initialCap < 2 ^ 64)
    (hbs : blockSize < 2 ^ 32) (hpos : 1 ≤ blockSize) (ops : List Mutation)
    (hn : initialCap + ops.length * blockSize < 2 ^ 64)
    (hsafe : KeyVectors.empty.SafeRun p.intern ops) :
    ∃ y, (⟨VectorBase.empty p, VectorFlat.create initialCap blockSize hc hbs⟩ : FlatIndex).run 2
        ops = some y ∧ y.base.getRecordCount ≤ y.kernel.getCapacity ∧
      ∃ k ≤ ops.length, y.kernel.getCapacity = initialCap + k * blockSize := by
  have hlen : ops.length ≤ ops.length * blockSize := Nat.le_mul_of_pos_right _ hpos
  have hops : (VectorBase.empty p).incId + ops.length < 2 ^ 64 := by
    rw [VectorBase.empty_incId]
    omega
  obtain ⟨y, hy, -⟩ := run_refines_of_inv (VectorBase.bookkeeping_empty p)
    (KernelInv.create p hc hbs hpos) Finmap.not_mem_empty ops hops hsafe
  obtain ⟨-, -, hy'⟩ := run_inv (VectorBase.bookkeeping_empty p)
    (KernelInv.create p hc hbs hpos) ops hops hy
  obtain ⟨-, hfit, hk⟩ := run_resized ops hy hpos (Nat.zero_le _) hn
  exact ⟨y, hy, hy'.count_eq_getRecordCount ▸ hfit, hk⟩

/-- Three keys added to a new flat index of capacity `1`: no mutation frees a vector. -/
def threeAdds : List Mutation :=
  [.addRecord "a" [0, 0, 0, 0], .addRecord "b" [0, 0, 0, 1], .addRecord "c" [0, 0, 0, 2]]

theorem run_capacity_three_adds :
    1 < 2 ^ 64 ∧ 1 < 2 ^ 32 ∧ 1 ≤ 1 ∧ 1 + threeAdds.length * 1 < 2 ^ 64 ∧
      KeyVectors.empty.SafeRun VectorBase.flatL2Dim1.intern threeAdds ∧
      ∃ y, (⟨VectorBase.empty VectorBase.flatL2Dim1,
          VectorFlat.create 1 1 (by decide) (by decide)⟩ : FlatIndex).run 2 threeAdds = some y ∧
        y.base.getRecordCount ≤ y.kernel.getCapacity ∧
        ∃ k ≤ threeAdds.length, y.kernel.getCapacity = 1 + k * 1 :=
  have hsafe : KeyVectors.empty.SafeRun VectorBase.flatL2Dim1.intern threeAdds :=
    ⟨id, id, id, trivial⟩
  ⟨by decide, by decide, le_rfl, by decide, hsafe,
    run_capacity VectorBase.flatL2Dim1 _ _ le_rfl _ (by decide) hsafe⟩

end FlatIndex

end ValkeySearch
