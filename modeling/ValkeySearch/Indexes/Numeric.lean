import Mathlib.Data.Finmap
import Mathlib.Algebra.BigOperators.Group.Finset

/-
  `BTreeNumericIndex` (src/indexes/numeric.h): `btree_` maps each numeric key to the set of
  values stored at it, and `segment_tree_` holds the keys again, once per stored value, to
  count a range. `Add` inserts into both, `Remove` erases from both and drops a key whose set
  it empties, `Modify` is `Remove` then `Add`.

  Model. Keys are finite doubles, ordered by `<`; they are any linear order `K`. Values are
  compared by content (`InternedStringPtrEqual`): any type `T` with decidable equality.
  `btree_` is a `Finmap` whose sets are nonempty by construction (`btree_nonempty`).
  src/utils/segment_tree.h is not in the sources; the segment tree is modelled from the spec
  as the multiset it counts.

  Proved:
  * `remove_add`, `add_modify_remove`: `Add(v, x); Modify(v, x, y); Remove(v, y)` restores
    any state when `v` is stored at neither `x` nor `y`.
  * `counts_of_guarded_run`: along a run where `Add(v, x)` comes only when `v` is not at `x`,
    `Remove(v, x)` only when it is, and `Modify(v, x, y)` only when `v` is at `x` and, for
    `y ≠ x`, not at `y`, the segment tree holds each key `|btree_[key]|` times, and
    `GetCount` counts the `(value, key)` entries in the range.
  * `modify_onto_stored_key_overcounts`: with the weaker guard on `Modify` (only `v` at `x`),
    the segment tree counts one entry too many.
  * `SegmentCounts.add_remove_iff`: the guards on `Add` and `Remove` are exactly what keeps
    the counts; an `Add` of a stored value, or a `Remove` of an absent value at a key that
    holds others, puts the segment tree off by one.
-/

namespace ValkeySearch

/-- Whether `x` lies between `lo` and `hi`, each end closed or open. -/
def inRange {K : Type} [LinearOrder K] (lo hi : K) (loInclusive hiInclusive : Bool) (x : K) :
    Bool :=
  (lo < x || (loInclusive && x = lo)) && (x < hi || (hiInclusive && x = hi))

/-- Modelled from the spec: `utils::SegmentTree`, "a segment tree over the multiset of values
supporting count(lo, hi, lo_inclusive, hi_inclusive)", as that multiset. -/
structure SegmentTree (K : Type) where
  values : Multiset K

namespace SegmentTree

variable {K : Type} [LinearOrder K]

/-- Modelled from the spec: `SegmentTree::Add`. -/
def add (t : SegmentTree K) (key : K) : SegmentTree K := ⟨key ::ₘ t.values⟩

/-- Modelled from the spec: `SegmentTree::Remove` drops one occurrence. -/
def remove (t : SegmentTree K) (key : K) : SegmentTree K := ⟨t.values.erase key⟩

/-- Modelled from the spec: `SegmentTree::Count`. -/
def count (t : SegmentTree K) (lo hi : K) (loInclusive hiInclusive : Bool) : Nat :=
  Multiset.card (t.values.filter fun x => inRange lo hi loInclusive hiInclusive x)

end SegmentTree

section SetsNonempty

variable {T K : Type} [DecidableEq K]

/-- Every set a map holds is nonempty. -/
def SetsNonempty (m : Finmap fun _ : K => Finset T) : Prop :=
  ∀ key values, m.lookup key = some values → values.Nonempty

theorem SetsNonempty.insert {m : Finmap fun _ : K => Finset T} (h : SetsNonempty m) {key : K}
    {values : Finset T} (hv : values.Nonempty) : SetsNonempty (m.insert key values) := by
  intro k vs hk
  by_cases e : k = key
  · subst e; rw [Finmap.lookup_insert, Option.some.injEq] at hk; exact hk ▸ hv
  · rw [Finmap.lookup_insert_of_ne _ e] at hk; exact h k vs hk

theorem SetsNonempty.erase {m : Finmap fun _ : K => Finset T} (h : SetsNonempty m) (key : K) :
    SetsNonempty (m.erase key) := by
  intro k vs hk
  by_cases e : k = key
  · subst e; rw [Finmap.lookup_erase] at hk; cases hk
  · rw [Finmap.lookup_erase_ne e] at hk; exact h k vs hk

end SetsNonempty

/-- `BTreeNumericIndex<T>`. -/
structure BTreeNumericIndex (T K : Type) [DecidableEq T] [LinearOrder K] where
  btree : Finmap fun _ : K => Finset T
  segmentTree : SegmentTree K
  /-- `Remove` drops a key whose set it empties, so no key maps to an empty set. -/
  btree_nonempty : SetsNonempty btree

namespace BTreeNumericIndex

variable {T K : Type} [DecidableEq T] [LinearOrder K]

/-- A new index. -/
def empty : BTreeNumericIndex T K :=
  ⟨∅, ⟨0⟩, fun _ _ h => by rw [Finmap.lookup_empty] at h; cases h⟩

/-- `btree_[key]`: the set stored at `key`, empty when the key is absent. -/
def valuesAt (s : BTreeNumericIndex T K) (key : K) : Finset T :=
  (s.btree.lookup key).getD ∅

/-- `Add`. -/
def add (s : BTreeNumericIndex T K) (value : T) (key : K) : BTreeNumericIndex T K where
  btree := s.btree.insert key (insert value (s.valuesAt key))
  segmentTree := s.segmentTree.add key
  btree_nonempty := s.btree_nonempty.insert (Finset.insert_nonempty _ _)

/-- `Remove`. -/
def remove (s : BTreeNumericIndex T K) (value : T) (key : K) : BTreeNumericIndex T K :=
  let values := (s.valuesAt key).erase value
  if h : values = ∅ then
    ⟨s.btree.erase key, s.segmentTree.remove key, s.btree_nonempty.erase key⟩
  else
    ⟨s.btree.insert key values, s.segmentTree.remove key,
      s.btree_nonempty.insert (Finset.nonempty_iff_ne_empty.2 h)⟩

/-- `Modify`. -/
def modify (s : BTreeNumericIndex T K) (value : T) (oldKey newKey : K) :
    BTreeNumericIndex T K :=
  (s.remove value oldKey).add value newKey

/-- `GetCount`. -/
def getCount (s : BTreeNumericIndex T K) (lo hi : K) (loInclusive hiInclusive : Bool) : Nat :=
  s.segmentTree.count lo hi loInclusive hiInclusive

/-- The number of `(value, key)` entries of `btree_` whose key is in the range: what a range
iteration over `btree_` yields. -/
def entriesInRange (s : BTreeNumericIndex T K) (lo hi : K) (loInclusive hiInclusive : Bool) :
    Nat :=
  ∑ key ∈ s.btree.keys.filter (fun x => inRange lo hi loInclusive hiInclusive x),
    (s.valuesAt key).card

/-- The multiset in which each key of `btree_` occurs once per value stored at it. -/
def keyMultiset (s : BTreeNumericIndex T K) : Multiset K :=
  s.btree.keys.val.bind fun key => Multiset.replicate (s.valuesAt key).card key

/-! ## The sets at each key -/

section Lemmas

variable {s : BTreeNumericIndex T K}

@[simp] theorem add_segmentTree (value : T) (key : K) :
    (s.add value key).segmentTree = s.segmentTree.add key := rfl

@[simp] theorem remove_segmentTree (value : T) (key : K) :
    (s.remove value key).segmentTree = s.segmentTree.remove key := by
  unfold remove; dsimp only; split_ifs <;> rfl

theorem valuesAt_add (value : T) (key k : K) :
    (s.add value key).valuesAt k = if k = key then insert value (s.valuesAt key) else s.valuesAt k := by
  unfold valuesAt add
  split_ifs with e
  · subst e; rw [Finmap.lookup_insert]; rfl
  · rw [Finmap.lookup_insert_of_ne _ e]

theorem valuesAt_remove (value : T) (key k : K) :
    (s.remove value key).valuesAt k =
      if k = key then (s.valuesAt key).erase value else s.valuesAt k := by
  unfold remove valuesAt
  dsimp only
  split_ifs with h e e
  · subst e; rw [Finmap.lookup_erase]; exact h.symm
  · rw [Finmap.lookup_erase_ne e]
  · subst e; rw [Finmap.lookup_insert]; rfl
  · rw [Finmap.lookup_insert_of_ne _ e]

/-- A key is in `btree_` exactly when a value is stored at it. -/
theorem mem_btree_iff (k : K) : k ∈ s.btree ↔ (s.valuesAt k).Nonempty := by
  unfold valuesAt
  cases hk : s.btree.lookup k with
  | none => simp [← Finmap.lookup_eq_none, hk]
  | some vs => simp [Finmap.mem_of_lookup_eq_some hk, s.btree_nonempty k vs hk]

/-- Since no set is empty, `btree_` is determined by the sets at each key. -/
theorem btree_ext {t : BTreeNumericIndex T K} (h : ∀ k, s.valuesAt k = t.valuesAt k) :
    s.btree = t.btree := by
  have lookup : ∀ u : BTreeNumericIndex T K, ∀ k,
      u.btree.lookup k = if u.valuesAt k = ∅ then none else some (u.valuesAt k) := by
    intro u k
    unfold valuesAt
    cases hk : u.btree.lookup k with
    | none => rfl
    | some vs => simp [Finset.nonempty_iff_ne_empty.1 (u.btree_nonempty k vs hk)]
  exact Finmap.ext_lookup fun k => by rw [lookup, lookup, h]

theorem ext {t : BTreeNumericIndex T K} (hb : s.btree = t.btree)
    (hs : s.segmentTree = t.segmentTree) : s = t := by
  cases s; cases t; cases hb; cases hs; rfl

end Lemmas

/-! ## `Add; Modify; Remove` -/

/-- `Remove(v, key)` undoes `Add(v, key)` when `v` was not stored at `key`. -/
theorem remove_add (s : BTreeNumericIndex T K) {value : T} {key : K}
    (h : value ∉ s.valuesAt key) : (s.add value key).remove value key = s := by
  refine ext (btree_ext fun k => ?_) ?_
  · by_cases e : k = key <;> simp [valuesAt_remove, valuesAt_add, e, Finset.erase_insert h]
  · simp [SegmentTree.add, SegmentTree.remove, Multiset.erase_cons_head]

/-- `Add(v, x); Modify(v, x, y); Remove(v, y)` restores any state in which `v` is stored at
neither `x` nor `y`: `btree_` as a map, and the segment tree's multiset. -/
theorem add_modify_remove (s : BTreeNumericIndex T K) (value : T) (x y : K)
    (hx : value ∉ s.valuesAt x) (hy : value ∉ s.valuesAt y) :
    ((s.add value x).modify value x y).remove value y = s := by
  rw [modify, remove_add s hx, remove_add s hy]

/-- The index holding `w` at 1. -/
def wAtOne : BTreeNumericIndex String Nat := empty.add "w" 1

theorem add_modify_remove_w_at_one :
    "v" ∉ wAtOne.valuesAt 1 ∧ "v" ∉ wAtOne.valuesAt 2 ∧
      ((wAtOne.add "v" 1).modify "v" 1 2).remove "v" 2 = wAtOne :=
  ⟨by decide, by decide, add_modify_remove _ _ _ _ (by decide) (by decide)⟩

/-! ## Runs under the callers' discipline -/

/-- A call on the index. -/
inductive NumericOp (T K : Type)
  | add (value : T) (key : K)
  | remove (value : T) (key : K)
  | modify (value : T) (oldKey newKey : K)

/-- One call. -/
def apply (s : BTreeNumericIndex T K) : NumericOp T K → BTreeNumericIndex T K
  | .add value key => s.add value key
  | .remove value key => s.remove value key
  | .modify value oldKey newKey => s.modify value oldKey newKey

/-- The state after a sequence of calls. -/
def run (s : BTreeNumericIndex T K) : List (NumericOp T K) → BTreeNumericIndex T K
  | [] => s
  | op :: ops => (s.apply op).run ops

/-- The discipline a caller keeps: a value is added only where it is not stored, removed or
moved only from where it is, and moved only to a key where it is not stored. -/
def Guarded (s : BTreeNumericIndex T K) : NumericOp T K → Prop
  | .add value key => value ∉ s.valuesAt key
  | .remove value key => value ∈ s.valuesAt key
  | .modify value oldKey newKey =>
    value ∈ s.valuesAt oldKey ∧ (newKey = oldKey ∨ value ∉ s.valuesAt newKey)

instance (s : BTreeNumericIndex T K) : (op : NumericOp T K) → Decidable (Guarded s op)
  | .add _ _ => inferInstanceAs (Decidable (_ ∉ _))
  | .remove _ _ => inferInstanceAs (Decidable (_ ∈ _))
  | .modify _ _ _ => inferInstanceAs (Decidable (_ ∧ _))

/-- Every call of the run is guarded at the state it is made in. -/
def GuardedRun : BTreeNumericIndex T K → List (NumericOp T K) → Prop
  | _, [] => True
  | s, op :: ops => Guarded s op ∧ GuardedRun (s.apply op) ops

instance decGuardedRun : (s : BTreeNumericIndex T K) → (ops : List (NumericOp T K)) →
    Decidable (GuardedRun s ops)
  | _, [] => isTrue trivial
  | s, op :: ops => @instDecidableAnd _ _ inferInstance (decGuardedRun (s.apply op) ops)

/-- The segment tree holds each key as many times as values are stored at it. -/
def SegmentCounts (s : BTreeNumericIndex T K) : Prop :=
  ∀ key, s.segmentTree.values.count key = (s.valuesAt key).card

section Counts

variable {s : BTreeNumericIndex T K}

theorem SegmentCounts.add (h : SegmentCounts s) {value : T} {key : K}
    (hv : value ∉ s.valuesAt key) : SegmentCounts (s.add value key) := by
  intro k
  rw [add_segmentTree, valuesAt_add, SegmentTree.add, Multiset.count_cons, h k]
  split_ifs with e
  · subst e; rw [Finset.card_insert_of_not_mem hv]
  · simp

theorem SegmentCounts.remove (h : SegmentCounts s) {value : T} {key : K}
    (hv : value ∈ s.valuesAt key) : SegmentCounts (s.remove value key) := by
  intro k
  rw [remove_segmentTree, valuesAt_remove, SegmentTree.remove]
  split_ifs with e
  · subst e; rw [Multiset.count_erase_self, h k, Finset.card_erase_of_mem hv]
  · rw [Multiset.count_erase_of_ne e, h k]

theorem SegmentCounts.apply (h : SegmentCounts s) {op : NumericOp T K} (hg : Guarded s op) :
    SegmentCounts (s.apply op) := by
  cases op with
  | add value key => exact h.add hg
  | remove value key => exact h.remove hg
  | modify value oldKey newKey =>
    refine (h.remove hg.1).add ?_
    rw [valuesAt_remove]
    split_ifs with e
    · exact Finset.not_mem_erase value _
    · exact hg.2.resolve_left e

/-- From a state whose counts match, `Add` keeps them exactly when the value is not yet stored
at the key, and `Remove` exactly when it is, or when nothing is stored at the key (the segment
tree then holds no occurrence to drop): neither guard can be weakened. -/
theorem SegmentCounts.add_remove_iff (h : SegmentCounts s) (value : T) (key : K) :
    (SegmentCounts (s.add value key) ↔ value ∉ s.valuesAt key) ∧
      (SegmentCounts (s.remove value key) ↔ value ∈ s.valuesAt key ∨ s.valuesAt key = ∅) := by
  refine ⟨⟨fun hc hv => ?_, h.add⟩, ⟨fun hc => ?_, ?_⟩⟩
  · have hk := hc key
    rw [add_segmentTree, valuesAt_add, if_pos rfl, Finset.insert_eq_of_mem hv, SegmentTree.add,
      Multiset.count_cons_self, h key] at hk
    omega
  · by_contra hn
    obtain ⟨hv, he⟩ := not_or.1 hn
    have hk := hc key
    rw [remove_segmentTree, valuesAt_remove, if_pos rfl, Finset.erase_eq_of_not_mem hv,
      SegmentTree.remove, Multiset.count_erase_self, h key] at hk
    have hpos : 0 < (s.valuesAt key).card :=
      Finset.card_pos.2 (Finset.nonempty_iff_ne_empty.2 he)
    omega
  · rintro (hv | he)
    · exact h.remove hv
    · have hnot : key ∉ s.segmentTree.values := by
        rw [← Multiset.count_eq_zero, h key, he, Finset.card_empty]
      intro k
      rw [remove_segmentTree, valuesAt_remove, SegmentTree.remove, Multiset.erase_of_not_mem hnot,
        h k]
      split_ifs with e
      · rw [e, he, Finset.erase_empty]
      · rfl

/-- `wAtOne` holds `w` at `1`, so `v` is absent there: adding `v` at `1` keeps the counts, and
removing it would take a `1` off the segment tree that the values' index never had. -/
theorem segmentCounts_add_remove_w_at_one :
    SegmentCounts wAtOne ∧
      (SegmentCounts (wAtOne.add "v" 1) ↔ "v" ∉ wAtOne.valuesAt 1) ∧
      (SegmentCounts (wAtOne.remove "v" 1) ↔ "v" ∈ wAtOne.valuesAt 1 ∨ wAtOne.valuesAt 1 = ∅) :=
  have h : SegmentCounts wAtOne :=
    SegmentCounts.add (fun k => by simp [valuesAt, empty]) (by decide)
  ⟨h, h.add_remove_iff "v" 1⟩

theorem SegmentCounts.run (h : SegmentCounts s) {ops : List (NumericOp T K)}
    (hg : GuardedRun s ops) : SegmentCounts (s.run ops) := by
  induction ops generalizing s with
  | nil => exact h
  | cons op ops ih => exact ih (h.apply hg.1) hg.2

theorem count_keyMultiset (s : BTreeNumericIndex T K) (k : K) :
    s.keyMultiset.count k = (s.valuesAt k).card := by
  rw [keyMultiset, Multiset.count_bind]
  simp only [Multiset.count_replicate]
  change ∑ x ∈ s.btree.keys, (if x = k then (s.valuesAt x).card else 0) = _
  rw [Finset.sum_ite_eq']
  split_ifs with hk
  · rfl
  · rw [Finmap.mem_keys, mem_btree_iff, Finset.not_nonempty_iff_eq_empty] at hk
    rw [hk, Finset.card_empty]

/-- The pointwise counts are the multiset equality. -/
theorem segmentCounts_iff : SegmentCounts s ↔ s.segmentTree.values = s.keyMultiset := by
  rw [Multiset.ext]
  simp only [count_keyMultiset, SegmentCounts]

/-- Where the counts match, `GetCount` counts the `(value, key)` entries in the range. -/
theorem SegmentCounts.getCount (h : SegmentCounts s) (lo hi : K) (loInclusive hiInclusive : Bool) :
    s.getCount lo hi loInclusive hiInclusive = s.entriesInRange lo hi loInclusive hiInclusive := by
  have keys : s.segmentTree.values.toFinset = s.btree.keys := Finset.ext fun k => by
    rw [Multiset.mem_toFinset, Finmap.mem_keys, mem_btree_iff, ← Multiset.count_pos, h k,
      Finset.card_pos]
  unfold BTreeNumericIndex.getCount SegmentTree.count
  rw [← Multiset.toFinset_sum_count_eq, Multiset.toFinset_filter, keys, entriesInRange]
  refine Finset.sum_congr rfl fun k hk => ?_
  rw [Multiset.count_filter_of_pos, h k]
  exact (Finset.mem_filter.1 hk).2

end Counts

/-- Along any run from a new index in which every call keeps the callers' discipline, no key
of `btree_` maps to an empty set, the segment tree holds each key `|btree_[key]|` times, and
`GetCount` is the number of `(value, key)` entries in the range. -/
theorem counts_of_guarded_run (ops : List (NumericOp T K)) (h : GuardedRun empty ops) :
    SetsNonempty (empty.run ops).btree ∧
      (empty.run ops).segmentTree.values = (empty.run ops).keyMultiset ∧
      ∀ lo hi loInclusive hiInclusive, (empty.run ops).getCount lo hi loInclusive hiInclusive =
        (empty.run ops).entriesInRange lo hi loInclusive hiInclusive := by
  have hc : SegmentCounts (empty.run ops) :=
    SegmentCounts.run (fun k => by simp [valuesAt, empty]) h
  exact ⟨(empty.run ops).btree_nonempty, segmentCounts_iff.1 hc, hc.getCount⟩

/-- Add `a` and `b` at 1, move `a` to 2, remove `b`. -/
def moveOneOfTwo : List (NumericOp String Nat) :=
  [.add "a" 1, .add "b" 1, .modify "a" 1 2, .remove "b" 1]

theorem counts_of_guarded_run_move :
    GuardedRun empty moveOneOfTwo ∧
      SetsNonempty (empty.run moveOneOfTwo).btree ∧
      (empty.run moveOneOfTwo).segmentTree.values = (empty.run moveOneOfTwo).keyMultiset ∧
      ∀ lo hi loInclusive hiInclusive,
        (empty.run moveOneOfTwo).getCount lo hi loInclusive hiInclusive =
          (empty.run moveOneOfTwo).entriesInRange lo hi loInclusive hiInclusive :=
  ⟨by decide, counts_of_guarded_run _ (by decide)⟩

/-- `Modify(v, x, y)` with `v` already stored at `y`: every call meets the weaker guard (add
only where absent, remove or move only from where present), yet the segment tree then holds
key 2 twice while one value is stored there. -/
theorem modify_onto_stored_key_overcounts :
    "v" ∉ (empty : BTreeNumericIndex String Nat).valuesAt 1 ∧
      "v" ∉ ((empty : BTreeNumericIndex String Nat).add "v" 1).valuesAt 2 ∧
      "v" ∈ (((empty : BTreeNumericIndex String Nat).add "v" 1).add "v" 2).valuesAt 1 ∧
      ((((empty : BTreeNumericIndex String Nat).add "v" 1).add "v" 2).modify "v" 1 2).getCount
        2 2 true true = 2 ∧
      ((((empty : BTreeNumericIndex String Nat).add "v" 1).add "v" 2).modify "v" 1 2).entriesInRange
        2 2 true true = 1 := by
  decide

end BTreeNumericIndex

end ValkeySearch
