import ValkeySearch.Indexes.Search

/-
  The reply of `FT.SEARCH` (src/commands/ft_search.cc): `SendReply`, which windows the
  neighbors by `LIMIT first number` and writes them with or without their attributes.

  Model. A reply is what the code writes through the module API, as a tree: each array
  carries the length the code declared for it and the elements it then wrote. A read of
  `neighbors[i]` past the end, `attribute_contents.value()` on an empty optional and a failed
  `CHECK_GT` give `none`. `GetIdentifier`, `ProcessNeighborsForReply` (src/query, not in the
  sources) and the `%.12g` formatting of a distance are parameters.

  Proved:
  * `replyRows_eq`, `replyRows_eq_none`: the row loop from `start_index` to `end_index` reads
    exactly the window `neighbors[start_index, end_index)`, and fails when the window runs
    past the end.
  * `sendReply_wellFormed`: every reply `SendReply` writes, in both modes, has as many
    elements in each array as it declared; `sendReply_isSome`: it writes one whenever its rows
    stay within the neighbors and, with contents, each has its attributes.
    `asyncReply_wellFormed`: both, for the reply of a blocked `FT.SEARCH`.
  * `sendReplyNoContent_eq`: when the window fits, the rows are the keys of
    `neighbors[first_index, first_index + min(k, number, n))` after the count `min(n, k)`.
  * `sendReply_no_content_reads_past_end`: with two neighbors, `k = 10` and `LIMIT 1 10`,
    `end_index` is 3 and `SendReplyNoContent` reads `neighbors[2]`.
-/

namespace ValkeySearch

/-- A reply as the code writes it: an array carries the length declared for it
(`RedisModule_ReplyWithArray`, or `RedisModule_ReplySetArrayLength` for a postponed one) and
the elements then written. -/
inductive Resp
  | array (declared : Nat) (elems : List Resp)
  | longLong (n : Nat)
  | string (s : String)
  | error (msg : String)

/-- Every array of a reply holds as many elements as it declared. -/
inductive Resp.WellFormed : Resp → Prop
  | array {declared : Nat} {elems : List Resp} (hlen : declared = elems.length)
      (helems : ∀ e ∈ elems, e.WellFormed) : (Resp.array declared elems).WellFormed
  | longLong (n : Nat) : (Resp.longLong n).WellFormed
  | string (s : String) : (Resp.string s).WellFormed
  | error (msg : String) : (Resp.error msg).WellFormed

@[simp] theorem Resp.wellFormed_string (s : String) : (Resp.string s).WellFormed := .string s

@[simp] theorem Resp.wellFormed_longLong (n : Nat) : (Resp.longLong n).WellFormed := .longLong n

@[simp] theorem Resp.wellFormed_array {declared : Nat} {elems : List Resp} :
    (Resp.array declared elems).WellFormed ↔
      declared = elems.length ∧ ∀ e ∈ elems, e.WellFormed :=
  ⟨fun h => by cases h with | array hlen helems => exact ⟨hlen, helems⟩, fun h => .array h.1 h.2⟩

/-- `LIMIT first number`. -/
structure Limit where
  firstIndex : Nat
  number : Nat

/-- An entry of `RETURN`: an attribute's identifier and the alias it is returned under
(`alias`). -/
structure ReturnAttribute where
  identifier : String
  aliasName : String

/-- The fields of `query::VectorSearchParameters` that `SendReply` reads. -/
structure VectorSearchParameters where
  k : Nat
  limit : Limit
  noContent : Bool
  returnAttributes : List ReturnAttribute
  scoreAs : String
  attributeAlias : String

section Reply

variable {D : Type}

/-- `ReplyAvailNeighbors`. -/
def replyAvailNeighbors (neighbors : List (Neighbor D)) (p : VectorSearchParameters) : Resp :=
  .longLong (min neighbors.length p.k)

/-- `CalcEndIndex`: a number of rows, which its callers add to the start. -/
def calcEndIndex (neighbors : List (Neighbor D)) (p : VectorSearchParameters) : Nat :=
  min p.k (min p.limit.number neighbors.length)

/-- `CalcStartIndex`; `none` where its `CHECK_GT(k, first_index)` aborts. -/
def calcStartIndex (neighbors : List (Neighbor D)) (p : VectorSearchParameters) : Option Nat :=
  if p.limit.firstIndex < p.k then
    some (if neighbors.length ≤ p.limit.firstIndex then neighbors.length else p.limit.firstIndex)
  else none

/-- The loop `for (i = start_index; i < end_index; ++i)` of both reply writers, each turn
writing `row neighbors[i]`; `none` where it reads past the end or `row` fails. -/
def replyRows {α : Type} (neighbors : List (Neighbor D)) (startIndex endIndex : Nat)
    (row : Neighbor D → Option α) : Option (List α) :=
  (List.range' startIndex (endIndex - startIndex)).mapM fun i => neighbors[i]?.bind row

/-- `SendReplyNoContent`. -/
def sendReplyNoContent (neighbors : List (Neighbor D)) (p : VectorSearchParameters) :
    Option Resp := do
  let startIndex ← calcStartIndex neighbors p
  let endIndex := startIndex + calcEndIndex neighbors p
  let rows ← replyRows neighbors startIndex endIndex fun n => some (Resp.string n.externalId)
  pure (.array (endIndex - startIndex + 1) (replyAvailNeighbors neighbors p :: rows))

/-- `ReplyScore`: `score_as`, then the distance as `%.12g` (`formatScore`). -/
def replyScore (formatScore : D → String) (scoreAs : String) (n : Neighbor D) : List Resp :=
  [.string scoreAs, .string (formatScore n.distance)]

/-- The loop over `return_attributes` in `SerializeNeighbors`: what it writes, and its count
`cnt` of attributes written; `none` where it calls `attribute_contents.value()` on an empty
optional, which it does for each attribute other than `score_as`. -/
def replyReturnAttributes (formatScore : D → String) (scoreAs : String) (n : Neighbor D) :
    List ReturnAttribute → Option (List Resp × Nat)
  | [] => some ([], 0)
  | ra :: rest => do
    let (items, cnt) ← replyReturnAttributes formatScore scoreAs n rest
    if scoreAs = ra.identifier then pure (replyScore formatScore scoreAs n ++ items, cnt + 1)
    else
      let contents ← n.attributeContents
      match contents.lookup ra.identifier with
      | some v => pure (.string ra.aliasName :: .string v.value :: items, cnt + 1)
      | none => pure (items, cnt)

/-- The row `SerializeNeighbors` writes for one neighbor: its key, then the array of its
fields; `none` where it calls `attribute_contents.value()` on an empty optional. -/
def serializeNeighbor (formatScore : D → String) (p : VectorSearchParameters) (n : Neighbor D) :
    Option (List Resp) :=
  if p.returnAttributes.isEmpty then do
    let contents ← n.attributeContents
    pure [.string n.externalId, .array (2 * contents.length + 2)
      (replyScore formatScore p.scoreAs n ++
        contents.flatMap fun c => [.string c.2.identifier, .string c.2.value])]
  else do
    let (items, cnt) ← replyReturnAttributes formatScore p.scoreAs n p.returnAttributes
    pure [.string n.externalId, .array (2 * cnt) items]

/-- `SerializeNeighbors`. -/
def serializeNeighbors (formatScore : D → String) (neighbors : List (Neighbor D))
    (p : VectorSearchParameters) : Option Resp :=
  if p.limit.firstIndex < p.k then do
    let startIndex ← calcStartIndex neighbors p
    let endIndex := startIndex + calcEndIndex neighbors p
    let rows ← replyRows neighbors startIndex endIndex (serializeNeighbor formatScore p)
    pure (.array (2 * (endIndex - startIndex) + 1) (replyAvailNeighbors neighbors p :: rows.flatten))
  else none

/-- `SendReply`, with the schema's `GetIdentifier`, `ProcessNeighborsForReply` (which fills in
`attribute_contents`) and the score formatting as parameters. -/
def sendReply (formatScore : D → String) (getIdentifier : String → Except String String)
    (processNeighborsForReply : String → List (Neighbor D) → List (Neighbor D))
    (neighbors : List (Neighbor D)) (p : VectorSearchParameters) : Option Resp :=
  if p.k ≤ p.limit.firstIndex ∨ p.limit.number = 0 then
    some (.array 1 [.longLong neighbors.length])
  else if p.noContent then sendReplyNoContent neighbors p
  else
    match getIdentifier p.attributeAlias with
    | .error e => some (.error e)
    | .ok identifier =>
      serializeNeighbors formatScore (processNeighborsForReply identifier neighbors) p

/-! ## The row loop -/

theorem mapM_length_of_eq_some {α β : Type} {f : α → Option β} :
    ∀ {l : List α} {r : List β}, l.mapM f = some r → r.length = l.length
  | [], r, h => by cases h; rfl
  | a :: l, r, h => by
    simp only [List.mapM_cons, Option.bind_eq_bind, Option.bind_eq_some] at h
    obtain ⟨b, -, bs, hbs, h⟩ := h
    cases h
    simp [mapM_length_of_eq_some hbs]

theorem mem_of_mapM_eq_some {α β : Type} {f : α → Option β} :
    ∀ {l : List α} {r : List β}, l.mapM f = some r → ∀ b ∈ r, ∃ a ∈ l, f a = some b
  | [], r, h, b, hb => by cases h; cases hb
  | a :: l, r, h, b, hb => by
    simp only [List.mapM_cons, Option.bind_eq_bind, Option.bind_eq_some] at h
    obtain ⟨b₀, hb₀, bs, hbs, h⟩ := h
    cases h
    rcases List.mem_cons.1 hb with rfl | hb
    · exact ⟨a, List.mem_cons_self _ _, hb₀⟩
    · obtain ⟨a', ha', hfa⟩ := mem_of_mapM_eq_some hbs b hb
      exact ⟨a', List.mem_cons_of_mem _ ha', hfa⟩

theorem mapM_some_eq_map {α β : Type} (f : α → β) :
    ∀ l : List α, l.mapM (fun a => some (f a)) = some (l.map f)
  | [] => rfl
  | a :: l => by rw [List.mapM_cons, mapM_some_eq_map f l]; rfl

/-- A loop whose window fits in `neighbors` reads exactly the window. -/
theorem replyRows_eq {α : Type} (neighbors : List (Neighbor D)) (row : Neighbor D → Option α)
    {startIndex endIndex : Nat} (hs : startIndex ≤ endIndex) (h : endIndex ≤ neighbors.length) :
    replyRows neighbors startIndex endIndex row =
      ((neighbors.drop startIndex).take (endIndex - startIndex)).mapM row := by
  unfold replyRows
  generalize hm : endIndex - startIndex = m
  have hsm : startIndex + m ≤ neighbors.length := by omega
  clear hm h hs
  induction m generalizing startIndex with
  | zero => rfl
  | succ m ih =>
    have hs : startIndex < neighbors.length := by omega
    rw [List.range'_succ, List.drop_eq_getElem_cons hs, List.take_succ_cons, List.mapM_cons,
      List.mapM_cons, List.getElem?_eq_getElem hs, Option.some_bind, ih (by omega)]

/-- A loop whose window runs past the end of `neighbors` fails. -/
theorem replyRows_eq_none {α : Type} (neighbors : List (Neighbor D)) (row : Neighbor D → Option α)
    {startIndex endIndex : Nat} (hs : startIndex < endIndex) (h : neighbors.length < endIndex) :
    replyRows neighbors startIndex endIndex row = none := by
  unfold replyRows
  generalize hm : endIndex - startIndex = m
  have hsm : neighbors.length < startIndex + m := by omega
  have hm0 : 0 < m := by omega
  clear hm h hs
  induction m generalizing startIndex with
  | zero => omega
  | succ m ih =>
    rw [List.range'_succ, List.mapM_cons]
    by_cases hi : startIndex < neighbors.length
    · rcases Nat.eq_zero_or_pos m with rfl | hm
      · omega
      · rw [ih (by omega) hm]
        cases neighbors[startIndex]?.bind row <;> rfl
    · rw [List.getElem?_eq_none (by omega)]
      rfl

/-! ## Well-formed replies -/

theorem replyReturnAttributes_wellFormed {formatScore : D → String} {scoreAs : String}
    {n : Neighbor D} : ∀ {ras : List ReturnAttribute} {items : List Resp} {cnt : Nat},
      replyReturnAttributes formatScore scoreAs n ras = some (items, cnt) →
      items.length = 2 * cnt ∧ ∀ e ∈ items, e.WellFormed
  | [], _, _, h => by
    cases h
    exact ⟨rfl, fun _ h => nomatch h⟩
  | ra :: rest, items, cnt, h => by
    obtain ⟨⟨items', cnt'⟩, h', h⟩ := Option.bind_eq_some.1 h
    obtain ⟨hlen, hwf⟩ := replyReturnAttributes_wellFormed h'
    dsimp only at h
    split_ifs at h
    · cases h
      exact ⟨by simp [replyScore, hlen]; omega, by simpa [replyScore] using hwf⟩
    · obtain ⟨contents, -, h⟩ := Option.bind_eq_some.1 h
      split at h <;> cases h
      · exact ⟨by simp [hlen]; omega, by simpa using hwf⟩
      · exact ⟨hlen, hwf⟩

theorem flatMap_pair_wellFormed {α : Type} (f g : α → String) (l : List α) :
    (l.flatMap fun c => [Resp.string (f c), .string (g c)]).length = 2 * l.length ∧
      ∀ e ∈ l.flatMap (fun c => [Resp.string (f c), .string (g c)]), e.WellFormed := by
  refine ⟨?_, fun e he => ?_⟩
  · induction l with
    | nil => rfl
    | cons c l ih => simp [ih]; omega
  · obtain ⟨c, -, he⟩ := List.mem_flatMap.1 he
    simp only [List.mem_cons, List.mem_singleton, List.not_mem_nil, or_false] at he
    rcases he with rfl | rfl <;> exact .string _

/-- Every row `SerializeNeighbors` writes is two well-formed elements. -/
theorem serializeNeighbor_wellFormed {formatScore : D → String} {p : VectorSearchParameters}
    {n : Neighbor D} {row : List Resp} (h : serializeNeighbor formatScore p n = some row) :
    row.length = 2 ∧ ∀ e ∈ row, e.WellFormed := by
  unfold serializeNeighbor at h
  split_ifs at h
  · obtain ⟨contents, -, h⟩ := Option.bind_eq_some.1 h
    obtain ⟨hlen, hwf⟩ := flatMap_pair_wellFormed (fun c => c.2.identifier) (fun c => c.2.value)
      contents
    cases h
    simpa [replyScore, hlen] using hwf
  · obtain ⟨⟨items, cnt⟩, hra, h⟩ := Option.bind_eq_some.1 h
    obtain ⟨hlen, hwf⟩ := replyReturnAttributes_wellFormed hra
    cases h
    simpa [hlen] using hwf

theorem sendReplyNoContent_wellFormed {neighbors : List (Neighbor D)} {p : VectorSearchParameters}
    {r : Resp} (h : sendReplyNoContent neighbors p = some r) : r.WellFormed := by
  obtain ⟨startIndex, -, h⟩ := Option.bind_eq_some.1 h
  obtain ⟨rows, hrows, h⟩ := Option.bind_eq_some.1 h
  cases h
  refine .array (by simp [mapM_length_of_eq_some hrows]) fun e he => ?_
  rcases List.mem_cons.1 he with rfl | he
  · exact .longLong _
  · obtain ⟨i, -, hi⟩ := mem_of_mapM_eq_some hrows e he
    obtain ⟨n, -, hn⟩ := Option.bind_eq_some.1 hi
    cases hn
    exact .string _

theorem serializeNeighbors_wellFormed {formatScore : D → String} {neighbors : List (Neighbor D)}
    {p : VectorSearchParameters} {r : Resp} (h : serializeNeighbors formatScore neighbors p = some r) :
    r.WellFormed := by
  unfold serializeNeighbors at h
  split_ifs at h
  obtain ⟨startIndex, -, h⟩ := Option.bind_eq_some.1 h
  obtain ⟨rows, hrows, h⟩ := Option.bind_eq_some.1 h
  cases h
  have hrow : ∀ row ∈ rows, row.length = 2 ∧ ∀ e ∈ row, e.WellFormed := fun row hr => by
    obtain ⟨i, -, hi⟩ := mem_of_mapM_eq_some hrows row hr
    obtain ⟨n, -, hn⟩ := Option.bind_eq_some.1 hi
    exact serializeNeighbor_wellFormed hn
  refine .array ?_ fun e he => ?_
  · have : (rows.map List.length).sum = 2 * rows.length := by
      rw [List.map_congr_left fun row hr => (hrow row hr).1]
      simp [mul_comm]
    simp [this, mapM_length_of_eq_some hrows]
  · rcases List.mem_cons.1 he with rfl | he
    · exact .longLong _
    · obtain ⟨row, hr, he⟩ := List.mem_flatten.1 he
      exact (hrow row hr).2 e he

/-- Every reply `SendReply` writes, with or without `NOCONTENT`, declares each array's length
right. -/
theorem sendReply_wellFormed {formatScore : D → String}
    {getIdentifier : String → Except String String}
    {processNeighborsForReply : String → List (Neighbor D) → List (Neighbor D)}
    {neighbors : List (Neighbor D)} {p : VectorSearchParameters} {r : Resp}
    (h : sendReply formatScore getIdentifier processNeighborsForReply neighbors p = some r) :
    r.WellFormed := by
  unfold sendReply at h
  split_ifs at h
  · cases h
    exact .array rfl fun e he => by rw [List.mem_singleton.1 he]; exact .longLong _
  · exact sendReplyNoContent_wellFormed h
  · split at h
    · cases h
      exact .error _
    · exact serializeNeighbors_wellFormed h

/-! ## When a reply is written -/

/-- The rows `SendReply` writes stay within `neighbors`: `start_index + CalcEndIndex ≤ n`. -/
def WindowFits (neighbors : List (Neighbor D)) (p : VectorSearchParameters) : Prop :=
  ∀ s, calcStartIndex neighbors p = some s → s + calcEndIndex neighbors p ≤ neighbors.length

theorem mapM_isSome {α β : Type} {f : α → Option β} :
    ∀ {l : List α}, (∀ a ∈ l, ∃ b, f a = some b) → ∃ r, l.mapM f = some r
  | [], _ => ⟨[], rfl⟩
  | a :: l, h => by
    obtain ⟨b, hb⟩ := h a (List.mem_cons_self _ _)
    obtain ⟨r, hr⟩ := mapM_isSome fun a' ha' => h a' (List.mem_cons_of_mem _ ha')
    exact ⟨b :: r, by simp only [List.mapM_cons, hb, hr]; rfl⟩

/-- A loop whose window fits and whose every row can be written returns. -/
theorem replyRows_isSome {α : Type} {neighbors : List (Neighbor D)} {row : Neighbor D → Option α}
    {startIndex endIndex : Nat} (hs : startIndex ≤ endIndex) (h : endIndex ≤ neighbors.length)
    (hrow : ∀ n ∈ neighbors, ∃ a, row n = some a) :
    ∃ rows, replyRows neighbors startIndex endIndex row = some rows := by
  rw [replyRows_eq neighbors row hs h]
  exact mapM_isSome fun n hn => hrow n (List.mem_of_mem_drop (List.mem_of_mem_take hn))

theorem replyReturnAttributes_isSome (formatScore : D → String) (scoreAs : String)
    {n : Neighbor D} (hc : n.attributeContents.isSome) :
    ∀ ras : List ReturnAttribute, ∃ r, replyReturnAttributes formatScore scoreAs n ras = some r
  | [] => ⟨_, rfl⟩
  | ra :: rest => by
    obtain ⟨contents, hcs⟩ := Option.isSome_iff_exists.1 hc
    obtain ⟨⟨items, cnt⟩, hr⟩ := replyReturnAttributes_isSome formatScore scoreAs hc rest
    simp only [replyReturnAttributes, hr, hcs, Option.bind_eq_bind, Option.some_bind]
    split_ifs
    · exact ⟨_, rfl⟩
    · split <;> exact ⟨_, rfl⟩

/-- A neighbor whose attributes were fetched can always be written. -/
theorem serializeNeighbor_isSome (formatScore : D → String) (p : VectorSearchParameters)
    {n : Neighbor D} (hc : n.attributeContents.isSome) :
    ∃ row, serializeNeighbor formatScore p n = some row := by
  obtain ⟨contents, hcs⟩ := Option.isSome_iff_exists.1 hc
  obtain ⟨⟨items, cnt⟩, hr⟩ := replyReturnAttributes_isSome formatScore p.scoreAs hc
    p.returnAttributes
  unfold serializeNeighbor
  split_ifs
  · exact ⟨_, by rw [hcs]; rfl⟩
  · exact ⟨_, by rw [hr]; rfl⟩

/-- `SendReply` writes a reply whenever the rows it writes stay within the neighbors it writes
them from and, with contents, every one of those neighbors has its attributes. -/
theorem sendReply_isSome {formatScore : D → String}
    {getIdentifier : String → Except String String}
    {processNeighborsForReply : String → List (Neighbor D) → List (Neighbor D)}
    {neighbors : List (Neighbor D)} {p : VectorSearchParameters}
    (hfit : p.noContent = true → WindowFits neighbors p)
    (hcontent : p.noContent = false → ∀ id, getIdentifier p.attributeAlias = .ok id →
      WindowFits (processNeighborsForReply id neighbors) p ∧
      ∀ n ∈ processNeighborsForReply id neighbors, n.attributeContents.isSome) :
    ∃ r, sendReply formatScore getIdentifier processNeighborsForReply neighbors p = some r := by
  unfold sendReply
  by_cases hearly : p.k ≤ p.limit.firstIndex ∨ p.limit.number = 0
  · exact ⟨_, if_pos hearly⟩
  have hk : p.limit.firstIndex < p.k := by omega
  have hstart (ns : List (Neighbor D)) : ∃ s, calcStartIndex ns p = some s := ⟨_, if_pos hk⟩
  rw [if_neg hearly]
  split_ifs with hnc
  · obtain ⟨s, hs⟩ := hstart neighbors
    obtain ⟨rows, hrows⟩ : ∃ rows, replyRows neighbors s (s + calcEndIndex neighbors p)
        (fun n => some (Resp.string n.externalId)) = some rows :=
      replyRows_isSome (Nat.le_add_right _ _) (hfit hnc s hs) fun n _ => ⟨_, rfl⟩
    exact ⟨_, by simp only [sendReplyNoContent, hs, hrows, Option.bind_eq_bind, Option.some_bind]; rfl⟩
  · cases hid : getIdentifier p.attributeAlias with
    | error e => exact ⟨_, rfl⟩
    | ok id =>
      obtain ⟨hw, hc⟩ := hcontent (by simpa using hnc) id hid
      obtain ⟨s, hs⟩ := hstart (processNeighborsForReply id neighbors)
      obtain ⟨rows, hrows⟩ := replyRows_isSome (Nat.le_add_right s _) (hw s hs)
        fun n hn => serializeNeighbor_isSome formatScore p (hc n hn)
      exact ⟨_, by
        simp only [serializeNeighbors, if_pos hk, hs, hrows, Option.bind_eq_bind,
          Option.some_bind]; rfl⟩

/-- Two neighbors, `KNN 10`, `NOCONTENT` and `LIMIT 1 10`. -/
def twoNeighbors : List (Neighbor Nat) := [⟨"a", 1, none⟩, ⟨"b", 2, none⟩]

/-- `KNN 10 … NOCONTENT LIMIT 1 10`. -/
def noContentLimitOneTen : VectorSearchParameters :=
  ⟨10, ⟨1, 10⟩, true, [], "score", "vec"⟩

theorem sendReply_no_content_reads_past_end :
    calcStartIndex twoNeighbors noContentLimitOneTen = some 1 ∧
      calcEndIndex twoNeighbors noContentLimitOneTen = 2 ∧
      sendReply toString (fun _ => .ok "vec") (fun _ ns => ns) twoNeighbors noContentLimitOneTen =
        none :=
  ⟨rfl, rfl, rfl⟩

/-- When the window fits, `SendReplyNoContent` writes the count `min(n, k)` and the keys of
`neighbors[first_index, first_index + min(k, number, n))`. -/
theorem sendReplyNoContent_eq (neighbors : List (Neighbor D)) (p : VectorSearchParameters)
    (hk : p.limit.firstIndex < p.k)
    (hfit : p.limit.firstIndex + calcEndIndex neighbors p ≤ neighbors.length) :
    sendReplyNoContent neighbors p =
      some (.array (calcEndIndex neighbors p + 1) (.longLong (min neighbors.length p.k) ::
        ((neighbors.drop p.limit.firstIndex).take (calcEndIndex neighbors p)).map
          fun n => .string n.externalId)) := by
  have hs : calcStartIndex neighbors p = some p.limit.firstIndex := by
    unfold calcStartIndex calcEndIndex at *
    rw [if_pos hk]
    congr 1
    split_ifs <;> omega
  have hrows := replyRows_eq neighbors (fun n => some (Resp.string n.externalId))
    (Nat.le_add_right _ _) hfit
  simp only [sendReplyNoContent, hs, Option.bind_eq_bind, Option.some_bind, hrows,
    mapM_some_eq_map, Nat.add_sub_cancel_left, replyAvailNeighbors]
  rfl

/-- `KNN 10 … NOCONTENT LIMIT 0 10`. -/
def noContentFirstTen : VectorSearchParameters :=
  ⟨10, ⟨0, 10⟩, true, [], "score", "vec"⟩

theorem sendReplyNoContent_eq_fits :
    noContentFirstTen.limit.firstIndex < noContentFirstTen.k ∧
      noContentFirstTen.limit.firstIndex + calcEndIndex twoNeighbors noContentFirstTen ≤
        twoNeighbors.length ∧
      sendReplyNoContent twoNeighbors noContentFirstTen =
        some (.array (calcEndIndex twoNeighbors noContentFirstTen + 1)
          (.longLong (min twoNeighbors.length noContentFirstTen.k) ::
            ((twoNeighbors.drop noContentFirstTen.limit.firstIndex).take
              (calcEndIndex twoNeighbors noContentFirstTen)).map fun n => .string n.externalId)) :=
  ⟨by decide, by decide, sendReplyNoContent_eq _ _ (by decide) (by decide)⟩

/-- `async::Reply`: the search's error, or `SendReply` on the neighbors it found. -/
def asyncReply (formatScore : D → String) (getIdentifier : String → Except String String)
    (processNeighborsForReply : String → List (Neighbor D) → List (Neighbor D))
    (neighbors : Except String (List (Neighbor D))) (p : VectorSearchParameters) : Option Resp :=
  match neighbors with
  | .error e => some (.error e)
  | .ok neighbors => sendReply formatScore getIdentifier processNeighborsForReply neighbors p

/-- `async::Timeout`. -/
def asyncTimeout : Resp := .string "Request timed out"

/-- The reply of a blocked `FT.SEARCH`: whenever it is written, that is, unless `SendReply`
reads past the end of the neighbors or an empty `attribute_contents`, it has as many elements
in each array as it declared; and it is written whenever the search failed or the rows stay
within the neighbors and, with contents, every one of those neighbors has its attributes. -/
theorem asyncReply_wellFormed (formatScore : D → String)
    (getIdentifier : String → Except String String)
    (processNeighborsForReply : String → List (Neighbor D) → List (Neighbor D))
    (neighbors : Except String (List (Neighbor D))) (p : VectorSearchParameters) :
    (∀ r, asyncReply formatScore getIdentifier processNeighborsForReply neighbors p = some r →
      r.WellFormed) ∧
    ((∀ ns, neighbors = .ok ns → (p.noContent = true → WindowFits ns p) ∧
        (p.noContent = false → ∀ id, getIdentifier p.attributeAlias = .ok id →
          WindowFits (processNeighborsForReply id ns) p ∧
          ∀ n ∈ processNeighborsForReply id ns, n.attributeContents.isSome)) →
      ∃ r, asyncReply formatScore getIdentifier processNeighborsForReply neighbors p = some r) := by
  cases neighbors with
  | error e =>
    refine ⟨fun r h => ?_, fun _ => ⟨_, rfl⟩⟩
    cases h
    exact .error e
  | ok ns =>
    exact ⟨fun r h => sendReply_wellFormed h, fun h =>
      sendReply_isSome (h ns rfl).1 (h ns rfl).2⟩

theorem asyncReply_wellFormed_no_content :
    asyncReply toString (fun _ => .ok "vec") (fun _ ns => ns) (.ok twoNeighbors)
        noContentFirstTen = some (.array 3 [.longLong 2, .string "a", .string "b"]) ∧
      (Resp.array 3 [.longLong 2, .string "a", .string "b"]).WellFormed :=
  have h : asyncReply toString (fun _ => .ok "vec") (fun _ ns => ns) (.ok twoNeighbors)
      noContentFirstTen = some (.array 3 [.longLong 2, .string "a", .string "b"]) := rfl
  ⟨h, (asyncReply_wellFormed toString (fun _ => .ok "vec") (fun _ ns => ns) (.ok twoNeighbors)
    noContentFirstTen).1 _ h⟩

end Reply

end ValkeySearch
