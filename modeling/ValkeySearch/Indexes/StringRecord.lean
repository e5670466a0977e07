import Mathlib.Data.List.Forall2
import ValkeySearch.Indexes.VectorBase

/-
  Vectors given as text (src/indexes/vector_base.cc): `TrimBrackets` takes the brackets off
  `[1, 2, 3]`, and `NormalizeStringRecord` splits what is left at the commas, skips the pieces
  that are only whitespace, and appends the four bytes of the float `SimpleAtof` reads from
  each piece, returning `nullptr` when a piece is not a float.

  Model. A `string_view` is its list of characters. `SimpleAtof` with the copy of the float's
  bytes is a parameter that gives four bytes or nothing; `nullptr` is `none`. The
  `CHECK_EQ(GetDataTypeSize(), sizeof(float))` holds: every index here is `float32`.

  Proved:
  * `trimBrackets_head`: what `TrimBrackets` returns never starts with `[`, so it is a fixed
    point (`trimBrackets_idem`), and one pair of enclosing brackets is taken off
    (`trimBrackets_wrap`).
  * `floatStrings_bracketed`: round trip, `[t₁,…,tₙ]` is split back into `t₁, …, tₙ`.
  * `normalizeStringRecord_eq_some`: the record is built exactly when every piece is a
    float, and it is their bytes in order; so it is a vector of the right size for an index
    of `d` dimensions exactly when there are `d` pieces
    (`normalizeStringRecord_isValidSizeVector`).
-/

namespace ValkeySearch

/-! ## `TrimBrackets` -/

/-- `TrimBrackets`: while the input starts with `[`, consume it, and then a `]` that ends
what is left, when there is one. -/
def trimBrackets : List Char → List Char
  | '[' :: rest => trimBrackets (if rest.getLast? = some ']' then rest.dropLast else rest)
  | input => input
termination_by input => input.length
decreasing_by
  split <;> simp only [List.length_dropLast, List.length_cons] <;> omega

theorem trimBrackets_bracket (rest : List Char) :
    trimBrackets ('[' :: rest) =
      trimBrackets (if rest.getLast? = some ']' then rest.dropLast else rest) := by
  rw [trimBrackets]

theorem trimBrackets_of_head {input : List Char} (h : input.head? ≠ some '[') :
    trimBrackets input = input :=
  trimBrackets.eq_2 input fun rest e => h (by rw [e]; rfl)

theorem trimBrackets_head (input : List Char) : (trimBrackets input).head? ≠ some '[' := by
  induction input using trimBrackets.induct with
  | case1 rest ih =>
    rw [trimBrackets_bracket]
    simpa only [dite_eq_ite] using ih
  | case2 input hne =>
    rw [trimBrackets.eq_2 input hne]
    exact fun h => hne _ (List.eq_cons_of_mem_head? h)

theorem trimBrackets_idem (input : List Char) :
    trimBrackets (trimBrackets input) = trimBrackets input :=
  trimBrackets_of_head (trimBrackets_head input)

/-- One pair of enclosing brackets is taken off. -/
theorem trimBrackets_wrap (body : List Char) :
    trimBrackets ('[' :: (body ++ [']'])) = trimBrackets body := by
  rw [trimBrackets_bracket, List.getLast?_concat, if_pos rfl, List.dropLast_concat]

/-! ## `NormalizeStringRecord` -/

/-- `absl::ascii_isspace`. -/
def asciiIsspace (c : Char) : Bool :=
  c = ' ' || c = '\t' || c = '\n' || c = '\x0b' || c = '\x0c' || c = '\r'

/-- `absl::StrSplit(TrimBrackets(input), ',', absl::SkipWhitespace())`: the pieces between
the commas, without those that are empty or only whitespace. -/
def floatStrings (input : List Char) : List (List Char) :=
  ((trimBrackets input).splitOn ',').filter fun piece => !piece.all asciiIsspace

/-- Round trip: a vector written as `[t₁,…,tₙ]`, with pieces that hold no comma and are not
only whitespace, and that does not start `[[`, is split back into `t₁, …, tₙ`. -/
theorem floatStrings_bracketed {texts : List (List Char)} (hne : texts ≠ [])
    (hcomma : ∀ t ∈ texts, ',' ∉ t) (hspace : ∀ t ∈ texts, t.all asciiIsspace = false)
    (hhead : ([','].intercalate texts).head? ≠ some '[') :
    floatStrings ('[' :: ([','].intercalate texts ++ [']'])) = texts := by
  rw [floatStrings, trimBrackets_wrap, trimBrackets_of_head hhead,
    List.splitOn_intercalate _ _ hcomma hne]
  exact List.filter_eq_self.2 fun t ht => by rw [hspace t ht]; rfl

theorem floatStrings_bracketed_two :
    [['1'], [' ', '2']] ≠ [] ∧ (∀ t ∈ [['1'], [' ', '2']], ',' ∉ t) ∧
      (∀ t ∈ [['1'], [' ', '2']], t.all asciiIsspace = false) ∧
      ([','].intercalate [['1'], [' ', '2']]).head? ≠ some '[' ∧
      floatStrings ('[' :: ([','].intercalate [['1'], [' ', '2']] ++ [']'])) =
        [['1'], [' ', '2']] :=
  ⟨by decide, by decide, by decide, by decide,
    floatStrings_bracketed (by decide) (by decide) (by decide) (by decide)⟩

section Normalize

variable (simpleAtof : List Char → Option { b : List UInt8 // b.length = 4 })

/-- One turn of the loop of `NormalizeStringRecord`: the bytes of the float read from the
piece appended, or `nullptr` when it is not a float. -/
def appendFloat (binaryString : List UInt8) (floatStr : List Char) : Option (List UInt8) :=
  (simpleAtof floatStr).map fun value => binaryString ++ value.1

/-- `VectorBase::NormalizeStringRecord`. -/
def normalizeStringRecord (input : List Char) : Option (List UInt8) :=
  (floatStrings input).foldlM (appendFloat simpleAtof) []

variable {simpleAtof}

/-- The loop ends with the bytes of one float for each piece, in order, or stops at the
first piece that is not a float. -/
theorem foldlM_appendFloat_eq_some {pieces : List (List Char)} {acc out : List UInt8} :
    pieces.foldlM (appendFloat simpleAtof) acc = some out ↔
      ∃ floats, pieces.Forall₂ (fun p v => simpleAtof p = some v) floats ∧
        out = acc ++ (floats.map Subtype.val).flatten := by
  induction pieces generalizing acc with
  | nil => simp [eq_comm]
  | cons p ps ih =>
    simp only [List.foldlM_cons, appendFloat, List.forall₂_cons_left_iff]
    constructor
    · intro h
      obtain ⟨acc', hacc', hrest⟩ := Option.bind_eq_some.1 h
      obtain ⟨v, hv, rfl⟩ := Option.map_eq_some'.1 hacc'
      obtain ⟨floats, hfl, rfl⟩ := ih.1 hrest
      exact ⟨v :: floats, ⟨v, floats, hv, hfl, rfl⟩, by simp⟩
    · rintro ⟨_, ⟨v, floats, hv, hfl, rfl⟩, rfl⟩
      simp only [hv, Option.map_some', Option.bind_eq_bind, Option.some_bind]
      exact ih.2 ⟨floats, hfl, by simp⟩

theorem normalizeStringRecord_eq_some {input : List Char} {out : List UInt8} :
    normalizeStringRecord simpleAtof input = some out ↔
      ∃ floats, (floatStrings input).Forall₂ (fun p v => simpleAtof p = some v) floats ∧
        out = (floats.map Subtype.val).flatten := by
  rw [normalizeStringRecord, foldlM_appendFloat_eq_some]
  simp only [List.nil_append]

theorem length_flatten_float32 :
    ∀ floats : List { b : List UInt8 // b.length = 4 },
      (floats.map Subtype.val).flatten.length = 4 * floats.length
  | [] => rfl
  | v :: floats => by
    rw [List.map_cons, List.flatten_cons, List.length_append, v.2,
      length_flatten_float32 floats, List.length_cons]
    omega

/-- A record built from text is a vector of the size an index of `dimensions` expects
exactly when the text had `dimensions` floats. -/
theorem normalizeStringRecord_isValidSizeVector {input : List Char} {out : List UInt8}
    (h : normalizeStringRecord simpleAtof input = some out) (p : IndexParams) :
    isValidSizeVector p out = true ↔ (floatStrings input).length = p.dimensions := by
  obtain ⟨floats, hfl, rfl⟩ := foldlM_appendFloat_eq_some.1 h
  rw [isValidSizeVector, decide_eq_true_iff, List.nil_append, length_flatten_float32,
    hfl.length_eq]
  omega

end Normalize

/-- A `SimpleAtof` that reads every piece as `0.0f`. -/
def zeroAtof (_ : List Char) : Option { b : List UInt8 // b.length = 4 } :=
  some ⟨[0, 0, 0, 0], rfl⟩

theorem normalizeStringRecord_isValidSizeVector_two :
    normalizeStringRecord zeroAtof ['[', '1', ',', '2', ']'] = some (List.replicate 8 0) ∧
      (isValidSizeVector ⟨2, false, fun r => (r, 0)⟩ (List.replicate 8 0) = true ↔
        (floatStrings ['[', '1', ',', '2', ']']).length = 2) :=
  have hf : floatStrings ['[', '1', ',', '2', ']'] = [['1'], ['2']] := by
    rw [floatStrings, show ['[', '1', ',', '2', ']'] = '[' :: (['1', ',', '2'] ++ [']']) from rfl,
      trimBrackets_wrap, trimBrackets_of_head (by decide)]
    rfl
  have h : normalizeStringRecord zeroAtof ['[', '1', ',', '2', ']'] = some (List.replicate 8 0) := by
    rw [normalizeStringRecord, hf]
    rfl
  ⟨h, normalizeStringRecord_isValidSizeVector h _⟩

end ValkeySearch
