import FauPortalen.Register.Sync.Matching
import Mathlib.Data.Fintype.Card
import Mathlib.Data.Rat.Defs
import Mathlib.Algebra.Order.Field.Rat
import Mathlib.Tactic.Linarith
import Mathlib.Tactic.NormNum
import Mathlib.Tactic.Positivity
import Mathlib.Tactic.Ring

/-! The exact ratio behind a binary32 similarity. Names have few enough trigrams that
rounding never moves a ratio across the re-registration threshold.
-/

namespace FauPortalen.Register

open FauPortalen.Foundations

-----------------------------------------------------------------------------------------
-- Ratios and the threshold

section

variable {common union : Nat}

theorem reregistrationThreshold_eq : reregistrationThreshold = 10066330 * 2 ^ 125 := by
  decide +kernel

/-- From a half up to one, a ratio is rounded in steps of 2^-24. -/
private theorem threshold_le_of_half (half : 2 ^ 148 ≤ common * 2 ^ 149 / union)
    (above : common * 2 ^ 149 / union < 2 ^ 149) (positive : 0 < union)
    (small : union ≤ 2 ^ 22)
    : reregistrationThreshold ≤ Binary32.ofRatio common union ↔ 3 * union ≤ 5 * common := by
  have bits : Nat.log 2 (common * 2 ^ 149 / union) = 148 :=
    (Nat.log_eq_iff (.inl (by decide))).mpr ⟨half, above⟩
  obtain ⟨atLeast, atMost⟩ :=
    roundHalfEven_within (common * 2 ^ 149) (by positivity : 0 < union * 2 ^ 125)
  rw [reregistrationThreshold_eq, Binary32.ofRatio_of_log bits, Nat.mul_le_mul_right_iff
    (by positivity)]
  generalize roundHalfEven (common * 2 ^ 149) (union * 2 ^ 125) = rounded at atLeast atMost ⊢
  have low : 2 * (common * 2 ^ 24) ≤ union * (2 * rounded + 1) := by
    refine Nat.le_of_mul_le_mul_right (c := 2 ^ 125) ?_ (by positivity)
    calc 2 * (common * 2 ^ 24) * 2 ^ 125 = 2 * (common * 2 ^ 149) := by ring
      _ ≤ union * 2 ^ 125 * (2 * rounded + 1) := atLeast
      _ = union * (2 * rounded + 1) * 2 ^ 125 := by ring
  have high : union * (2 * rounded) ≤ 2 * (common * 2 ^ 24) + union := by
    refine Nat.le_of_mul_le_mul_right (c := 2 ^ 125) ?_ (by positivity)
    calc union * (2 * rounded) * 2 ^ 125 = union * 2 ^ 125 * (2 * rounded) := by ring
      _ ≤ 2 * (common * 2 ^ 149) + union * 2 ^ 125 := atMost
      _ = (2 * (common * 2 ^ 24) + union) * 2 ^ 125 := by ring
  constructor
  · intro reached
    by_contra below
    have step : union * (2 * 10066330) ≤ union * (2 * rounded) :=
      Nat.mul_le_mul_left _ (by omega)
    omega
  · intro reached
    by_contra below
    have step : union * (2 * rounded + 1) ≤ union * (2 * 10066329 + 1) :=
      Nat.mul_le_mul_left _ (by omega)
    omega

/-- A ratio below a half is rounded to at most a half. -/
private theorem ofRatio_lt_threshold (few : common * 2 ^ 149 / union < 2 ^ 148)
    (positive : 0 < union)
    : Binary32.ofRatio common union < reregistrationThreshold := by
  have bits : Nat.log 2 (common * 2 ^ 149 / union) < 148 := by
    rcases Nat.eq_zero_or_pos (common * 2 ^ 149 / union) with zero | nonzero
    · rw [zero, Nat.log_zero_right]
      decide
    · exact Nat.log_lt_of_lt_pow (Nat.ne_of_gt nonzero) few
  rw [reregistrationThreshold_eq, Binary32.ofRatio_of_log rfl]
  generalize dropped : Nat.log 2 (common * 2 ^ 149 / union) + 1 - 24 = drop
  have step : 2 ^ drop ≤ 2 ^ 124 := Nat.pow_le_pow_right (by decide) (by omega)
  obtain ⟨_, atMost⟩ :=
    roundHalfEven_within (common * 2 ^ 149) (by positivity : 0 < union * 2 ^ drop)
  generalize roundHalfEven (common * 2 ^ 149) (union * 2 ^ drop) = rounded at atMost ⊢
  have scaled : common * 2 ^ 149 < 2 ^ 148 * union :=
    (Nat.div_lt_iff_lt_mul positive).mp few
  have bound : union * (2 * (rounded * 2 ^ drop)) < union * (2 * 2 ^ 148 + 2 ^ 124) := by
    calc union * (2 * (rounded * 2 ^ drop)) = union * 2 ^ drop * (2 * rounded) := by ring
      _ ≤ 2 * (common * 2 ^ 149) + union * 2 ^ drop := atMost
      _ < 2 * (2 ^ 148 * union) + union * 2 ^ drop := by omega
      _ ≤ 2 * (2 ^ 148 * union) + union * 2 ^ 124 :=
          Nat.add_le_add_left (Nat.mul_le_mul_left _ step) _
      _ = union * (2 * 2 ^ 148 + 2 ^ 124) := by ring
  have final := Nat.lt_of_mul_lt_mul_left bound
  have less : rounded * 2 ^ drop < 10066330 * 2 ^ 125 := by omega
  exact less

/-- Rounding keeps the ratio of two small counts on its side of 0.6. -/
theorem reregistrationThreshold_le_ofRatio (positive : 0 < union) (part : common ≤ union)
    (small : union ≤ 2 ^ 22)
    : reregistrationThreshold ≤ Binary32.ofRatio common union ↔ 3 * union ≤ 5 * common := by
  rcases Nat.lt_or_eq_of_le part with less | rfl
  · have above : common * 2 ^ 149 / union < 2 ^ 149 := by
      rw [Nat.div_lt_iff_lt_mul positive, Nat.mul_comm]
      exact Nat.mul_lt_mul_of_pos_left less (by positivity)
    by_cases half : 2 ^ 148 ≤ common * 2 ^ 149 / union
    · exact threshold_le_of_half half above positive small
    · have below : ¬ 3 * union ≤ 5 * common := by
        intro reached
        refine half ((Nat.le_div_iff_mul_le positive).mpr ?_)
        omega
      have short := ofRatio_lt_threshold (Nat.lt_of_not_le half) positive
      exact iff_of_false (Nat.not_le.mpr short) below
  · have one : Nat.log 2 (common * 2 ^ 149 / common) = 149 := by
      rw [Nat.mul_div_cancel_left _ positive, Nat.log_pow (by decide)]
    have whole : common * 2 ^ 149 = 2 ^ 23 * (common * 2 ^ 126) := by ring
    have exact : roundHalfEven (common * 2 ^ 149) (common * 2 ^ 126) = 2 ^ 23 := by
      rw [whole, roundHalfEven_mul_self _ (by positivity)]
    rw [reregistrationThreshold_eq, Binary32.ofRatio_of_log one]
    change 10066330 * 2 ^ 125
      ≤ roundHalfEven (common * 2 ^ 149) (common * 2 ^ 126) * 2 ^ 126 ↔ _
    rw [exact]
    exact iff_of_true (by norm_num) (by omega)

end

-----------------------------------------------------------------------------------------
-- Trigrams are windows of ASCII characters

/-- A collapsed name holds letters, digits and separators. -/
theorem mem_collapse {input : List Char} {sep c : Char} (member : c ∈ collapse input sep)
    : isSlugChar c = true ∨ c = sep := by
  have kept : ∀ (state : Collapsed), (∀ c ∈ state.out, isSlugChar c = true ∨ c = sep) →
      ∀ c ∈ (input.foldl (collapseStep sep) state).out, isSlugChar c = true ∨ c = sep := by
    clear member
    induction input with
    | nil => exact fun _ before => before
    | cons next rest ih =>
        intro state before
        refine ih (collapseStep sep state next) ?_
        intro c inside
        unfold collapseStep at inside
        simp only at inside
        split at inside
        · exact before c inside
        · split at inside
          · next slug =>
              rcases List.mem_append.mp inside with earlier | last
              · split at earlier
                · rcases List.mem_append.mp earlier with old | gap
                  · exact before c old
                  · exact .inr (List.mem_singleton.mp gap)
                · exact before c earlier
              · rw [List.mem_singleton.mp last]
                exact .inl slug
          · exact before c inside
  exact kept ⟨[], false⟩ (by simp) c member

theorem toNat_lt_of_mem_searchQuery [UnicodeData] {name : String} {c : Char}
    (member : c ∈ searchQuery name)
    : c.toNat < 128 := by
  rcases mem_collapse member with slug | rfl
  · exact isSlugChar_ascii slug
  · decide

/-- The windows of a word take their characters from it. -/
theorem mem_windows3 {word : List Char} {window : Char × Char × Char}
    (member : window ∈ windows3 word)
    : window.1 ∈ word ∧ window.2.1 ∈ word ∧ window.2.2 ∈ word := by
  induction word using windows3.induct with
  | case1 a b c rest ih =>
      rcases List.mem_cons.mp member with rfl | later
      · simp
      · obtain ⟨first, second, third⟩ := ih later
        exact ⟨List.mem_cons_of_mem _ first, List.mem_cons_of_mem _ second,
          List.mem_cons_of_mem _ third⟩
  | case2 word short =>
      rw [windows3] at member
      · cases member
      · exact short

/-- A word of a text takes its characters from the text. -/
theorem mem_of_mem_splitOn {text word : List Char} {sep c : Char}
    (inside : word ∈ text.splitOn sep) (member : c ∈ word)
    : c ∈ text := by
  induction text generalizing word with
  | nil =>
      simp only [List.splitOn_nil, List.mem_singleton] at inside
      exact inside ▸ member
  | cons first rest ih =>
      rw [List.splitOn_cons_eq_if_modifyHead] at inside
      split at inside
      · rcases List.mem_cons.mp inside with rfl | later
        · cases member
        · exact List.mem_cons_of_mem _ (ih later member)
      · cases words : rest.splitOn sep with
        | nil => simp [words] at inside
        | cons head tail =>
            rw [words, List.modifyHead_cons] at inside
            rcases List.mem_cons.mp inside with rfl | later
            · rcases List.mem_cons.mp member with rfl | own
              · exact List.mem_cons_self
              · exact List.mem_cons_of_mem _ (ih (words ▸ List.mem_cons_self) own)
            · exact List.mem_cons_of_mem _
                (ih (words ▸ List.mem_cons_of_mem _ later) member)

/-- The trigrams of a text are windows of ASCII characters when the text is ASCII. -/
theorem ascii_of_mem_trigrams {query : List Char} (ascii : ∀ c ∈ query, c.toNat < 128)
    {window : Char × Char × Char} (member : window ∈ trigrams query)
    : window.1.toNat < 128 ∧ window.2.1.toNat < 128 ∧ window.2.2.toNat < 128 := by
  simp only [trigrams, List.mem_dedup, List.mem_flatMap, List.mem_filter] at member
  obtain ⟨word, ⟨inside, _⟩, window_mem⟩ := member
  have padded : ∀ c ∈ [' ', ' '] ++ word ++ [' '], c.toNat < 128 := by
    intro c here
    rcases List.mem_append.mp here with front | back
    · rcases List.mem_append.mp front with blank | own
      · have same : c = ' ' := by simpa using blank
        rw [same]
        decide
      · exact ascii c (mem_of_mem_splitOn inside own)
    · rw [List.mem_singleton.mp back]
      decide
  obtain ⟨first, second, third⟩ := mem_windows3 window_mem
  exact ⟨padded _ first, padded _ second, padded _ third⟩

/-- There are at most 128^3 trigrams of ASCII characters: each is numbered below that. -/
theorem length_trigrams_le {query : List Char} (ascii : ∀ c ∈ query, c.toNat < 128)
    : (trigrams query).length ≤ 128 ^ 3 := by
  let code (w : Char × Char × Char) : Nat :=
    w.1.toNat * 128 ^ 2 + w.2.1.toNat * 128 + w.2.2.toNat
  have bounded : ∀ w ∈ trigrams query, code w < 128 ^ 3 := by
    intro w member
    obtain ⟨first, second, third⟩ := ascii_of_mem_trigrams ascii member
    simp only [code]
    omega
  have injective : ∀ v ∈ trigrams query, ∀ w ∈ trigrams query, code v = code w → v = w := by
    intro v hv w hw same
    obtain ⟨v₁, v₂, v₃⟩ := ascii_of_mem_trigrams ascii hv
    obtain ⟨w₁, w₂, w₃⟩ := ascii_of_mem_trigrams ascii hw
    simp only [code] at same
    have first : v.1.toNat = w.1.toNat := by omega
    have second : v.2.1.toNat = w.2.1.toNat := by omega
    have third : v.2.2.toNat = w.2.2.toNat := by omega
    exact Prod.ext (Char.toNat_inj.mp first)
      (Prod.ext (Char.toNat_inj.mp second) (Char.toNat_inj.mp third))
  have distinct : ((trigrams query).map code).Nodup :=
    (List.nodup_dedup _).map_on injective
  have inside : (trigrams query).map code ⊆ List.range (128 ^ 3) := by
    intro n member
    obtain ⟨w, hw, rfl⟩ := List.mem_map.mp member
    exact List.mem_range.mpr (bounded w hw)
  have counted := (distinct.subperm inside).length_le
  rwa [List.length_map, List.length_range] at counted

-----------------------------------------------------------------------------------------
-- The exact ratio of two names

section

variable [UnicodeData]

/-- The trigrams two names have in common, and those of either. -/
def trigramCounts (a b : String) : Nat × Nat :=
  let ta := trigrams (searchQuery a)
  let tb := trigrams (searchQuery b)
  let common := (commonTrigrams ta tb).length
  (common, ta.length + tb.length - common)

/-- The share of trigrams two names have in common, exactly; 0 when neither has any. -/
def exactSimilarity (a b : String) : Rat :=
  let (common, union) := trigramCounts a b
  if union = 0 then 0 else common / union

/-- The better of the display name and the register name, exactly. -/
def exactNameSimilarity {Id : Type} (school : SchoolSnapshot Id) (name : String) : Rat :=
  let display := exactSimilarity school.displayName name
  match school.registerName with
  | some register => max display (exactSimilarity register name)
  | none => display

theorem trigramCounts_le (a b : String)
    : (trigramCounts a b).1 ≤ (trigramCounts a b).2 ∧ (trigramCounts a b).2 ≤ 2 ^ 22 := by
  have shared : (commonTrigrams (trigrams (searchQuery a)) (trigrams (searchQuery b))).length
      ≤ (trigrams (searchQuery a)).length :=
    List.length_filter_le _ _
  have covered : (commonTrigrams (trigrams (searchQuery a)) (trigrams (searchQuery b))).length
      ≤ (trigrams (searchQuery b)).length := by
    have distinct : (commonTrigrams (trigrams (searchQuery a))
        (trigrams (searchQuery b))).Nodup := (List.nodup_dedup _).filter _
    refine (distinct.subperm fun w member => ?_).length_le
    simpa using (List.mem_filter.mp member).2
  have left : (trigrams (searchQuery a)).length ≤ 128 ^ 3 :=
    length_trigrams_le fun c => toNat_lt_of_mem_searchQuery
  have right : (trigrams (searchQuery b)).length ≤ 128 ^ 3 :=
    length_trigrams_le fun c => toNat_lt_of_mem_searchQuery
  simp only [trigramCounts]
  omega

/-- The planner's comparison with the threshold is the exact one. -/
theorem reregistrationThreshold_le_similarity (a b : String)
    : reregistrationThreshold ≤ similarity a b ↔ 3 / 5 ≤ exactSimilarity a b := by
  obtain ⟨part, small⟩ := trigramCounts_le a b
  have rounded : similarity a b = if (trigramCounts a b).2 = 0 then 0
      else Binary32.div (Binary32.ofNat (trigramCounts a b).1)
        (Binary32.ofNat (trigramCounts a b).2) := rfl
  rw [rounded, exactSimilarity]
  generalize trigramCounts a b = counts at part small
  obtain ⟨common, union⟩ := counts
  simp only at part small ⊢
  split
  · next empty =>
      refine iff_of_false ?_ (by norm_num)
      rw [reregistrationThreshold_eq]
      decide
  · next some_union =>
      have positive : 0 < union := Nat.pos_of_ne_zero some_union
      rw [Binary32.div_ofNat (by omega) (by omega),
        reregistrationThreshold_le_ofRatio positive part small,
        le_div_iff₀ (by exact_mod_cast positive), div_mul_eq_mul_div,
        div_le_iff₀ (by norm_num)]
      constructor
      · intro reached
        have cast : ((3 * union : Nat) : Rat) ≤ ((5 * common : Nat) : Rat) := by
          exact_mod_cast reached
        push_cast at cast
        linarith
      · intro reached
        have cast : ((3 * union : Nat) : Rat) ≤ ((5 * common : Nat) : Rat) := by
          push_cast
          linarith
        exact_mod_cast cast

theorem reregistrationThreshold_le_nameSimilarity {Id : Type} (school : SchoolSnapshot Id)
    (name : String)
    : reregistrationThreshold ≤ nameSimilarity school name
      ↔ 3 / 5 ≤ exactNameSimilarity school name := by
  unfold nameSimilarity exactNameSimilarity
  cases school.registerName with
  | none => exact reregistrationThreshold_le_similarity _ _
  | some register =>
      simp only [le_max_iff, reregistrationThreshold_le_similarity]

end

end FauPortalen.Register
