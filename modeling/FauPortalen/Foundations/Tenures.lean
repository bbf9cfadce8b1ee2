import FauPortalen.Foundations.Comparators

/-! Histories of what owners gave up, each row from the end of the owner's last one. A row that
would end where it begins is left out, so of what an owner gives up at one moment only the first is
kept.
-/

namespace FauPortalen.Foundations

variable {κ ν τ ρ : Type} [DecidableEq κ] [LinearOrder τ] [Std.LawfulOrderMax τ]

/-- The end of the owner's last row. -/
def lastEnd (owner : ρ → κ) (ended : ρ → τ) (table : List ρ) (key : κ) : Option τ :=
  ((table.filter (owner · = key)).map ended).max?

variable {owner : ρ → κ} {ended : ρ → τ} {now start : τ} {before rows table : List ρ} {key : κ}

/-- Among rows that end at this moment and earlier ones, an owner has time until now exactly when
it has none of the former.
-/
theorem lastEnd_lt_iff (earlier : ∀ row ∈ before, ended row < now)
    (ending : ∀ row ∈ rows, ended row = now) (begun : start < now)
    : (lastEnd owner ended (before ++ rows) key).getD start < now ↔ key ∉ rows.map owner := by
  constructor
  · intro room present
    obtain ⟨row, member, own⟩ := List.mem_map.mp present
    have inside : ended row ∈ ((before ++ rows).filter (owner · = key)).map ended :=
      List.mem_map_of_mem
        (List.mem_filter.mpr ⟨List.mem_append_right _ member, by simpa using own⟩)
    unfold lastEnd at room
    cases last : (((before ++ rows).filter (owner · = key)).map ended).max? with
    | none =>
        rw [List.max?_eq_none_iff.mp last] at inside
        cases inside
    | some latest =>
        rw [last, Option.getD_some] at room
        have bound := (List.max?_eq_some_iff.mp last).2 _ inside
        rw [ending row member] at bound
        exact absurd room (not_lt.mpr bound)
  · intro absent
    unfold lastEnd
    cases last : (((before ++ rows).filter (owner · = key)).map ended).max? with
    | none => exact begun
    | some latest =>
        obtain ⟨row, member, same⟩ := List.mem_map.mp (List.max?_eq_some_iff.mp last).1
        obtain ⟨inside, own⟩ := List.mem_filter.mp member
        rw [Option.getD_some, ← same]
        rcases List.mem_append.mp inside with old | new
        · exact earlier row old
        · exact absurd (List.mem_map.mpr ⟨row, new, by simpa using own⟩) absent

/-- The table has recorded, of what was given up at this moment, the first thing of each owner. -/
structure Recorded (owner : ρ → κ) (ended : ρ → τ) (view : ρ → ν) (key : ν → κ) (now : τ)
    (before table : List ρ) (given : List ν) : Prop where
  keyed : ∀ row, key (view row) = owner row
  earlier : ∀ row ∈ before, ended row < now
  rows : ∃ rows, table = before ++ rows ∧ rows.map view = keepFirst key [] given
    ∧ ∀ row ∈ rows, ended row = now

namespace Recorded

variable {view : ρ → ν} {keyOf : ν → κ} {given : List ν}

omit [Std.LawfulOrderMax τ] in
theorem nothing (keyed : ∀ row, keyOf (view row) = owner row)
    (earlier : ∀ row ∈ before, ended row < now)
    : Recorded owner ended view keyOf now before before [] :=
  ⟨keyed, earlier, [], (List.append_nil _).symm, rfl, fun _ none => (List.not_mem_nil none).elim⟩

/-- One more thing given up is recorded when its owner has had time. -/
theorem give (h : Recorded owner ended view keyOf now before table given) (row : ρ) {start : τ}
    (begun : start < now) (ending : ended row = now)
    : Recorded owner ended view keyOf now before
        (table ++ if (lastEnd owner ended table (owner row)).getD start < now then [row] else [])
        (given ++ [view row]) := by
  obtain ⟨rows, rfl, viewed, ends⟩ := h.rows
  have owners : rows.map owner = (keepFirst keyOf [] given).map keyOf := by
    rw [← viewed, List.map_map]
    exact List.map_congr_left fun row _ => (h.keyed row).symm
  have room : (lastEnd owner ended (before ++ rows) (owner row)).getD start < now
      ↔ keyOf (view row) ∉ given.map keyOf := by
    rw [lastEnd_lt_iff h.earlier ends begun, owners, mem_map_keepFirst_nil, h.keyed]
  refine ⟨h.keyed, h.earlier, ?_⟩
  by_cases known : keyOf (view row) ∈ given.map keyOf
  · refine ⟨rows, ?_, ?_, ends⟩
    · rw [if_neg fun has => room.mp has known, List.append_nil]
    · rw [viewed, keepFirst_concat, if_pos (.inr known), List.append_nil]
  · refine ⟨rows ++ [row], ?_, ?_, ?_⟩
    · rw [if_pos (room.mpr known), List.append_assoc]
    · rw [List.map_append, viewed, keepFirst_concat,
        if_neg fun seen => seen.elim (fun none => (List.not_mem_nil none).elim) known]
      rfl
    · intro other member
      rcases List.mem_append.mp member with old | last
      · exact ends other old
      · exact List.mem_singleton.mp last ▸ ending

end Recorded

end FauPortalen.Foundations
