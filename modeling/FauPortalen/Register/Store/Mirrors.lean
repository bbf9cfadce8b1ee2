import FauPortalen.Foundations.Tenures
import FauPortalen.Register.Store.MunicipalityWrites
import FauPortalen.Register.Store.SchoolWrites
import FauPortalen.Register.Sync.FittingMunicipalityOps

/-! The tables beside the register that the reference applier works on: each operation's statements
keep the two alike, and the constraints of the tables carry the reference's checks.
-/

set_option linter.unusedSectionVars false

namespace FauPortalen.Register

open FauPortalen.Foundations Transaction Applier

variable {Id : Type} [LinearOrder Id] {s after : RegisterTables Id} {out : RegisterSnapshot Id}

/-- The tables show the register, whatever the order of their rows. -/
structure Mirrors (s : RegisterTables Id) (out : RegisterSnapshot Id) : Prop where
  municipalities : (s.municipalities.map s.municipalitySnapshot).Perm
    (out.municipalities.map fun m => some m.inOrder)
  schools : (s.schools.map s.schoolSnapshot).Perm out.schools
  orgnrs : (s.orgnrs.map fun row => (row.orgnr, row.schoolId)).Perm out.schoolOrgnrHistory

namespace Mirrors

/-- A municipality of the tables is one of the register. -/
theorem municipality (h : Mirrors s out) {row : MunicipalityRow Id} (member : row ∈ s.municipalities)
    : ∃ m ∈ out.municipalities, s.municipalitySnapshot row = some m.inOrder ∧ m.id = row.id
        ∧ m.slug = row.slug ∧ m.status = row.status ∧ s.numberOf row.id = some m.number := by
  have inside := h.municipalities.mem_iff.mp (List.mem_map_of_mem member)
  obtain ⟨m, known, shown⟩ := List.mem_map.mp inside
  obtain ⟨_, id, slug, status, number⟩ := RegisterTables.inOrder_of_municipalitySnapshot shown.symm
  exact ⟨m, known, shown.symm, id, slug, status, number⟩

/-- A municipality of the register is one of the tables. -/
theorem municipality_row (h : Mirrors s out) {m : MunicipalitySnapshot Id}
    (member : m ∈ out.municipalities)
    : ∃ row ∈ s.municipalities, s.municipalitySnapshot row = some m.inOrder ∧ m.id = row.id
        ∧ m.slug = row.slug ∧ m.status = row.status ∧ s.numberOf row.id = some m.number := by
  have inside := h.municipalities.mem_iff.mpr
    (List.mem_map_of_mem (f := fun m => some m.inOrder) member)
  obtain ⟨row, known, shown⟩ := List.mem_map.mp inside
  obtain ⟨_, id, slug, status, number⟩ := RegisterTables.inOrder_of_municipalitySnapshot shown
  exact ⟨row, known, shown, id, slug, status, number⟩

/-- What both sides read off a municipality is the same on both, up to order. -/
theorem municipalities_perm (h : Mirrors s out) {α : Type} {ofRow : MunicipalityRow Id → α}
    {ofSnapshot : MunicipalitySnapshot Id → α}
    (agrees : ∀ row m, s.municipalitySnapshot row = some m → ofSnapshot m = ofRow row)
    (unordered : ∀ m, ofSnapshot m.inOrder = ofSnapshot m)
    : (s.municipalities.map ofRow).Perm (out.municipalities.map ofSnapshot) := by
  have both := h.municipalities.map (Option.map ofSnapshot)
  rw [List.map_map, List.map_map] at both
  have rows : s.municipalities.map (Option.map ofSnapshot ∘ s.municipalitySnapshot)
      = (s.municipalities.map ofRow).map some := by
    rw [List.map_map]
    refine List.map_congr_left fun row member => ?_
    obtain ⟨m, _, shown, _⟩ := h.municipality member
    rw [Function.comp_apply, shown, Option.map_some, agrees row _ shown]
    rfl
  have snapshots : out.municipalities.map (Option.map ofSnapshot ∘ fun m => some m.inOrder)
      = (out.municipalities.map ofSnapshot).map some := by
    rw [List.map_map]
    exact List.map_congr_left fun m _ => congrArg some (unordered m)
  rw [rows, snapshots] at both
  exact (List.map_perm_map_iff (Option.some_injective _)).mp both

theorem municipality_ids (h : Mirrors s out)
    : s.municipalityIds.Perm (out.municipalities.map (·.id)) :=
  h.municipalities_perm (fun _ _ shown => (RegisterTables.inOrder_of_municipalitySnapshot shown).2.1)
    fun _ => rfl

theorem municipality_slugs (h : Mirrors s out)
    : (s.municipalities.map (·.slug)).Perm (out.municipalities.map (·.slug)) :=
  h.municipalities_perm
    (fun _ _ shown => (RegisterTables.inOrder_of_municipalitySnapshot shown).2.2.1) fun _ => rfl

theorem school_ids (h : Mirrors s out) : s.schoolIds.Perm (out.schools.map (·.id)) := by
  have both := h.schools.map (·.id)
  rwa [List.map_map] at both

-----------------------------------------------------------------------------------------
-- The reference's checks

/-- Open municipalities have numbers of their own, since only one row of a number is current. -/
theorem nodup_active_numbers (h : Mirrors s out) (holds : s.Constraints) (stand : s.NumbersStand)
    : ((out.municipalities.filter (·.status = .active)).map (·.number)).Nodup := by
  have unique : (out.municipalities.map (·.id)).Nodup :=
    h.municipality_ids.nodup_iff.mp holds.municipalityKeys
  have current {m : MunicipalitySnapshot Id}
      (member : m ∈ out.municipalities.filter (·.status = .active))
      : ∃ n ∈ s.numbers.filter (·.validUntil.isNone), n.municipalityId = m.id
          ∧ n.number = m.number := by
    obtain ⟨inside, active⟩ := List.mem_filter.mp member
    obtain ⟨row, known, _, id, _, status, number⟩ := h.municipality_row inside
    have one := stand row known
    rw [if_pos (by rw [← status]; simpa using active)] at one
    have some_current : 0 < s.currentCount row.id := by omega
    obtain ⟨n, own, open_⟩ := List.countP_pos_iff.mp some_current
    obtain ⟨there, same⟩ := List.mem_filter.mp own
    have same : n.municipalityId = row.id := of_decide_eq_true same
    have shown := RegisterTables.numberOf_current there (Option.isNone_iff_eq_none.mp open_)
      (same ▸ one)
    rw [same, number] at shown
    exact ⟨n, List.mem_filter.mpr ⟨there, open_⟩, same.trans id.symm,
      (Option.some.inj shown).symm⟩
  refine List.Nodup.map_on (fun m left m' right equal => ?_) (unique.of_map _ |>.filter _)
  obtain ⟨n, here, own, number⟩ := current left
  obtain ⟨n', there, own', number'⟩ := current right
  have one : n = n' := List.inj_on_of_nodup_map holds.currentNumbers here there
    (number.trans (equal.trans number'.symm))
  exact List.inj_on_of_nodup_map unique (List.mem_of_mem_filter left)
    (List.mem_of_mem_filter right) (own.symm.trans (one ▸ own'))

/-- The constraints of the tables are what the reference checks, but for the numbers. -/
theorem checkInvariants (h : Mirrors s out) (holds : s.Constraints)
    (numbers : NumbersApart out.municipalities)
    : FauPortalen.Register.checkInvariants out = true := by
  have held : ∀ school ∈ out.schools, school.slug.isNone || school.verification ≠ .held := by
    intro school member
    obtain ⟨row, known, rfl⟩ := List.mem_map.mp (h.schools.mem_iff.mpr member)
    have checked := holds.schoolChecks row known
    simp only [SchoolRow.check, Bool.and_eq_true, Bool.or_eq_true, decide_eq_true_eq] at checked
    rcases checked.1.1.2 with (none_given | listed) | verified
    · simp [RegisterTables.schoolSnapshot, none_given]
    · simp [RegisterTables.schoolSnapshot, listed]
    · simp [RegisterTables.schoolSnapshot, verified]
  have slugs : (currentSlugs out).Nodup := by
    have keys : s.currentSlugKeys.Perm (currentSlugs out) := by
      have both := h.schools.filterMap fun school =>
        school.slug.map fun slug => (school.municipalityId, slug)
      rwa [List.filterMap_map] at both
    exact keys.nodup_iff.mp holds.currentSlugs
  have municipality_slugs : (out.municipalities.map (·.slug)).Nodup :=
    h.municipality_slugs.nodup_iff.mp holds.municipalitySlugs
  simp only [FauPortalen.Register.checkInvariants, Bool.and_eq_true, decide_eq_true_eq]
  exact ⟨⟨⟨List.all_eq_true.mpr held, slugs⟩, municipality_slugs⟩,
    (nodup_active_numbers_iff (h.municipality_ids.nodup_iff.mp holds.municipalityKeys)).mpr
      numbers⟩

end Mirrors

end FauPortalen.Register
