import FauPortalen.Membership.Outcomes
import FauPortalen.Membership.SignupRaces

/-! What holds whatever the order in which signups, activations and sweeps interleave: one live
FAU per school, few pending signups per address, and an activation that is made once, in time, by
its registrant and for good.
-/

set_option linter.unusedSectionVars false

namespace FauPortalen.Membership

open Foundations

-----------------------------------------------------------------------------------------
-- Tables

/-- The FAU holds the school. -/
def FauRow.Holds (row : FauRow) (schoolId : Nat) : Prop :=
  row.schoolId = some schoolId ∧ row.existing?.isSome

/-- The tables keep the keys and references that the schema declares. Ids are drawn before use. -/
structure SignupTables.Stored (tables : SignupTables) (nextTenant : Nat) : Prop where
  ids : (tables.tenants.map (·.id)).Nodup
  drawn : ∀ row ∈ tables.tenants, row.id < nextTenant
  signupIds : (tables.signups.map (·.tenantId)).Nodup
  references : ∀ signup ∈ tables.signups, ∃ row ∈ tables.tenants, row.id = signup.tenantId
  oneLive : ∀ row ∈ tables.tenants, ∀ row' ∈ tables.tenants, ∀ schoolId,
    row.Holds schoolId → row'.Holds schoolId → row.id = row'.id

namespace SignupTables

variable {tables after : SignupTables} {nextTenant tenantId schoolId : Nat} {deleted : List Nat}
  {row : FauRow} {signup : SignupRow} {email : Email} {now later : Timestamp}

theorem mem_tenants_without
    : row ∈ (tables.without deleted).tenants ↔ row ∈ tables.tenants ∧ row.id ∉ deleted := by
  simp [without]

theorem mem_signups_without
    : signup ∈ (tables.without deleted).signups
      ↔ signup ∈ tables.signups ∧ signup.tenantId ∉ deleted := by
  simp [without]

/-- A tenant found to be live holds the school, in the state that was found. -/
theorem of_liveTenantForSchool {existing : ExistingFau}
    (found : tables.liveTenantForSchool schoolId = some (tenantId, existing))
    : ∃ row ∈ tables.tenants, row.id = tenantId ∧ row.schoolId = some schoolId
        ∧ row.existing? = some existing := by
  obtain ⟨row, member, same⟩ := List.exists_of_findSome?_eq_some found
  split at same
  · next school =>
      obtain ⟨state, holds, pair⟩ := Option.map_eq_some_iff.mp same
      cases pair
      exact ⟨row, member, rfl, school, holds⟩
  · cases same

theorem not_holds_of_none (none : tables.liveTenantForSchool schoolId = none)
    (member : row ∈ tables.tenants)
    : ¬row.Holds schoolId := by
  rintro ⟨school, live⟩
  have passed := List.findSome?_eq_none_iff.mp none row member
  rw [if_pos school, Option.map_eq_none_iff] at passed
  rw [passed] at live
  cases live

/-- Fewer signups, of fewer pending tenants, are fewer. -/
theorem pendingSignups_mono (signups : after.signups.Sublist tables.signups)
    (pending : ∀ row ∈ after.tenants, row.status = .pending →
      ∃ row' ∈ tables.tenants, row'.id = row.id ∧ row'.status = .pending)
    (order : now ≤ later)
    : after.pendingSignups email later ≤ tables.pendingSignups email now := by
  refine Nat.le_trans ?_ (signups.filter _).length_le
  refine (List.monotone_filter_right after.signups fun signup counts => ?_).length_le
  simp only [decide_eq_true_eq, List.any_eq_true] at counts ⊢
  obtain ⟨own, unexpired, row, member, same, status⟩ := counts
  obtain ⟨row', member', same', status'⟩ := pending row member status
  exact ⟨own, lt_of_le_of_lt order unexpired, row', member', same'.trans same, status'⟩

theorem pendingSignups_without_le (order : now ≤ later)
    : (tables.without deleted).pendingSignups email later ≤ tables.pendingSignups email now :=
  pendingSignups_mono List.filter_sublist
    (fun row member pending => ⟨row, (mem_tenants_without.mp member).1, rfl, pending⟩) order

theorem mem_tenants_activate
    : row ∈ (tables.activate tenantId).tenants
      ↔ ∃ row' ∈ tables.tenants,
          (if row'.id = tenantId then { row' with status := .active } else row') = row := by
  simp [activate]

theorem mem_signups_activate
    : signup ∈ (tables.activate tenantId).signups
      ↔ signup ∈ tables.signups ∧ signup.tenantId ≠ tenantId := by
  simp [activate]

/-- Activating a pending tenant keeps every id and school, and makes no other tenant live or
pending.
-/
theorem of_mem_activate
    (pending : ∀ row ∈ tables.tenants, row.id = tenantId → row.status = .pending)
    (member : row ∈ (tables.activate tenantId).tenants)
    : ∃ row' ∈ tables.tenants, row'.id = row.id ∧ row'.schoolId = row.schoolId
        ∧ (row.existing?.isSome → row'.existing?.isSome)
        ∧ (row.status = .pending → row'.status = .pending) := by
  obtain ⟨row', there, rfl⟩ := mem_tenants_activate.mp member
  refine ⟨row', there, ?_⟩
  split
  · next same =>
      have before := pending row' there same
      exact ⟨rfl, rfl, fun _ => by simp [FauRow.existing?, before], fun _ => before⟩
  · exact ⟨rfl, rfl, id, id⟩

theorem pendingSignups_activate_le
    (pending : ∀ row ∈ tables.tenants, row.id = tenantId → row.status = .pending)
    : (tables.activate tenantId).pendingSignups email now ≤ tables.pendingSignups email now := by
  refine pendingSignups_mono List.filter_sublist (fun row member waits => ?_) (Int.le_refl _)
  obtain ⟨row', there, same, _, _, before⟩ := of_mem_activate pending member
  exact ⟨row', there, same, before waits⟩

/-- A new tenant adds its own signup to the count, and no other. -/
theorem pendingSignups_place_le (references : ∀ signup ∈ tables.signups, signup.tenantId ≠ row.id)
    : (tables.place row signup).pendingSignups email now
      ≤ tables.pendingSignups email now + if signup.registrantEmail = email then 1 else 0 := by
  have old : (tables.signups.filter fun other => other.registrantEmail = email
        ∧ now < other.expiresAt
        ∧ (tables.tenants ++ [row]).any fun r => r.id = other.tenantId ∧ r.status = .pending)
      = tables.signups.filter fun other => other.registrantEmail = email
        ∧ now < other.expiresAt
        ∧ tables.tenants.any fun r => r.id = other.tenantId ∧ r.status = .pending := by
    refine List.filter_congr fun other member => ?_
    have apart : ¬row.id = other.tenantId := Ne.symm (references other member)
    simp [apart]
  rw [pendingSignups, place, List.filter_append, List.length_append, old, pendingSignups]
  refine Nat.add_le_add_left ?_ _
  split
  · exact List.length_filter_le _ [signup]
  · next other => simp [other]

/-- A new tenant does not count for another address, whichever tenants are deleted. -/
theorem pendingSignups_place_without_le
    (references : ∀ signup ∈ tables.signups, signup.tenantId ≠ row.id)
    (own : signup.tenantId = row.id) (other : signup.registrantEmail ≠ email)
    : ((tables.place row signup).without deleted).pendingSignups email now
      ≤ (tables.without deleted).pendingSignups email now := by
  by_cases gone : row.id ∈ deleted
  · have same : (tables.place row signup).without deleted = tables.without deleted := by
      simp [place, without, List.filter_append, own, gone]
    exact same ▸ Nat.le_refl _
  · have same : (tables.place row signup).without deleted
        = (tables.without deleted).place row signup := by
      simp [place, without, List.filter_append, own, gone]
    have counts : ((tables.without deleted).place row signup).pendingSignups email now
        ≤ (tables.without deleted).pendingSignups email now
          + if signup.registrantEmail = email then 1 else 0 :=
      pendingSignups_place_le fun signup member =>
        references signup (mem_signups_without.mp member).1
    rw [if_neg other, Nat.add_zero] at counts
    exact same ▸ counts

-----------------------------------------------------------------------------------------
-- The schema's constraints

theorem Stored.drawing {next : Nat} (stored : tables.Stored nextTenant) (order : nextTenant ≤ next)
    : tables.Stored next :=
  { stored with drawn := fun row member => Nat.lt_of_lt_of_le (stored.drawn row member) order }

theorem Stored.eq_of_id {row' : FauRow} (stored : tables.Stored nextTenant)
    (member : row ∈ tables.tenants) (member' : row' ∈ tables.tenants) (same : row.id = row'.id)
    : row = row' :=
  List.inj_on_of_nodup_map stored.ids member member' same

theorem Stored.without (stored : tables.Stored nextTenant)
    : (tables.without deleted).Stored nextTenant where
  ids := stored.ids.sublist (List.filter_sublist.map _)
  drawn row member := stored.drawn row (mem_tenants_without.mp member).1
  signupIds := stored.signupIds.sublist (List.filter_sublist.map _)
  references signup member := by
    obtain ⟨there, kept⟩ := mem_signups_without.mp member
    obtain ⟨row, found, same⟩ := stored.references signup there
    exact ⟨row, mem_tenants_without.mpr ⟨found, same ▸ kept⟩, same⟩
  oneLive row member row' member' :=
    stored.oneLive row (mem_tenants_without.mp member).1 row' (mem_tenants_without.mp member').1

theorem Stored.place (stored : tables.Stored nextTenant) (drawn : row.id < nextTenant)
    (fresh : ∀ other ∈ tables.tenants, other.id ≠ row.id) (own : signup.tenantId = row.id)
    (alone : ∀ other ∈ tables.tenants, ∀ schoolId, row.schoolId = some schoolId →
      ¬other.Holds schoolId)
    : (tables.place row signup).Stored nextTenant where
  ids := by
    rw [SignupTables.place, List.map_append, List.nodup_append]
    refine ⟨stored.ids, List.nodup_singleton _, ?_⟩
    intro id old _ new
    obtain ⟨other, member, rfl⟩ := List.mem_map.mp old
    rw [List.mem_singleton.mp new]
    exact fresh other member
  drawn other member := by
    rcases List.mem_append.mp member with old | new
    · exact stored.drawn other old
    · exact List.mem_singleton.mp new ▸ drawn
  signupIds := by
    rw [SignupTables.place, List.map_append, List.nodup_append]
    refine ⟨stored.signupIds, List.nodup_singleton _, ?_⟩
    intro id old _ new
    obtain ⟨other, member, rfl⟩ := List.mem_map.mp old
    obtain ⟨holder, there, same⟩ := stored.references other member
    obtain rfl := List.mem_singleton.mp new
    exact fun clash => fresh holder there (same.trans (clash.trans own))
  references other member := by
    rcases List.mem_append.mp member with old | new
    · obtain ⟨holder, there, same⟩ := stored.references other old
      exact ⟨holder, List.mem_append_left _ there, same⟩
    · exact ⟨row, List.mem_append_right _ (.head _), (List.mem_singleton.mp new ▸ own).symm⟩
  oneLive a left b right schoolId holdsA holdsB := by
    rcases List.mem_append.mp left with oldA | newA <;>
      rcases List.mem_append.mp right with oldB | newB
    · exact stored.oneLive a oldA b oldB schoolId holdsA holdsB
    · obtain rfl := List.mem_singleton.mp newB
      exact absurd holdsA (alone a oldA schoolId holdsB.1)
    · obtain rfl := List.mem_singleton.mp newA
      exact absurd holdsB (alone b oldB schoolId holdsA.1)
    · rw [List.mem_singleton.mp newA, List.mem_singleton.mp newB]

theorem Stored.activate (stored : tables.Stored nextTenant)
    (pending : ∀ row ∈ tables.tenants, row.id = tenantId → row.status = .pending)
    : (tables.activate tenantId).Stored nextTenant where
  ids := by
    have same : (tables.activate tenantId).tenants.map (·.id) = tables.tenants.map (·.id) := by
      rw [SignupTables.activate, List.map_map]
      refine List.map_congr_left fun row _ => ?_
      rw [Function.comp_apply]
      split <;> rfl
    exact same ▸ stored.ids
  drawn row member := by
    obtain ⟨row', there, same, _⟩ := of_mem_activate pending member
    exact same ▸ stored.drawn row' there
  signupIds := stored.signupIds.sublist (List.filter_sublist.map _)
  references signup member := by
    obtain ⟨row, there, same⟩ := stored.references signup (mem_signups_activate.mp member).1
    refine ⟨_, mem_tenants_activate.mpr ⟨row, there, rfl⟩, ?_⟩
    split <;> exact same
  oneLive a left b right schoolId holdsA holdsB := by
    obtain ⟨a', thereA, sameA, schoolA, liveA, _⟩ := of_mem_activate pending left
    obtain ⟨b', thereB, sameB, schoolB, liveB, _⟩ := of_mem_activate pending right
    rw [← sameA, ← sameB]
    exact stored.oneLive a' thereA b' thereB schoolId ⟨schoolA.trans holdsA.1, liveA holdsA.2⟩
      ⟨schoolB.trans holdsB.1, liveB holdsB.2⟩

end SignupTables

section

variable [OsloZone] {hash : Email → Int} {s : SignupState} {id other tenantId : Nat}
  {u v next : SignupTx} {tables after : SignupTables}

-----------------------------------------------------------------------------------------
-- What each transaction relies on

namespace SignupTx

/-- The rows are as the transaction has found or left them. -/
structure Fits (clock : Timestamp) (nextTenant : Nat) (tables : SignupTables) (u : SignupTx)
    : Prop where
  read : u.moment.now ≤ clock
  held : ∀ tenantId ∈ u.holds, ∃ row ∈ tables.tenants, row.id = tenantId ∧ row.status = .pending
  counted : ∀ signup, u.counted = some signup →
    (tables.without u.deleted).pendingSignups signup.registrantEmail u.moment.now
      < maxPendingSignupsPerAddress
  placed : ∀ new, u.inserted = some new → new.id < nextTenant
    ∧ ∀ row ∈ tables.tenants, row.id ≠ new.id
        ∧ ∀ schoolId, new.schoolId = some schoolId → row.Holds schoolId → row.id ∈ u.deleted
  admitted : ∀ tenantId activation, u.call = .activate tenantId activation →
    u.phase = .activates tenantId →
      ∃ signup ∈ tables.signups, signup.tenantId = tenantId ∧ u.moment.now < signup.expiresAt
        ∧ signup.registrantEmail = activation.registrant

/-- Two transactions hold no row, no address and no school both. -/
structure Apart (hash : Email → Int) (u v : SignupTx) : Prop where
  rows : ∀ tenantId ∈ u.holds, tenantId ∉ v.holds
  addresses : ∀ key, u.addressLock hash = some key → v.addressLock hash ≠ some key
  schools : ∀ new, u.inserted = some new → ∀ new', v.inserted = some new' →
    new.id ≠ new'.id ∧ new.schoolId ≠ new'.schoolId

theorem Apart.symm (apart : u.Apart hash v) : v.Apart hash u where
  rows tenantId mine yours := apart.rows tenantId yours mine
  addresses key mine yours := apart.addresses key yours mine
  schools new mine new' yours :=
    ⟨(apart.schools new' yours new mine).1.symm, (apart.schools new' yours new mine).2.symm⟩

theorem mem_holds_of_deleted (deleted : tenantId ∈ u.deleted) : tenantId ∈ u.holds := by
  unfold holds
  split
  · exact .tail _ deleted
  · exact .tail _ deleted
  · exact deleted

/-- Whoever counts holds the lock of the address that was counted. -/
theorem addressLock_of_counted {signup : PendingSignup} (counted : u.counted = some signup)
    : u.addressLock hash = some (hash signup.registrantEmail) := by
  obtain ⟨call, moment, phase, deleted⟩ := u
  cases call with
  | create => cases phase <;> cases counted <;> rfl
  | activate | expire => cases counted

end SignupTx

-----------------------------------------------------------------------------------------
-- What a statement changes

theorem of_tenant? {tenant : Tenant} (found : s.tenant? tenantId = some tenant)
    : ∃ row ∈ s.tables.tenants, row.id = tenantId ∧ row.toTenant = tenant := by
  obtain ⟨row, holds, same⟩ := Option.map_eq_some_iff.mp found
  obtain ⟨member, own⟩ := of_findRow holds
  exact ⟨row, member, own, same⟩

theorem of_signup? {signup : TenantSignup} (found : s.signup? tenantId = some signup)
    : ∃ row ∈ s.tables.signups, row.tenantId = tenantId ∧ row.toTenantSignup = signup := by
  obtain ⟨row, holds, same⟩ := Option.map_eq_some_iff.mp found
  obtain ⟨member, own⟩ := of_findRow holds
  exact ⟨row, member, own, same⟩

theorem admitTenant_eq_ok {tenant? : Option Tenant} {tenant : Tenant}
    : admitTenant tenant? = .ok tenant
      ↔ tenant? = some tenant ∧ tenant.status = .pending ∧ tenant.frozen = false := by
  cases tenant? with
  | none => simp [admitTenant]
  | some state =>
      simp only [admitTenant, Option.some.injEq]
      constructor
      · intro admitted
        split at admitted
        · cases admitted
        · next pending =>
            split at admitted
            · cases admitted
            · next open_ =>
                cases admitted
                exact ⟨rfl, not_not.mp pending, Bool.eq_false_iff.mpr open_⟩
      · rintro ⟨rfl, pending, notFrozen⟩
        simp [pending, notFrozen]

theorem admitSignup_eq_ok {signup? : Option TenantSignup} {signup : TenantSignup}
    {registrant : Email} {moment : Moment}
    : admitSignup signup? registrant moment = .ok signup
      ↔ signup? = some signup ∧ moment.now < signup.expiresAt
        ∧ signup.registrantEmail = registrant
        ∧ (Period.new moment.today signup.adminEndsOnExclusive).isSome := by
  cases signup? with
  | none => simp [admitSignup]
  | some form =>
      simp only [admitSignup, Option.some.injEq]
      constructor
      · intro admitted
        split at admitted
        · cases admitted
        next unexpired =>
        split at admitted
        · cases admitted
        next registrant =>
        split at admitted
        · cases admitted
        next period =>
          cases admitted
          exact ⟨rfl, Int.not_le.mp unexpired, not_not.mp registrant, period ▸ rfl⟩
      · rintro ⟨rfl, unexpired, rfl, period⟩
        obtain ⟨made, same⟩ := Option.isSome_iff_exists.mp period
        simp [Int.not_le.mpr unexpired, same]

namespace SignupStatement

variable (statement : SignupStatement hash s id u next)
include statement

theorem moment_eq : next.moment = u.moment := by
  cases statement <;> rfl

theorem call_eq : next.call = u.call := by
  cases statement <;> rfl

/-- A statement locks only a free row of a pending tenant. -/
theorem holds (held : tenantId ∈ next.holds)
    : tenantId ∈ u.holds
      ∨ s.Free id tenantId ∧ ∃ row ∈ s.tables.tenants, row.id = tenantId
          ∧ row.status = .pending := by
  cases statement with
  | @deletes _ _ _ _ row _ free there pending _ =>
      rcases List.mem_cons.mp held with rfl | before
      · exact .inr ⟨free, row, there, rfl, pending⟩
      · exact .inl before
  | locksTenant free admits =>
      rcases List.mem_cons.mp held with rfl | before
      · obtain ⟨found, pending, _⟩ := admitTenant_eq_ok.mp admits
        obtain ⟨row, there, own, rfl⟩ := of_tenant? found
        exact .inr ⟨free, row, there, own, pending⟩
      · exact .inl before
  | findsExpired first =>
      rcases first with ⟨rfl, rfl⟩ | ⟨_, rfl⟩
      · exact .inl held
      · exact .inl held
  | finds reads _ =>
      rcases reads with rfl | ⟨_, rfl⟩
      · exact .inl held
      · exact .inl held
  | _ => exact .inl held

/-- A statement locks only a free address. -/
theorem addressLock {key : Int} (locked : next.addressLock hash = some key)
    : u.addressLock hash = some key
      ∨ ∀ other v, other ≠ id → s.calls other = some v → v.addressLock hash ≠ some key := by
  cases statement with
  | locksAddress _ free => cases locked; exact .inr free
  | findsExpired first =>
      rcases first with ⟨rfl, rfl⟩ | ⟨⟨_, rfl⟩, rfl⟩
      · cases locked
      · exact .inl locked
  | finds reads _ =>
      rcases reads with rfl | ⟨_, rfl⟩
      · exact .inl locked
      · exact .inl locked
  | @deletes call | @skips call =>
      cases call with
      | create => exact .inl locked
      | activate | expire => cases locked
  | _ => exact .inl locked

/-- An address counts as below its limit once it has been counted, and the transaction deletes
nothing from then on.
-/
theorem counted {signup : PendingSignup} (counted : next.counted = some signup)
    : u.counted = some signup ∧ next.deleted = u.deleted
      ∨ (s.tables.without next.deleted).pendingSignups signup.registrantEmail next.moment.now
          < maxPendingSignupsPerAddress := by
  cases statement with
  | counts fewer => cases counted; exact .inr fewer
  | inserts | conflicts | retries => exact .inl ⟨counted, rfl⟩
  | @findsExpired call | @deletes call | @skips call => cases call <;> cases counted
  | _ => cases counted

/-- The tenant that a statement inserts has a new id, and the school is free. -/
theorem inserted {new : FauRow} (inserted : next.inserted = some new)
    : new.id = s.nextTenant ∧ ∃ schoolId, new.schoolId = some schoolId
        ∧ (s.tables.without next.deleted).liveTenantForSchool schoolId = none
        ∧ ∀ other v, other ≠ id → s.calls other = some v →
            ∀ row, v.inserted = some row → row.schoolId ≠ some schoolId := by
  cases statement with
  | inserts none alone => cases inserted; exact ⟨rfl, _, rfl, none, alone⟩
  | _ => cases inserted

/-- A statement admits an activation by the signup it reads. -/
theorem admitted {activation : Activation} (call : next.call = .activate tenantId activation)
    (phase : next.phase = .activates tenantId)
    : ∃ signup ∈ s.tables.signups, signup.tenantId = tenantId
        ∧ next.moment.now < signup.expiresAt
        ∧ signup.registrantEmail = activation.registrant := by
  cases statement with
  | readsSignup admits =>
      cases call
      obtain ⟨found, unexpired, registrant, _⟩ := admitSignup_eq_ok.mp admits
      obtain ⟨row, there, own, rfl⟩ := of_signup? found
      exact ⟨row, there, own, unexpired, registrant⟩
  | _ => cases phase

end SignupStatement

-----------------------------------------------------------------------------------------
-- The invariant

namespace SignupState

/-- The tables keep their constraints and the limit, and every transaction finds what it relies
on.
-/
structure Sound (hash : Email → Int) (s : SignupState) : Prop where
  stored : s.tables.Stored s.nextTenant
  limited : ∀ email,
    s.tables.pendingSignups email s.clock ≤ maxPendingSignupsPerAddress
  fits : ∀ id u, s.calls id = some u → u.Fits s.clock s.nextTenant s.tables
  apart : ∀ id u, s.calls id = some u → ∀ other v, other ≠ id → s.calls other = some v →
    u.Apart hash v
  numbered : ∀ id, s.nextCall ≤ id → s.calls id = none

/-- A tenant that a transaction has locked is pending. -/
theorem Sound.pending (sound : s.Sound hash) (under : s.calls id = some u)
    (held : tenantId ∈ u.holds)
    : ∀ row ∈ s.tables.tenants, row.id = tenantId → row.status = .pending := by
  rintro row there rfl
  obtain ⟨row', there', same, pending⟩ := (sound.fits id u under).held row.id held
  exact sound.stored.eq_of_id there' there same ▸ pending

end SignupState

/-- After a statement, the transaction finds what it relies on. -/
theorem SignupStatement.fits (statement : SignupStatement hash s id u next)
    (sound : s.Sound hash) (under : s.calls id = some u)
    : next.Fits s.clock (s.nextTenant + 1) s.tables := by
  have before := sound.fits id u under
  refine ⟨?_, ?_, ?_, ?_, ?_⟩
  · rw [statement.moment_eq]
    exact before.read
  · intro tenantId held
    rcases statement.holds held with was | ⟨_, found⟩
    · exact before.held tenantId was
    · exact found
  · intro signup counted
    rcases statement.counted counted with ⟨was, same⟩ | fewer
    · rw [same, statement.moment_eq]
      exact before.counted signup was
    · exact fewer
  · intro new inserted
    obtain ⟨drawn, schoolId, school, none, _⟩ := statement.inserted inserted
    refine ⟨drawn ▸ Nat.lt_succ_self _, fun row there => ⟨?_, fun wanted named holds => ?_⟩⟩
    · exact drawn ▸ Nat.ne_of_lt (sound.stored.drawn row there)
    · obtain rfl := Option.some.inj (school.symm.trans named)
      by_contra kept
      exact SignupTables.not_holds_of_none none
        (SignupTables.mem_tenants_without.mpr ⟨there, kept⟩) holds
  · intro tenantId activation call phase
    exact statement.admitted call phase

/-- After a statement, the transaction is still apart from all others. -/
theorem SignupStatement.apart (statement : SignupStatement hash s id u next)
    (sound : s.Sound hash) (under : s.calls id = some u) (different : other ≠ id)
    (others : s.calls other = some v)
    : next.Apart hash v := by
  have before := sound.apart id u under other v different others
  refine ⟨?_, ?_, ?_⟩
  · intro tenantId held
    rcases statement.holds held with was | ⟨free, _⟩
    · exact before.rows tenantId was
    · exact free other v different others
  · intro key locked
    rcases statement.addressLock locked with was | free
    · exact before.addresses key was
    · exact free other v different others
  · intro new inserted new' inserted'
    obtain ⟨drawn, schoolId, school, _, alone⟩ := statement.inserted inserted
    have known := ((sound.fits other v others).placed new' inserted').1
    exact ⟨drawn ▸ Nat.ne_of_gt known,
      school ▸ (alone other v different others new' inserted').symm⟩

-----------------------------------------------------------------------------------------
-- Commits

/-- A commit of the other tables leaves the transaction what it relies on. -/
structure SignupTables.Spares (v : SignupTx) (tables after : SignupTables) : Prop where
  held : ∀ row ∈ tables.tenants, row.id ∈ v.holds → row ∈ after.tenants
  signups : ∀ signup ∈ tables.signups, signup.tenantId ∈ v.holds → signup ∈ after.signups
  counted : ∀ signup, v.counted = some signup →
    (after.without v.deleted).pendingSignups signup.registrantEmail v.moment.now
      ≤ (tables.without v.deleted).pendingSignups signup.registrantEmail v.moment.now
  placed : ∀ new, v.inserted = some new → ∀ row ∈ after.tenants,
    (∃ row' ∈ tables.tenants, row'.id = row.id
        ∧ ∀ schoolId, row.Holds schoolId → row'.Holds schoolId)
      ∨ row.id ≠ new.id ∧ row.schoolId ≠ new.schoolId

theorem SignupTx.Fits.spared {clock : Timestamp} {nextTenant : Nat}
    (fits : v.Fits clock nextTenant tables) (spares : tables.Spares v after)
    : v.Fits clock nextTenant after where
  read := fits.read
  held tenantId held := by
    obtain ⟨row, there, rfl, pending⟩ := fits.held tenantId held
    exact ⟨row, spares.held row there held, rfl, pending⟩
  counted signup counted :=
    Nat.lt_of_le_of_lt (spares.counted signup counted) (fits.counted signup counted)
  placed new inserted := by
    obtain ⟨drawn, others⟩ := fits.placed new inserted
    refine ⟨drawn, fun row there => ?_⟩
    rcases spares.placed new inserted row there with ⟨row', there', same, holds⟩ | ⟨ids, schools⟩
    · obtain ⟨fresh, deletes⟩ := others row' there'
      exact ⟨same ▸ fresh, fun schoolId school live =>
        same ▸ deletes schoolId school (holds schoolId live)⟩
    · exact ⟨ids, fun schoolId school live => absurd (live.1.trans school.symm) schools⟩
  admitted tenantId activation call phase := by
    obtain ⟨signup, there, own, admitted⟩ := fits.admitted tenantId activation call phase
    refine ⟨signup, spares.signups signup there ?_, own, admitted⟩
    simp [SignupTx.holds, phase, own]

namespace SignupTables

variable {middle : SignupTables} {deleted : List Nat} {row : FauRow} {signup : SignupRow}

theorem Spares.refl : tables.Spares v tables where
  held _ there _ := there
  signups _ there _ := there
  counted _ _ := Nat.le_refl _
  placed _ _ row there := .inl ⟨row, there, rfl, fun _ => id⟩

theorem Spares.without (apart : ∀ tenantId ∈ deleted, tenantId ∉ v.holds)
    : tables.Spares v (tables.without deleted) where
  held row there held := mem_tenants_without.mpr ⟨there, fun gone => apart _ gone held⟩
  signups signup there held := mem_signups_without.mpr ⟨there, fun gone => apart _ gone held⟩
  counted signup _ := by
    refine pendingSignups_mono (List.filter_sublist.filter _) (fun row there pending => ?_)
      (Int.le_refl _)
    obtain ⟨inner, kept⟩ := mem_tenants_without.mp there
    exact ⟨row, mem_tenants_without.mpr ⟨(mem_tenants_without.mp inner).1, kept⟩, rfl, pending⟩
  placed _ _ row there := .inl ⟨row, (mem_tenants_without.mp there).1, rfl, fun _ => id⟩

theorem Spares.trans_place (spares : tables.Spares v middle)
    (references : ∀ other ∈ middle.signups, other.tenantId ≠ row.id)
    (own : signup.tenantId = row.id)
    (addresses : ∀ counted, v.counted = some counted →
      signup.registrantEmail ≠ counted.registrantEmail)
    (schools : ∀ new, v.inserted = some new → row.id ≠ new.id ∧ row.schoolId ≠ new.schoolId)
    : tables.Spares v (middle.place row signup) where
  held other there held := List.mem_append_left _ (spares.held other there held)
  signups other there held := List.mem_append_left _ (spares.signups other there held)
  counted counted isCounted :=
    Nat.le_trans
      (pendingSignups_place_without_le references own (addresses counted isCounted))
      (spares.counted counted isCounted)
  placed new inserted other there := by
    rcases List.mem_append.mp there with old | added
    · exact spares.placed new inserted other old
    · exact .inr (List.mem_singleton.mp added ▸ schools new inserted)

theorem Spares.activate (apart : tenantId ∉ v.holds)
    (pending : ∀ row ∈ tables.tenants, row.id = tenantId → row.status = .pending)
    : tables.Spares v (tables.activate tenantId) where
  held other there held := by
    refine mem_tenants_activate.mpr ⟨other, there, if_neg fun same => ?_⟩
    exact apart (same ▸ held)
  signups other there held :=
    mem_signups_activate.mpr ⟨there, fun same => apart (same ▸ held)⟩
  counted counted _ := by
    refine pendingSignups_mono (List.filter_sublist.filter _) (fun other there waits => ?_)
      (Int.le_refl _)
    obtain ⟨inner, kept⟩ := mem_tenants_without.mp there
    obtain ⟨other', there', same, _, _, before⟩ := of_mem_activate pending inner
    exact ⟨other', mem_tenants_without.mpr ⟨there', same ▸ kept⟩, same, before waits⟩
  placed _ _ other there := by
    obtain ⟨other', there', same, school, live, _⟩ := of_mem_activate pending there
    exact .inl ⟨other', there', same, fun schoolId held =>
      ⟨school.trans held.1, live held.2⟩⟩

end SignupTables

/-- A call leaves the tables as they are, deletes what it has deleted, places the tenant that it
has inserted with the signup that it has counted, or activates the tenant that it has admitted.
-/
theorem SignupEnds.cases {outcome : SignupOutcome} (ends : SignupEnds s id u outcome after)
    : after = s.tables ∨ after = s.tables.without u.deleted
      ∨ (∃ row signup counted, u.inserted = some row ∧ u.counted = some counted
          ∧ signup.registrantEmail = counted.registrantEmail ∧ signup.tenantId = row.id
          ∧ after = (s.tables.without u.deleted).place row signup)
      ∨ ∃ tenantId, u.phase = .activates tenantId ∧ after = s.tables.activate tenantId := by
  cases ends with
  | records | expires => exact .inr (.inl rfl)
  | fills => exact .inr (.inr (.inl ⟨_, _, _, rfl, rfl, rfl, rfl, rfl⟩))
  | activates => exact .inr (.inr (.inr ⟨_, rfl, rfl⟩))
  | _ => exact .inl rfl

namespace SignupState

variable {outcome : SignupOutcome}

/-- The tenant that a transaction has inserted is not in the tables yet. -/
theorem Sound.references (sound : s.Sound hash) (under : s.calls id = some u) {row : FauRow}
    (inserted : u.inserted = some row)
    : ∀ signup ∈ (s.tables.without u.deleted).signups, signup.tenantId ≠ row.id := by
  intro signup there same
  obtain ⟨holder, found, own⟩ :=
    sound.stored.references signup (SignupTables.mem_signups_without.mp there).1
  exact (((sound.fits id u under).placed row inserted).2 holder found).1 (own.trans same)

/-- A tenant that a transaction activates is pending. -/
theorem Sound.pending_of_phase (sound : s.Sound hash) (under : s.calls id = some u)
    (phase : u.phase = .activates tenantId)
    : ∀ row ∈ s.tables.tenants, row.id = tenantId → row.status = .pending :=
  sound.pending under (by simp [SignupTx.holds, phase])

theorem Sound.spares (sound : s.Sound hash) (under : s.calls id = some u)
    (ends : SignupEnds s id u outcome after) (different : other ≠ id)
    (others : s.calls other = some v)
    : s.tables.Spares v after := by
  have apart := sound.apart id u under other v different others
  have deletes : s.tables.Spares v (s.tables.without u.deleted) :=
    .without fun tenantId deleted =>
      apart.rows tenantId (SignupTx.mem_holds_of_deleted deleted)
  rcases ends.cases with rfl | rfl | ⟨row, signup, counted, inserted, counts, email, own, rfl⟩
    | ⟨tenantId, phase, rfl⟩
  · exact .refl
  · exact deletes
  · refine deletes.trans_place (sound.references under inserted) own ?_ (apart.schools row inserted)
    intro counted' counts' same
    have locked : u.addressLock hash = some (hash counted.registrantEmail) :=
      SignupTx.addressLock_of_counted counts
    refine apart.addresses _ locked ?_
    rw [SignupTx.addressLock_of_counted counts', ← same, email]
  · refine .activate (apart.rows tenantId ?_) (sound.pending_of_phase under phase)
    simp [SignupTx.holds, phase]

theorem Sound.stored_after (sound : s.Sound hash) (under : s.calls id = some u)
    (ends : SignupEnds s id u outcome after)
    : after.Stored s.nextTenant := by
  rcases ends.cases with rfl | rfl | ⟨row, signup, counted, inserted, counts, email, own, rfl⟩
    | ⟨tenantId, phase, rfl⟩
  · exact sound.stored
  · exact sound.stored.without
  · obtain ⟨drawn, others⟩ := (sound.fits id u under).placed row inserted
    refine sound.stored.without.place drawn (fun holder there => ?_) own
      fun holder there schoolId school holds => ?_
    · exact (others holder (SignupTables.mem_tenants_without.mp there).1).1
    · obtain ⟨found, kept⟩ := SignupTables.mem_tenants_without.mp there
      exact kept ((others holder found).2 schoolId school holds)
  · exact sound.stored.activate (sound.pending_of_phase under phase)

/-- The limit holds after a commit: whoever places a signup has counted below it, with every
signup expired that is expired by now.
-/
theorem Sound.limited_after (sound : s.Sound hash) (under : s.calls id = some u)
    (ends : SignupEnds s id u outcome after) (email : Email)
    : after.pendingSignups email s.clock ≤ maxPendingSignupsPerAddress := by
  have fewer : (s.tables.without u.deleted).pendingSignups email s.clock
      ≤ maxPendingSignupsPerAddress :=
    Nat.le_trans (SignupTables.pendingSignups_without_le (Int.le_refl _)) (sound.limited email)
  rcases ends.cases with rfl | rfl | ⟨row, signup, counted, inserted, counts, own, _, rfl⟩
    | ⟨tenantId, phase, rfl⟩
  · exact sound.limited email
  · exact fewer
  · refine Nat.le_trans (SignupTables.pendingSignups_place_le (sound.references under inserted)) ?_
    have fits := sound.fits id u under
    by_cases mine : signup.registrantEmail = email
    · have below := fits.counted counted counts
      have aged : (s.tables.without u.deleted).pendingSignups email s.clock
          ≤ (s.tables.without u.deleted).pendingSignups email u.moment.now :=
        SignupTables.pendingSignups_mono (.refl _) (fun row there waits => ⟨row, there, rfl, waits⟩)
          fits.read
      rw [← own, mine] at below
      rw [if_pos mine]
      omega
    · rwa [if_neg mine]
  · exact Nat.le_trans
      (SignupTables.pendingSignups_activate_le (sound.pending_of_phase under phase))
      (sound.limited email)

end SignupState

-----------------------------------------------------------------------------------------
-- Steps

/-- The system of all calls, from tables that keep the schema's constraints and the limit. -/
def signupSystem (hash : Email → Int) : EventSystem SignupState SignupEvent where
  start s := s.calls = .empty ∧ s.tables.Stored s.nextTenant
    ∧ ∀ email, s.tables.pendingSignups email s.clock ≤ maxPendingSignupsPerAddress
  step := SignupStep hash

theorem SignupTx.Fits.later {clock clock' : Timestamp} {nextTenant nextTenant' : Nat}
    (fits : u.Fits clock nextTenant tables) (order : clock ≤ clock')
    (drawn : nextTenant ≤ nextTenant')
    : u.Fits clock' nextTenant' tables :=
  { fits with
    read := Int.le_trans fits.read order
    placed := fun new inserted =>
      ⟨Nat.lt_of_lt_of_le (fits.placed new inserted).1 drawn, (fits.placed new inserted).2⟩ }

/-- A call that has not begun relies on nothing and holds nothing. -/
theorem SignupTx.fits_begins {call : SignupCall} {moment : Moment} {clock : Timestamp}
    {nextTenant : Nat} (read : moment.now ≤ clock)
    : SignupTx.Fits clock nextTenant tables ⟨call, moment, .begins, []⟩ where
  read := read
  held _ held := by cases held
  counted _ counted := by cases call <;> cases counted
  placed _ inserted := by cases inserted
  admitted _ _ _ phase := by cases phase

theorem SignupTx.apart_begins {call : SignupCall} {moment : Moment}
    : SignupTx.Apart hash ⟨call, moment, .begins, []⟩ v where
  rows _ held := by cases held
  addresses _ locked := by cases call <;> cases locked
  schools _ inserted := by cases inserted

namespace SignupState

variable {event : SignupEvent} {later : SignupState}

/-- A call may end, leaving the others what they rely on. -/
theorem Sound.erased (sound : s.Sound hash) (stored : after.Stored s.nextTenant)
    (limited : ∀ email, after.pendingSignups email s.clock ≤ maxPendingSignupsPerAddress)
    (spares : ∀ other v, other ≠ id → s.calls other = some v → s.tables.Spares v after)
    : Sound hash ⟨s.clock, after, s.calls.erase id, s.nextCall, s.nextTenant⟩ where
  stored := stored
  limited := limited
  fits other v found := by
    obtain ⟨different, found⟩ := Lookup.erase_eq_some.mp found
    exact (sound.fits other v found).spared (spares other v different found)
  apart other v found third w different found' :=
    sound.apart other v (Lookup.erase_eq_some.mp found).2 third w different
      (Lookup.erase_eq_some.mp found').2
  numbered other above := Lookup.erase_eq_none (sound.numbered other above)

/-- A transaction may be replaced by one that fits and is apart from the others. -/
theorem Sound.inserted (sound : s.Sound hash) {nextCall nextTenant : Nat}
    (drawn : s.nextTenant ≤ nextTenant) (numbered : s.nextCall ≤ nextCall) (below : id < nextCall)
    (fits : next.Fits s.clock nextTenant s.tables)
    (apart : ∀ other v, other ≠ id → s.calls other = some v → next.Apart hash v)
    : Sound hash ⟨s.clock, s.tables, s.calls.insert id next, nextCall, nextTenant⟩ where
  stored := sound.stored.drawing drawn
  limited := sound.limited
  fits other v found := by
    rcases Lookup.insert_eq_some.mp found with ⟨rfl, rfl⟩ | ⟨_, found⟩
    · exact fits
    · exact (sound.fits other v found).later (Int.le_refl _) drawn
  apart other v found third w different found' := by
    rcases Lookup.insert_eq_some.mp found with ⟨rfl, rfl⟩ | ⟨another, found⟩ <;>
      rcases Lookup.insert_eq_some.mp found' with ⟨same, rfl⟩ | ⟨_, found'⟩
    · exact absurd same different
    · exact apart third w different found'
    · exact (apart other v (same ▸ another) found).symm
    · exact sound.apart other v found third w different found'
  numbered other above := by
    have above : nextCall ≤ other := above
    exact (Lookup.insert_of_ne _ _ (by omega)).trans (sound.numbered other (by omega))

theorem Sound.step (sound : s.Sound hash) (stepped : SignupStep hash s event later)
    : later.Sound hash := by
  cases stepped with
  | passes order =>
      exact {
        stored := sound.stored
        limited := fun email =>
          Nat.le_trans
            (SignupTables.pendingSignups_mono (.refl _)
              (fun row there waits => ⟨row, there, rfl, waits⟩) order)
            (sound.limited email)
        fits := fun id u under => (sound.fits id u under).later order (Nat.le_refl _)
        apart := sound.apart
        numbered := sound.numbered }
  | begins read =>
      exact sound.inserted (Nat.le_refl _) (Nat.le_succ _) (Nat.lt_succ_self _)
        (SignupTx.fits_begins read) fun _ _ _ _ => SignupTx.apart_begins
  | @proceeds id u next under statement =>
      have given : id < s.nextCall := by
        by_contra above
        rw [sound.numbered id (Nat.not_lt.mp above)] at under
        cases under
      exact sound.inserted (Nat.le_succ _) (Nat.le_refl _) given (statement.fits sound under)
        fun _ _ different others => statement.apart sound under different others
  | returns under ends =>
      exact sound.erased (sound.stored_after under ends) (sound.limited_after under ends)
        fun _ _ => sound.spares under ends
  | aborts => exact sound.erased sound.stored sound.limited fun _ _ _ _ => .refl

theorem reachable_sound (reached : (signupSystem hash).Reachable s) : s.Sound hash := by
  refine reached.keeps (I := Sound hash) ?_ fun s event after sound stepped => sound.step stepped
  rintro s ⟨idle, stored, limited⟩
  refine ⟨stored, limited, ?_, ?_, fun id _ => idle ▸ rfl⟩
  · intro id u under
    rw [idle] at under
    cases under
  · intro id u under
    rw [idle] at under
    cases under

-----------------------------------------------------------------------------------------
-- Activated FAUs

/-- The FAU has been activated. -/
def HasActive (s : SignupState) (tenantId : Nat) : Prop :=
  ∃ row ∈ s.tables.tenants, row.id = tenantId ∧ row.status = .active

/-- No transaction deletes an active FAU: what it deletes it holds, and that is pending. -/
theorem Sound.active_step (sound : s.Sound hash) (stepped : SignupStep hash s event later)
    (active : s.HasActive tenantId)
    : later.HasActive tenantId := by
  cases stepped with
  | passes | begins | proceeds | aborts => exact active
  | @returns id u outcome after under ends =>
      obtain ⟨row, there, rfl, status⟩ := active
      have kept : row ∈ (s.tables.without u.deleted).tenants := by
        refine SignupTables.mem_tenants_without.mpr ⟨there, fun deleted => ?_⟩
        have held := SignupTx.mem_holds_of_deleted deleted
        have pending := sound.pending under held row there rfl
        rw [status] at pending
        cases pending
      rcases ends.cases with same | same | ⟨_, _, _, _, _, _, _, same⟩ | ⟨tenantId, _, same⟩
        <;> obtain rfl := same
      · exact ⟨row, there, rfl, status⟩
      · exact ⟨row, kept, rfl, status⟩
      · exact ⟨row, List.mem_append_left _ kept, rfl, status⟩
      · refine ⟨_, SignupTables.mem_tenants_activate.mpr ⟨row, there, rfl⟩, ?_⟩
        split
        · exact ⟨rfl, rfl⟩
        · exact ⟨rfl, status⟩

/-- An FAU that has been activated stays so along every run. -/
theorem active_of_run {events : List SignupEvent} (reached : (signupSystem hash).Reachable s)
    (run : (signupSystem hash).Run s events later) (active : s.HasActive tenantId)
    : later.HasActive tenantId :=
  run.keeps (P := (HasActive · tenantId))
    (fun _ _ _ reached active stepped => (reachable_sound reached).active_step stepped active)
    reached active

/-- The call activates the FAU in this step. -/
def Activates (hash : Email → Int) (s : SignupState) (id : Nat) (moment : Moment)
    (tenantId : Nat) (activation : Activation) (after : SignupState) : Prop :=
  SignupStep hash s (.returns id .activated) after
    ∧ ∃ u, s.calls id = some u ∧ u.call = .activate tenantId activation ∧ u.moment = moment

/-- An activation finds the FAU pending, its signup unexpired and the registrant's address that
of the signup, and makes it active.
-/
theorem Sound.activates {activation : Activation} {moment : Moment} (sound : s.Sound hash)
    (activates : Activates hash s id moment tenantId activation later)
    : (∃ row ∈ s.tables.tenants, row.id = tenantId ∧ row.status = .pending)
      ∧ (∃ signup ∈ s.tables.signups, signup.tenantId = tenantId
        ∧ moment.now < signup.expiresAt ∧ signup.registrantEmail = activation.registrant)
      ∧ later.HasActive tenantId := by
  obtain ⟨stepped, u, under, call, rfl⟩ := activates
  cases stepped with
  | @returns _ u' _ after under' ends =>
      obtain rfl := Option.some.inj (under'.symm.trans under)
      cases ends with
      | @activates tenantId activation moment =>
          cases call
          have fits := sound.fits id _ under
          obtain ⟨row, there, own, pending⟩ := fits.held tenantId (.head _)
          refine ⟨⟨row, there, own, pending⟩, fits.admitted tenantId activation rfl rfl, ?_⟩
          refine ⟨_, SignupTables.mem_tenants_activate.mpr ⟨row, there, rfl⟩, ?_⟩
          rw [if_pos own]
          exact ⟨own, rfl⟩

-----------------------------------------------------------------------------------------
-- Refusals

/-- While the signup was under way along the run, an FAU in this state held the school. -/
def HeldDuring (hash : Email → Int) (id : Nat) (signup : PendingSignup) (existing : ExistingFau)
    (first : SignupState) (events : List SignupEvent) (last : SignupState) : Prop :=
  ∃ earlier rest middle, events = earlier ++ rest
    ∧ (signupSystem hash).Run first earlier middle ∧ (signupSystem hash).Run middle rest last
    ∧ (∃ u, middle.calls id = some u ∧ u.call = .create signup)
    ∧ ∃ row ∈ middle.tables.tenants, row.schoolId = some signup.schoolId
        ∧ row.existing? = some existing

variable {signup : PendingSignup} {existing : ExistingFau} {first : SignupState}
  {events : List SignupEvent}

theorem HeldDuring.goesOn (held : HeldDuring hash id signup existing first events s)
    (stepped : SignupStep hash s event later)
    : HeldDuring hash id signup existing first (events ++ [event]) later := by
  obtain ⟨earlier, rest, middle, rfl, run, run', there⟩ := held
  exact ⟨earlier, rest ++ [event], middle, List.append_assoc .., run, .next run' stepped, there⟩

/-- The call is the signup still, and if it is about to be refused, an FAU held the school. -/
def Refusable (hash : Email → Int) (id : Nat) (signup : PendingSignup) (first : SignupState)
    (events : List SignupEvent) (s : SignupState) : Prop :=
  id < s.nextCall ∧ ∀ u, s.calls id = some u → u.call = .create signup
    ∧ ∀ existing, u.phase = .records existing →
        HeldDuring hash id signup existing first events s

/-- A statement that finds the school held reads a committed row of the FAU that holds it. -/
theorem of_records (statement : SignupStatement hash s id u next)
    (call : next.call = .create signup) (phase : next.phase = .records existing)
    : ∃ row ∈ s.tables.tenants, row.schoolId = some signup.schoolId
        ∧ row.existing? = some existing := by
  cases statement with
  | finds _ found =>
      cases call
      cases phase
      obtain ⟨row, there, _, school, holds⟩ := SignupTables.of_liveTenantForSchool found
      exact ⟨row, (SignupTables.mem_tenants_without.mp there).1, school, holds⟩
  | _ => cases phase

/-- Refusability is kept step by step: only a statement of the call itself can find the school
held, and it does so in the state it reads.
-/
theorem Refusable.step (run : (signupSystem hash).Run first events s)
    (refusable : Refusable hash id signup first events s)
    (stepped : SignupStep hash s event later)
    : Refusable hash id signup first (events ++ [event]) later := by
  obtain ⟨begun, mine⟩ := refusable
  have kept : ∀ u, s.calls id = some u → u.call = .create signup
      ∧ ∀ existing, u.phase = .records existing →
          HeldDuring hash id signup existing first (events ++ [event]) later :=
    fun u under => ⟨(mine u under).1, fun existing phase =>
      ((mine u under).2 existing phase).goesOn stepped⟩
  cases stepped with
  | passes => exact ⟨begun, kept⟩
  | begins read =>
      refine ⟨Nat.lt_succ_of_lt begun, fun u under => ?_⟩
      rcases Lookup.insert_eq_some.mp under with ⟨same, _⟩ | ⟨_, before⟩
      · exact absurd same (Nat.ne_of_lt begun)
      · exact kept u before
  | @proceeds other u' next under statement =>
      refine ⟨begun, fun u under' => ?_⟩
      rcases Lookup.insert_eq_some.mp under' with ⟨rfl, rfl⟩ | ⟨_, before⟩
      · have call := (mine u' under).1
        refine ⟨statement.call_eq.trans call, fun existing phase => ?_⟩
        exact ⟨events, [.proceeds id], s, rfl, run, .single (.proceeds under statement),
          ⟨u', under, call⟩, of_records statement (statement.call_eq.trans call) phase⟩
      · exact kept u before
  | returns | aborts =>
      exact ⟨begun, fun u under => kept u (Lookup.erase_eq_some.mp under).2⟩

theorem refusable_of_run {moment : Moment} {begun : SignupState}
    (begins : SignupStep hash s (.begins (.create signup) moment) begun)
    (run : (signupSystem hash).Run begun events later)
    : Refusable hash s.nextCall signup begun events later := by
  induction run with
  | done =>
      cases begins
      refine ⟨Nat.lt_succ_self _, fun u under => ?_⟩
      rcases Lookup.insert_eq_some.mp under with ⟨_, rfl⟩ | ⟨different, _⟩
      · exact ⟨rfl, fun existing phase => by cases phase⟩
      · exact absurd rfl different
  | next earlier stepped ih => exact ih.step earlier stepped

/-- A signup is refused for its school only if an FAU held the school while it was under way. -/
theorem heldDuring_of_refused {moment : Moment} {begun refused : SignupState}
    (begins : SignupStep hash s (.begins (.create signup) moment) begun)
    (run : (signupSystem hash).Run begun events later)
    (refuses : SignupStep hash later (.returns s.nextCall (.schoolTaken existing)) refused)
    : HeldDuring hash s.nextCall signup existing begun events later := by
  cases refuses with
  | returns under ends =>
      cases ends with
      | records =>
          obtain ⟨call, held⟩ := (refusable_of_run begins run).2 _ under
          cases call
          exact held existing rfl

end SignupState

-----------------------------------------------------------------------------------------
-- Signup races

/-- Whatever the order: one live FAU per school; at most three unexpired pending signups per
address; an activation in time and by the registrant, once; no activated FAU deleted; and no
refusal for a school that no FAU held meanwhile.
-/
theorem signup_races (reached : (signupSystem hash).Reachable s)
    : (∀ row ∈ s.tables.tenants, ∀ row' ∈ s.tables.tenants, ∀ schoolId,
        row.Holds schoolId → row'.Holds schoolId → row = row')
      ∧ (∀ email, s.tables.pendingSignups email s.clock ≤ maxPendingSignupsPerAddress)
      ∧ (∀ id moment tenantId activation after,
        s.Activates hash id moment tenantId activation after →
          (∃ signup ∈ s.tables.signups, signup.tenantId = tenantId
            ∧ moment.now < signup.expiresAt ∧ signup.registrantEmail = activation.registrant)
          ∧ ∀ events later id' moment' activation' final,
              (signupSystem hash).Run after events later →
                ¬later.Activates hash id' moment' tenantId activation' final)
      ∧ (∀ tenantId events later, s.HasActive tenantId →
        (signupSystem hash).Run s events later → later.HasActive tenantId)
      ∧ ∀ signup moment begun events later existing refused,
          SignupStep hash s (.begins (.create signup) moment) begun →
            (signupSystem hash).Run begun events later →
              SignupStep hash later (.returns s.nextCall (.schoolTaken existing)) refused →
                SignupState.HeldDuring hash s.nextCall signup existing begun events later := by
  have sound := SignupState.reachable_sound reached
  refine ⟨?_, sound.limited, ?_, ?_, ?_⟩
  · intro row there row' there' schoolId holds holds'
    exact sound.stored.eq_of_id there there'
      (sound.stored.oneLive row there row' there' schoolId holds holds')
  · intro id moment tenantId activation after activates
    obtain ⟨_, admitted, active⟩ := sound.activates activates
    refine ⟨admitted, fun events later id' moment' activation' final run again => ?_⟩
    have begun : (signupSystem hash).Reachable after := reached.step activates.1
    obtain ⟨row, there, own, status⟩ := SignupState.active_of_run begun run active
    have sound' := SignupState.reachable_sound (begun.run run)
    obtain ⟨⟨row', there', own', pending⟩, _⟩ := sound'.activates again
    obtain rfl := sound'.stored.eq_of_id there' there (own'.trans own.symm)
    rw [status] at pending
    cases pending
  · exact fun tenantId events later active run => SignupState.active_of_run reached run active
  · exact fun signup moment begun events later existing refused =>
      SignupState.heldDuring_of_refused

/-- The activation of one FAU, seen alone, admits the same tenant and signup. -/
theorem activateTenant_admits {activation : Activation} {moment : Moment} {activated : Activated}
    {tables after : Tables}
    (commits : (activateTenant activation moment).Commits tables activated after)
    : ∃ tenant signup, admitTenant tables.tenant = .ok tenant
        ∧ admitSignup tables.signup activation.registrant moment = .ok signup := by
  obtain ⟨path⟩ := activateTenant_commits commits
  have made : Period.new moment.today path.signup.adminEndsOnExclusive = some path.period :=
    Period.new_eq_some.mpr ⟨path.starts, path.ends⟩
  exact ⟨path.state, path.signup,
    admitTenant_eq_ok.mpr ⟨path.locked, path.pending, path.notFrozen⟩,
    admitSignup_eq_ok.mpr ⟨path.signedUp, path.unexpired, path.registrant, made ▸ rfl⟩⟩

end

-----------------------------------------------------------------------------------------
-- Two FAUs

section

attribute [local instance] OsloZone.atEpoch

/-- One FAU is active, and another waits for its registrant. -/
def twoFaus : SignupState where
  clock := 0
  tables :=
    ⟨[⟨⟨.active, false⟩, 0, "FAU ved Alna skole", some 1⟩,
      ⟨⟨.pending, false⟩, 1, "FAU ved Bakken skole", some 2⟩],
      [⟨⟨⟨"kari@example.no"⟩, ⟨"ola@example.no"⟩, .max, 10⟩, 1⟩]⟩
  calls := .empty
  nextCall := 0
  nextTenant := 2

theorem twoFaus_reachable : (signupSystem fun _ => 0).Reachable twoFaus := by
  refine .start ⟨rfl, ?_, fun email => ?_⟩
  · refine ⟨by decide, by decide, by decide, by decide, ?_⟩
    have schools : ∀ row ∈ twoFaus.tables.tenants, ∀ row' ∈ twoFaus.tables.tenants,
        row.schoolId = row'.schoolId → row.id = row'.id := by decide
    exact fun row there row' there' schoolId holds holds' =>
      schools row there row' there' (holds.1.trans holds'.1.symm)
  · exact Nat.le_trans (List.length_filter_le _ _) (by decide)

/-- The active one stays so, and the other may be activated at most once. -/
theorem twoFaus_races
    : (∀ events later, (signupSystem fun _ => 0).Run twoFaus events later → later.HasActive 0)
      ∧ ∀ email, twoFaus.tables.pendingSignups email 0 ≤ maxPendingSignupsPerAddress := by
  obtain ⟨_, limited, _, active, _⟩ := signup_races twoFaus_reachable
  exact ⟨fun events later run => active 0 events later ⟨_, .head _, rfl, rfl⟩ run, limited⟩

end

end FauPortalen.Membership
