import FauPortalen.Keys.SessionCache
import Mathlib.Algebra.Group.Int.Defs

/-! What logging out leaves in the cache. A release is final unless a `get` or `put` of what it
releases is under way, and neither other sessions nor sweeps take an active entry away.
-/

namespace FauPortalen.Keys

open Foundations

variable {idle : Int} {s after : CacheState} {event : CacheEvent} {events : List CacheEvent}
  {kind : Uuid × KeyUnit → Prop} {fresh : Nat} {wanted : Uuid × KeyUnit}

-----------------------------------------------------------------------------------------
-- Releases

/-- From here on no entry of the kind is in the cache, until a call numbered from `fresh` on has
inserted one.
-/
def StaysGone (idle : Int) (fresh : Nat) (kind : Uuid × KeyUnit → Prop) (s : CacheState) : Prop :=
  ∀ events later, (cacheSystem idle).Run s events later →
    (∀ event ∈ events, ¬event.PutsFresh fresh kind) →
      ∀ key, kind key → later.entries.lookup key = none

/-- No `get` or `put` under way may yet insert an entry of the kind. -/
def NoneUnderWay (kind : Uuid × KeyUnit → Prop) (s : CacheState) : Prop :=
  ∀ id call, (id, call) ∈ s.calls → ∀ key, call.target? = some key → ¬kind key

/-- Nothing of the kind is in the cache, and only calls numbered from `fresh` on may insert it. -/
structure Gone (fresh : Nat) (kind : Uuid × KeyUnit → Prop) (s : CacheState) : Prop where
  missing : ∀ key, kind key → s.entries.lookup key = none
  late : ∀ id call, (id, call) ∈ s.calls → ∀ key, call.target? = some key → kind key → fresh ≤ id
  numbered : fresh ≤ s.nextCall

/-- Every call has been given its number. -/
def Numbered (s : CacheState) : Prop := ∀ id call, (id, call) ∈ s.calls → id < s.nextCall

theorem mem_returns {id other : Nat} {call : Call} (h : (other, call) ∈ (s.returns id).calls)
    : (other, call) ∈ s.calls :=
  (List.mem_filter.mp h).1

theorem mem_goesOn {id other : Nat} {call next : Call}
    (h : (other, call) ∈ (s.goesOn id next).calls)
    : (other = id ∧ call = next) ∨ (other, call) ∈ s.calls := by
  rcases List.mem_cons.mp h with same | before
  · exact .inl (Prod.mk.inj same)
  · exact .inr (List.mem_filter.mp before).1

/-- The calls under way after a step: the new one, or one that was under way and has the same
entry to insert.
-/
theorem CacheStep.call (stepped : CacheStep idle s event after) {id : Nat} {call : Call}
    (under : (id, call) ∈ after.calls)
    : id = s.nextCall ∧ s.nextCall < after.nextCall
      ∨ ∃ before, (id, before) ∈ s.calls ∧ before.target? = call.target? := by
  have kept : ∀ {call}, (id, call) ∈ s.calls →
      ∃ before, (id, before) ∈ s.calls ∧ before.target? = call.target? :=
    fun h => ⟨_, h, rfl⟩
  cases stepped with
  | passes | releasesSession | releasesDocument => exact .inr (kept under)
  | opens _ =>
      rcases List.mem_cons.mp under with new | before
      · exact .inl ⟨(Prod.mk.inj new).1, Nat.lt_succ_self _⟩
      · exact .inr (kept before)
  | hits _ _ | fails _ | inserts _ | touches _ | sweeps _ =>
      exact .inr (kept (mem_returns under))
  | misses called _ | unwraps _ called =>
      rcases mem_goesOn under with ⟨rfl, rfl⟩ | before
      · exact .inr ⟨_, called, rfl⟩
      · exact .inr (kept before)

theorem CacheStep.nextCall_le (stepped : CacheStep idle s event after)
    : s.nextCall ≤ after.nextCall := by
  cases stepped with
  | opens => exact Nat.le_succ _
  | _ => exact Nat.le_refl _

theorem numbered_of_reachable (reached : (cacheSystem idle).Reachable s) : Numbered s := by
  refine reached.keeps (I := Numbered) ?_ ?_
  · rintro _ ⟨_, rfl⟩ _ _ under
    cases under
  · intro s event after numbered stepped id call under
    rcases CacheStep.call stepped under with ⟨rfl, given⟩ | ⟨before, known, -⟩
    · exact given
    · exact Nat.lt_of_lt_of_le (numbered _ _ known) (CacheStep.nextCall_le stepped)

/-- The entries after a step come from the cache or from the insertion that the step makes. -/
theorem CacheStep.missing (stepped : CacheStep idle s event after)
    (missing : s.entries.lookup wanted = none)
    : after.entries.lookup wanted = none
      ∨ ∃ id session unit key now, event = .locks id (.inserts session unit key now)
          ∧ (id, .inserts session unit key now) ∈ s.calls ∧ wanted = (session, unit) := by
  cases stepped with
  | passes | opens | misses | unwraps | fails => exact .inl missing
  | hits _ hit => exact .inl (by rw [Entries.lookup_of_lookUp hit, missing]; rfl)
  | @inserts id session unit key now called =>
      by_cases mine : wanted = (session, unit)
      · exact .inr ⟨id, session, unit, key, now, rfl, called, mine⟩
      · exact .inl ((Entries.lookup_put_of_ne mine).trans missing)
  | touches => exact .inl (by rw [Entries.lookup_touchSession, missing]; rfl)
  | sweeps | releasesSession | releasesDocument =>
      exact .inl (AssocMap.lookup_retain_of_none missing)

/-- What is gone stays gone through a step that puts nothing back. -/
theorem CacheStep.gone (stepped : CacheStep idle s event after) (gone : Gone fresh kind s)
    (puts : ¬event.PutsFresh fresh kind)
    : Gone fresh kind after where
  missing key named := by
    rcases stepped.missing (gone.missing key named) with none | found
    · exact none
    · obtain ⟨id, session, unit, _, now, rfl, called, rfl⟩ := found
      exact absurd ⟨gone.late _ _ called _ rfl named, named⟩ puts
  late id call under key target named := by
    rcases stepped.call under with ⟨rfl, -⟩ | ⟨before, known, same⟩
    · exact gone.numbered
    · exact gone.late id before known key (same.trans target) named
  numbered := Nat.le_trans gone.numbered stepped.nextCall_le

theorem Gone.staysGone (gone : Gone fresh kind s) : StaysGone idle fresh kind s := by
  intro events later run
  suffices stays : (∀ event ∈ events, ¬event.PutsFresh fresh kind) → Gone fresh kind later from
    fun puts => (stays puts).missing
  induction run with
  | done => exact fun _ => gone
  | next _ stepped ih =>
      intro puts
      have before := ih fun event mem => puts event (List.mem_append_left _ mem)
      exact CacheStep.gone stepped before (puts _ (List.mem_append_right _ (.head _)))

/-- The call can go on to insert the entry, with no other call putting anything back. -/
def CanInsert (idle : Int) (id : Nat) (key : Uuid × KeyUnit) (s : CacheState) : Prop :=
  ∃ events later, (cacheSystem idle).Run s events later
    ∧ (∀ event ∈ events, ∀ fresh kind, event.PutsFresh fresh kind → fresh ≤ id)
    ∧ (later.entries.lookup key).isSome

theorem CanInsert.of_step {id : Nat} (stepped : CacheStep idle s event after)
    (quiet : ∀ fresh kind, ¬event.PutsFresh fresh kind) (can : CanInsert idle id wanted after)
    : CanInsert idle id wanted s := by
  obtain ⟨events, later, run, puts, found⟩ := can
  refine ⟨_, later, .trans (.single stepped) run, ?_, found⟩
  intro event mem fresh kind putsFresh
  rcases List.mem_append.mp mem with first | rest
  · cases List.mem_singleton.mp first
    exact absurd putsFresh (quiet fresh kind)
  · exact puts event rest fresh kind putsFresh

variable {id : Nat} {session : Uuid} {unit : KeyUnit} {now : Int}

theorem canInsert_of_inserts {key : DataKey}
    (called : (id, .inserts session unit key now) ∈ s.calls)
    : CanInsert idle id (session, unit) s := by
  refine ⟨_, _, .single (.inserts called), ?_, ?_⟩
  · intro event mem fresh kind puts
    cases List.mem_singleton.mp mem
    exact puts.1
  · exact Option.isSome_of_eq_some Entries.lookup_put_self

/-- The key service may answer, with a key of zeros say. -/
theorem canInsert_of_unwraps (called : (id, .unwraps session unit) ∈ s.calls)
    : CanInsert idle id (session, unit) s :=
  .of_step (.unwraps ⟨List.replicate 32 0, rfl⟩ called) (fun _ _ => not_false)
    (canInsert_of_inserts (.head _))

/-- A call that may insert an entry the cache does not have can go on to insert it. -/
theorem canInsert_of_target {call : Call} (under : (id, call) ∈ s.calls)
    (target : call.target? = some wanted) (missing : s.entries.lookup wanted = none)
    : CanInsert idle id wanted s := by
  cases call with
  | inserts => cases target; exact canInsert_of_inserts under
  | unwraps => cases target; exact canInsert_of_unwraps under
  | looksUp =>
      cases target
      exact .of_step (.misses under (Entries.lookUp_eq_none.mpr missing)) (fun _ _ => not_false)
        (canInsert_of_unwraps (.head _))
  | touches | sweeps => cases target

/-- A release of the kind is final exactly if no `get` or `put` of the kind is under way. -/
theorem staysGone_iff (numbered : Numbered s)
    (released : ∀ key, kind key → s.entries.lookup key = none)
    : StaysGone idle s.nextCall kind s ↔ NoneUnderWay kind s := by
  constructor
  · intro gone id call under key target named
    have can : CanInsert idle id key s := canInsert_of_target under target (released key named)
    obtain ⟨events, later, run, puts, found⟩ := can
    have early := numbered id call under
    rw [gone events later run (fun event mem fresh => ?_) key named] at found
    · cases found
    · exact Nat.not_le_of_lt early (puts event mem _ _ fresh)
  · intro none
    refine Gone.staysGone ⟨released, fun id call under key target named => ?_, Nat.le_refl _⟩
    exact absurd named (none id call under key target)

-----------------------------------------------------------------------------------------
-- Active entries

variable {e : Entry}

/-- A step of another session, or a sweep within the idle limit, leaves the entry as it is. -/
theorem CacheStep.foreign (stepped : CacheStep idle s event after)
    (held : s.entries.lookup wanted = some e) (foreign : event.session? ≠ some wanted.1)
    (within : event.SweepsWithin idle e.lastActivity)
    : after.entries.lookup wanted = some e := by
  have other : ∀ {session unit}, some session ≠ some wanted.1 → wanted ≠ (session, unit) :=
    fun ne same => ne (congrArg (some ·.1) same.symm)
  cases stepped with
  | passes | opens | misses | unwraps | fails => exact held
  | hits _ hit => rw [Entries.lookup_of_lookUp hit, held, Option.map_some, if_neg (other foreign)]
  | inserts _ => exact (Entries.lookup_put_of_ne (other foreign)).trans held
  | touches _ =>
      rw [Entries.lookup_touchSession, held, Option.map_some, if_neg fun mine => foreign ?_]
      exact congrArg some mine.symm
  | sweeps _ => exact Entries.lookup_sweep_eq_some.mpr ⟨held, within⟩
  | releasesSession session =>
      exact (Entries.lookup_releaseSession_of_ne fun mine =>
        foreign (congrArg some mine.symm)).trans held
  | releasesDocument => exact (Entries.lookup_releaseDocument_of_ne (other foreign)).trans held

/-- A step that does not release the entry, sweep it or write an older reading to it leaves it
at least as active.
-/
theorem CacheStep.active {activity : Int} (stepped : CacheStep idle s event after)
    (held : s.entries.lookup wanted = some e) (active : activity ≤ e.lastActivity)
    (kept : ¬event.Releases wanted) (within : event.SweepsWithin idle activity)
    (stamps : event.StampsFrom activity wanted)
    : ∃ e', after.entries.lookup wanted = some e' ∧ activity ≤ e'.lastActivity := by
  cases stepped with
  | passes | opens | misses | unwraps | fails => exact ⟨e, held, active⟩
  | hits _ hit =>
      rw [Entries.lookup_of_lookUp hit, held]
      refine ⟨_, rfl, ?_⟩
      split
      next mine => exact stamps _ ⟨mine, rfl⟩
      next => exact active
  | @inserts id session unit key now called =>
      by_cases mine : wanted = (session, unit)
      · exact ⟨⟨key, now⟩, mine ▸ Entries.lookup_put_self, stamps _ ⟨mine, rfl⟩⟩
      · exact ⟨e, (Entries.lookup_put_of_ne mine).trans held, active⟩
  | touches _ =>
      rw [Entries.lookup_touchSession, held]
      refine ⟨_, rfl, ?_⟩
      split
      next mine => exact stamps _ ⟨mine, rfl⟩
      next => exact active
  | @sweeps id now called =>
      have within : now - activity < idle := within
      exact ⟨e, Entries.lookup_sweep_eq_some.mpr ⟨held, by omega⟩, active⟩
  | releasesSession => exact ⟨e, (Entries.lookup_releaseSession_of_ne kept).trans held, active⟩
  | releasesDocument => exact ⟨e, (Entries.lookup_releaseDocument_of_ne kept).trans held, active⟩

/-- Other sessions and sweeps within the idle limit leave the entry as it is, however many of
their steps are taken.
-/
theorem unchanged_of_run (run : (cacheSystem idle).Run s events after)
    (held : s.entries.lookup wanted = some e)
    : (∀ event ∈ events, event.session? ≠ some wanted.1
          ∧ event.SweepsWithin idle e.lastActivity) →
        after.entries.lookup wanted = some e := by
  induction run with
  | done => exact fun _ => held
  | next _ stepped ih =>
      intro all
      obtain ⟨foreign, within⟩ := all _ (List.mem_append_right _ (.head _))
      have before := ih fun event mem => all event (List.mem_append_left _ mem)
      exact CacheStep.foreign stepped before foreign within

/-- The entry stays as long as it is not released, no older reading is written to it, and every
sweep is within the idle limit of its activity.
-/
theorem active_of_run (run : (cacheSystem idle).Run s events after)
    (held : s.entries.lookup wanted = some e)
    : (∀ event ∈ events, ¬event.Releases wanted ∧ event.SweepsWithin idle e.lastActivity
          ∧ event.StampsFrom e.lastActivity wanted) →
        ∃ e', after.entries.lookup wanted = some e' ∧ e.lastActivity ≤ e'.lastActivity := by
  induction run with
  | done => exact fun _ => ⟨e, held, Int.le_refl _⟩
  | next _ stepped ih =>
      intro all
      obtain ⟨kept, within, stamps⟩ := all _ (List.mem_append_right _ (.head _))
      obtain ⟨e', before, active⟩ := ih fun event mem => all event (List.mem_append_left _ mem)
      exact CacheStep.active stepped before active kept within stamps

-----------------------------------------------------------------------------------------
-- Logging out

/-- Releasing a session, or a document for a session, is final exactly if no `get` or `put` of
what it releases is under way. Other sessions and sweeps leave an active entry alone, and it stays
active as long as its own session writes no older clock reading to it.
-/
theorem release_final_iff (reached : (cacheSystem idle).Reachable s)
    : (∀ session after, CacheStep idle s (.releasesSession session) after →
        (StaysGone idle s.nextCall (·.1 = session) after ↔ NoneUnderWay (·.1 = session) s))
      ∧ (∀ session tenant document after,
        CacheStep idle s (.releasesDocument session tenant document) after →
          (StaysGone idle s.nextCall (· = (session, .document tenant document)) after
            ↔ NoneUnderWay (· = (session, .document tenant document)) s))
      ∧ ∀ events after key e, (cacheSystem idle).Run s events after →
          s.entries.lookup key = some e →
            ((∀ event ∈ events, event.session? ≠ some key.1
                ∧ event.SweepsWithin idle e.lastActivity) →
              after.entries.lookup key = some e)
            ∧ ((∀ event ∈ events, ¬event.Releases key
                ∧ event.SweepsWithin idle e.lastActivity
                ∧ event.StampsFrom e.lastActivity key) →
              ∃ e', after.entries.lookup key = some e'
                ∧ e.lastActivity ≤ e'.lastActivity) := by
  have numbered := numbered_of_reachable reached
  refine ⟨fun session after released => ?_, fun session tenant document after released => ?_, ?_⟩
  · cases released
    exact staysGone_iff numbered fun key => Entries.lookup_releaseSession_self
  · cases released
    refine staysGone_iff numbered ?_
    rintro _ rfl
    exact Entries.lookup_releaseDocument_self
  · exact fun events after key e run held => ⟨unchanged_of_run run held, active_of_run run held⟩

def halfHour : Int := 30 * 60 * 10 ^ 9

/-- A session, and the key of an FAU's records. -/
def sampleSession : Uuid := ⟨List.replicate 16 1, rfl⟩

def sampleUnit : KeyUnit := .record ⟨List.replicate 16 2, rfl⟩

/-- A `get` of the session has missed, and waits for the key service. -/
def awaiting : CacheState :=
  ((CacheState.new 0).opens (.looksUp sampleSession sampleUnit 0)).goesOn 0
    (.unwraps sampleSession sampleUnit)

theorem awaiting_reachable : (cacheSystem idle).Reachable awaiting := by
  have begun : (cacheSystem idle).Reachable (.new 0) := .start ⟨0, rfl⟩
  have opened : CacheStep idle (.new 0) (.opens (.looksUp sampleSession sampleUnit 0)) _ :=
    .opens rfl
  exact (begun.step opened).step (.misses (.head _) rfl)

/-- The session logs out while its `get` waits, and the key is there again afterwards. -/
theorem logout_undone
    : (cacheSystem halfHour).Reachable awaiting
      ∧ ∃ after events later, CacheStep halfHour awaiting (.releasesSession sampleSession) after
        ∧ (cacheSystem halfHour).Run after events later
        ∧ (∀ event ∈ events, ¬event.PutsFresh awaiting.nextCall (·.1 = sampleSession))
        ∧ (later.entries.lookup (sampleSession, sampleUnit)).isSome := by
  let zeros : DataKey := ⟨List.replicate 32 0, rfl⟩
  let loggedOut := { awaiting with entries := awaiting.entries.releaseSession sampleSession }
  let unwrapped := loggedOut.goesOn 0 (.inserts sampleSession sampleUnit zeros 0)
  have answers : CacheStep halfHour loggedOut _ unwrapped := .unwraps zeros (.head _)
  have inserts : CacheStep halfHour unwrapped _ _ := .inserts (.head _)
  refine ⟨awaiting_reachable, loggedOut, _, _, .releasesSession _, .next (.single answers) inserts,
    ?_, rfl⟩
  intro event mem puts
  rcases List.mem_append.mp mem with first | second
  · cases List.mem_singleton.mp first
    cases puts
  · cases List.mem_singleton.mp second
    exact absurd puts.1 (by decide)

/-- With only the call of another session under way, a session's release is final. -/
theorem other_logout_final
    : ∃ after, CacheStep halfHour awaiting (.releasesSession ⟨List.replicate 16 3, rfl⟩) after
        ∧ StaysGone halfHour awaiting.nextCall (·.1 = ⟨List.replicate 16 3, rfl⟩) after := by
  refine ⟨_, .releasesSession _, ((release_final_iff awaiting_reachable).1 _ _
    (.releasesSession _)).mpr ?_⟩
  intro id call under key target
  cases List.mem_singleton.mp under
  cases target
  decide

end FauPortalen.Keys
