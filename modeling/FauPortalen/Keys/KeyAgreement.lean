import FauPortalen.Keys.DataKeys
import FauPortalen.Keys.Logout

/-! Sessions agree on a unit's data key: the key that the stored row holds is the one every call
returns, and what one session encrypts every later session can read. A session whose transaction
was rolled back keeps the key of the row that is gone.
-/

set_option linter.unusedSectionVars false

namespace FauPortalen.Keys

open Foundations

variable {transit : Transit} {idle : Int} {s after : DataKeyState} {event : DataKeyEvent}
  {c : Nat} {session : Uuid} {unit : KeyUnit} {key : DataKey}

-----------------------------------------------------------------------------------------
-- Rows

/-- What a step leaves of the rows. -/
structure KeepsRows (s : DataKeyState) (event : DataKeyEvent) (after : DataKeyState) : Prop where
  single : after.rows.OneHolder
  seen : ∀ c row bytes, event ≠ .rollsBack c → s.rows.visible c row = some bytes →
    after.rows.visible c row = some bytes
  committed : ∀ row bytes, s.rows.committed row = some bytes →
    after.rows.committed row = some bytes
  held : ∀ row bytes, s.rows.Holds row bytes →
    after.rows.Holds row bytes ∨ ∃ c, event = .rollsBack c ∧ s.rows.pending c row = some bytes

theorem KeepsRows.of_eq (single : s.rows.OneHolder) (same : after.rows = s.rows)
    : KeepsRows s event after := by
  refine ⟨?_, fun c row bytes _ => ?_, fun row bytes => ?_, fun row bytes => ?_⟩ <;> rw [same]
  · exact single
  · exact id
  · exact id
  · exact .inl

theorem DataKeyStep.keepsRows (stepped : DataKeyStep transit idle s event after)
    (single : s.rows.OneHolder)
    : KeepsRows s event after := by
  cases stepped with
  | begins _ closed =>
      refine ⟨single.begin, fun _ _ _ _ read => ?_, fun _ _ => id, fun _ _ held => ?_⟩
      · exact (SharedRows.visible_begin closed).trans read
      · exact .inl (held.begin closed)
  | commits _ _ =>
      exact ⟨single.commit, fun _ _ _ _ => SharedRows.visible_commit single,
        fun _ _ => SharedRows.committed_commit single, fun _ _ held => .inl (held.commit single)⟩
  | @rollsBack c _ _ =>
      refine ⟨single.rollBack, fun d _ _ other read => ?_, fun _ _ => id, fun _ _ held => ?_⟩
      · have ne : d ≠ c := fun same => other (same ▸ rfl)
        exact (SharedRows.visible_rollBack_of_ne ne).trans read
      · rcases held.rollBack with own | stays
        · exact .inr ⟨c, rfl, own⟩
        · exact .inl stays
  | stores _ _ free _ =>
      exact ⟨single.insertOnce free, fun _ _ _ _ => SharedRows.visible_insertOnce single free,
        fun _ _ => SharedRows.committed_insertOnce, fun _ _ held => .inl held.insertOnce⟩
  | _ => exact .of_eq single rfl

-----------------------------------------------------------------------------------------
-- Keys and the rows that hold them

/-- Some row of the unit, committed or not, holds the key. -/
def HeldKey (transit : Transit) (s : DataKeyState) (unit : KeyUnit) (key : DataKey) : Prop :=
  ∃ row wrapped, unit.rowKey = some row ∧ s.rows.Holds row wrapped.asBytes
    ∧ transit unit.keyName wrapped = some key

/-- The connection sees the unit's row, and it holds the key. -/
def SeenKey (transit : Transit) (s : DataKeyState) (c : Nat) (unit : KeyUnit) (key : DataKey)
    : Prop :=
  ∃ row wrapped, unit.rowKey = some row ∧ s.rows.visible c row = some wrapped.asBytes
    ∧ transit unit.keyName wrapped = some key

/-- The connection sees this wrapped key in the unit's row. -/
def SeesWrapped (s : DataKeyState) (c : Nat) (unit : KeyUnit) (wrapped : WrappedKey) : Prop :=
  ∃ row, unit.rowKey = some row ∧ s.rows.visible c row = some wrapped.asBytes

/-- What a call has read so far it still reads. -/
def Backed (transit : Transit) (s : DataKeyState) (c : Nat) (call : DataKeyCall) : Prop :=
  match call.phase with
  | .loads | .generates => True
  | .stores fresh wrapped | .reloads fresh wrapped =>
      transit call.unit.keyName wrapped = some fresh
  | .looksUp wrapped _ | .unwraps wrapped => SeesWrapped s c call.unit wrapped
  | .inserts key _ => SeenKey transit s c call.unit key

theorem SeenKey.held (seen : SeenKey transit s c unit key) : HeldKey transit s unit key := by
  obtain ⟨row, wrapped, keyed, read, opened⟩ := seen
  exact ⟨row, wrapped, keyed, SharedRows.holds_of_visible read, opened⟩

theorem SeesWrapped.opens {wrapped : WrappedKey} (sees : SeesWrapped s c unit wrapped)
    (opened : transit unit.keyName wrapped = some key)
    : SeenKey transit s c unit key := by
  obtain ⟨row, keyed, read⟩ := sees
  exact ⟨row, wrapped, keyed, read, opened⟩

/-- A unit's row is the same for whoever sees one, so a held key is the key that is seen. -/
theorem HeldKey.seen (held : HeldKey transit s unit key) (single : s.rows.OneHolder)
    {wrapped : WrappedKey} (sees : SeesWrapped s c unit wrapped)
    : SeenKey transit s c unit key := by
  obtain ⟨row, wrapped', keyed, there, opened⟩ := held
  obtain ⟨row', keyed', read⟩ := sees
  cases keyed.symm.trans keyed'
  have same := WrappedKey.asBytes_injective (single.eq_of_visible read there)
  subst same
  exact ⟨row, wrapped, keyed, read, opened⟩

theorem SeesWrapped.keeps {wrapped : WrappedKey} (sees : SeesWrapped s c unit wrapped)
    (kept : KeepsRows s event after) (other : event ≠ .rollsBack c)
    : SeesWrapped after c unit wrapped := by
  obtain ⟨row, keyed, read⟩ := sees
  exact ⟨row, keyed, kept.seen c row _ other read⟩

theorem SeenKey.keeps (seen : SeenKey transit s c unit key) (kept : KeepsRows s event after)
    (other : event ≠ .rollsBack c)
    : SeenKey transit after c unit key := by
  obtain ⟨row, wrapped, keyed, read, opened⟩ := seen
  exact ⟨row, wrapped, keyed, kept.seen c row _ other read, opened⟩

theorem Backed.keeps {call : DataKeyCall} (backed : Backed transit s c call)
    (kept : KeepsRows s event after) (other : event ≠ .rollsBack c)
    : Backed transit after c call := by
  obtain ⟨session, unit, phase⟩ := call
  cases phase with
  | loads | generates | stores | reloads => exact backed
  | looksUp | unwraps => exact SeesWrapped.keeps backed kept other
  | inserts => exact SeenKey.keeps backed kept other

-----------------------------------------------------------------------------------------
-- What a step does to the cache and to the calls

/-- A key in the cache was there before, or a call has just put it there. -/
theorem DataKeyStep.cached (stepped : DataKeyStep transit idle s event after) {e : Entry}
    (found : after.entries.lookup (session, unit) = some e)
    : (∃ old, s.entries.lookup (session, unit) = some old ∧ old.key = e.key)
      ∨ ∃ c now, s.calls c = some ⟨session, unit, .inserts e.key now⟩ := by
  cases stepped with
  | hits _ hit =>
      rw [Entries.lookup_of_lookUp hit] at found
      obtain ⟨old, there, rfl⟩ := Option.map_eq_some_iff.mp found
      refine .inl ⟨old, there, ?_⟩
      split <;> rfl
  | @inserts c session' unit' key now called =>
      by_cases same : (session, unit) = (session', unit')
      · cases same
        rw [Entries.lookup_put_self] at found
        cases found
        exact .inr ⟨c, now, called⟩
      · rw [Entries.lookup_put_of_ne same] at found
        exact .inl ⟨e, found, rfl⟩
  | touchesSession =>
      rw [Entries.lookup_touchSession] at found
      obtain ⟨old, there, rfl⟩ := Option.map_eq_some_iff.mp found
      refine .inl ⟨old, there, ?_⟩
      split <;> rfl
  | releasesSession => exact .inl ⟨e, (AssocMap.lookup_retain_eq_some.mp found).1, rfl⟩
  | releasesDocument => exact .inl ⟨e, (AssocMap.lookup_retain_eq_some.mp found).1, rfl⟩
  | sweeps => exact .inl ⟨e, (Entries.lookup_sweep_eq_some.mp found).1, rfl⟩
  | _ => exact .inl ⟨e, found, rfl⟩

/-- A call under way was under way before, or what it goes on with is backed. -/
theorem DataKeyStep.backed (stepped : DataKeyStep transit idle s event after)
    (backed : ∀ c call, s.calls c = some call → Backed transit s c call) {call : DataKeyCall}
    (under : after.calls c = some call)
    : s.calls c = some call ∨ Backed transit after c call := by
  have goes : ∀ {d : Nat} {session : Uuid} {unit : KeyUnit} {phase : DataKeyPhase},
      s.calls.insert d ⟨session, unit, phase⟩ c = some call →
        (d = c → Backed transit after c ⟨session, unit, phase⟩) →
          s.calls c = some call ∨ Backed transit after c call := by
    intro d session unit phase found fits
    rcases Lookup.insert_eq_some.mp found with ⟨same, rfl⟩ | ⟨-, before⟩
    · exact .inr (fits same.symm)
    · exact .inl before
  cases stepped with
  | calls | misses => exact goes under fun _ => trivial
  | finds called keyed read decoded =>
      refine goes under fun same => ?_
      subst same
      exact ⟨_, keyed, read.trans (congrArg some (WrappedKey.asBytes_of_decode decoded).symm)⟩
  | generates _ made => exact goes under fun _ => made
  | stores called _ _ _ =>
      refine goes under fun _ => ?_
      exact backed _ _ called
  | keeps called keyed read decoded =>
      refine goes under fun same => ?_
      subst same
      exact ⟨_, _, keyed, read.trans (congrArg some (WrappedKey.asBytes_of_decode decoded).symm),
        backed _ _ called⟩
  | yields called keyed read decoded _ =>
      refine goes under fun same => ?_
      subst same
      exact ⟨_, keyed, read.trans (congrArg some (WrappedKey.asBytes_of_decode decoded).symm)⟩
  | asks called _ =>
      refine goes under fun same => ?_
      subst same
      exact backed _ _ called
  | unwraps called opened =>
      refine goes under fun same => ?_
      subst same
      exact SeesWrapped.opens (backed _ _ called) opened
  | hits | inserts | fails => exact .inl (Lookup.erase_eq_some.mp under).2
  | _ => exact .inl under

-----------------------------------------------------------------------------------------
-- Agreement

/-- Every cached key is held by the unit's row, and every call goes by the row it sees. -/
structure Agree (transit : Transit) (s : DataKeyState) : Prop where
  single : s.rows.OneHolder
  cached : ∀ session unit e, s.entries.lookup (session, unit) = some e →
    HeldKey transit s unit e.key
  backed : ∀ c call, s.calls c = some call → Backed transit s c call

/-- A rollback loses no row while a session has the unit's key in memory. -/
def KeepsCachedRows (s : DataKeyState) : DataKeyEvent → Prop
  | .rollsBack c => ∀ unit row, unit.rowKey = some row → (s.rows.pending c row).isSome →
      ∀ session, s.entries.lookup (session, unit) = none
  | _ => True

/-- The flow with only such rollbacks. -/
def tidyKeySystem (transit : Transit) (idle : Int) : EventSystem DataKeyState DataKeyEvent :=
  (dataKeySystem transit idle).restrict KeepsCachedRows

/-- No transaction ends while its connection has a call under way. -/
theorem DataKeyStep.rollsBack_free (stepped : DataKeyStep transit idle s event after)
    {call : DataKeyCall} (under : s.calls c = some call)
    : event ≠ .rollsBack c := by
  rintro rfl
  cases stepped with
  | rollsBack free _ =>
      rw [under] at free
      cases free

theorem Agree.step (agree : Agree transit s) (stepped : DataKeyStep transit idle s event after)
    (tidy : KeepsCachedRows s event)
    : Agree transit after := by
  have kept := stepped.keepsRows agree.single
  refine ⟨kept.single, fun session unit e found => ?_, fun c call under => ?_⟩
  · rcases stepped.cached found with ⟨old, there, same⟩ | ⟨c, now, called⟩
    · obtain ⟨row, wrapped, keyed, held, opened⟩ := agree.cached _ _ _ there
      rcases kept.held _ _ held with stays | ⟨c, rfl, own⟩
      · exact ⟨row, wrapped, keyed, stays, same ▸ opened⟩
      · rw [tidy unit row keyed (by rw [own]; rfl) session] at there
        cases there
    · have seen : SeenKey transit s c unit e.key := agree.backed _ _ called
      exact (seen.keeps kept (stepped.rollsBack_free called)).held
  · rcases stepped.backed agree.backed under with before | now
    · exact (agree.backed _ _ before).keeps kept (stepped.rollsBack_free before)
    · exact now

theorem Agree.of_reachable (reached : (tidyKeySystem transit idle).Reachable s)
    : Agree transit s := by
  refine reached.keeps (I := Agree transit) ?_ ?_
  · rintro _ ⟨clock, rfl⟩
    refine ⟨⟨fun _ _ own => ?_, fun _ _ _ own _ => ?_⟩, fun _ _ _ found => ?_,
      fun _ _ found => ?_⟩
    · cases own
    · cases own
    · cases found
    · cases found
  · exact fun s event after agree stepped => agree.step stepped.2 stepped.1

/-- A call returns the key of the row that its connection sees. -/
theorem Agree.returned (agree : Agree transit s)
    (stepped : DataKeyStep transit idle s (.returns c session unit key) after)
    : SeenKey transit s c unit key := by
  cases stepped with
  | hits called hit =>
      obtain ⟨e, found, same⟩ := Option.map_eq_some_iff.mp hit
      cases same
      exact (agree.cached _ _ _ found).seen agree.single (agree.backed _ _ called)
  | inserts called => exact agree.backed _ _ called

/-- The row a connection sees stays its row, and the committed row stays the committed row. -/
theorem seen_of_run {events : List DataKeyEvent} {later : DataKeyState} {row : RowKey}
    {bytes : List UInt8} (reached : (tidyKeySystem transit idle).Reachable s)
    (run : (tidyKeySystem transit idle).Run s events later)
    : (.rollsBack c ∉ events → s.rows.visible c row = some bytes →
        later.rows.visible c row = some bytes)
      ∧ (s.rows.committed row = some bytes → later.rows.committed row = some bytes) := by
  induction run with
  | done => exact ⟨fun _ => id, id⟩
  | next earlier stepped ih =>
      have kept := stepped.2.keepsRows (Agree.of_reachable (reached.run earlier)).single
      refine ⟨fun never seen => ?_, fun stored => kept.committed _ _ (ih.2 stored)⟩
      rw [List.mem_append, List.mem_singleton, not_or] at never
      exact kept.seen _ _ _ (fun same => never.2 same.symm) (ih.1 never.1 seen)

/-- Once the unit's row is committed, every call for the unit returns the key it holds. -/
theorem returned_of_committed {events : List DataKeyEvent} {later : DataKeyState}
    {row : RowKey} {wrapped : WrappedKey} (reached : (tidyKeySystem transit idle).Reachable s)
    (run : (tidyKeySystem transit idle).Run s events later) (keyed : unit.rowKey = some row)
    (stored : s.rows.committed row = some wrapped.asBytes)
    (returned : .returns c session unit key ∈ events)
    : transit unit.keyName wrapped = some key := by
  induction run with
  | done => cases returned
  | next earlier stepped ih =>
      rcases List.mem_append.mp returned with before | last
      · exact ih before
      · cases List.mem_singleton.mp last
        have agree := Agree.of_reachable (reached.run earlier)
        have there := (seen_of_run (c := 0) reached earlier).2 stored
        obtain ⟨row', wrapped', keyed', read, opened⟩ := agree.returned stepped.2
        cases keyed.symm.trans keyed'
        have same := agree.single.eq_of_visible read (.inl there)
        rwa [WrappedKey.asBytes_injective same] at opened

/-- What a call's caller encrypts with the key it got is readable with every key that the unit's
calls return, once the unit's row is committed and unless the caller's own transaction is rolled
back: sessions agree on the key, whoever came first.
-/
theorem fields_stay_readable {cipher : Aead} (authenticated : cipher.Authenticated)
    {returned shared later : DataKeyState} {between rest : List DataKeyEvent} {row : RowKey}
    (reached : (tidyKeySystem transit idle).Reachable s)
    (made : (tidyKeySystem transit idle).step s (.returns c session unit key) returned)
    (run : (tidyKeySystem transit idle).Run returned between shared)
    (kept : .rollsBack c ∉ between) (keyed : unit.rowKey = some row)
    (stored : (shared.rows.committed row).isSome)
    (goesOn : (tidyKeySystem transit idle).Run shared rest later)
    : (∃ wrapped, shared.rows.committed row = some wrapped.asBytes
        ∧ transit unit.keyName wrapped = some key)
      ∧ ∀ c' session' key', .returns c' session' unit key' ∈ rest →
          ∀ random aad text ct, encrypt cipher random key aad text = .ok ct →
            decrypt cipher key' aad ct = .ok text := by
  have agree := Agree.of_reachable reached
  obtain ⟨row', wrapped, keyed', read, opened⟩ := agree.returned made.2
  cases keyed.symm.trans keyed'
  have reached' := reached.step made
  have seen := (made.2.keepsRows agree.single).seen c row _ (by simp) read
  have still := (seen_of_run reached' run).1 kept seen
  have single := (Agree.of_reachable (reached'.run run)).single
  obtain ⟨bytes, committed⟩ := Option.isSome_iff_exists.mp stored
  have own : shared.rows.committed row = some wrapped.asBytes := by
    rw [committed, single.eq_of_visible still (.inl committed)]
  refine ⟨⟨wrapped, own, opened⟩, fun c' session' key' again random aad text ct encrypted => ?_⟩
  have same := returned_of_committed (reached'.run run) goesOn keyed own again
  cases opened.symm.trans same
  exact decrypt_encrypt authenticated encrypted

/-- A step whose rollback, if it is one, loses no cached key's row. -/
theorem tidy_step (event : DataKeyEvent) (_ : (tidyKeySystem transit idle).Reachable s)
    (stepped : DataKeyStep transit idle s event after) (tidy : KeepsCachedRows s event)
    : (tidyKeySystem transit idle).step s event after :=
  ⟨tidy, stepped⟩

def sampleWrapped : WrappedKey := ⟨"vault:v1:abc", by decide +kernel⟩

def sampleRow : RowKey := (sampleUnit.tenant, "record", none)

/-- Nobody holds a key before the first transaction has inserted one. -/
theorem unblocked_begin
    : ¬ SharedRows.Blocked ((.empty : SharedRows RowKey (List UInt8)).begin 1) 1 sampleRow := by
  rintro ⟨other, ne, held⟩
  rw [SharedRows.pending_begin, if_neg ne] at held
  cases held

/-- A key service that has wrapped one key as the sample, and any other wrapping is of another. -/
def sampleTransit (first other : DataKey) : Transit := fun _ wrapped =>
  if wrapped = sampleWrapped then some first else some other

/-- Another session of the same FAU. -/
def otherSession : Uuid := ⟨List.replicate 16 3, rfl⟩

/-- One session makes the records' key in a transaction, and after the commit another session
reads what was encrypted under it.
-/
theorem fields_stay_readable_sample
    : let key : DataKey := ⟨List.replicate 32 9, rfl⟩
      let aad : Aad := ⟨otherSession, "groups", "encrypted_name", otherSession⟩
      decrypt .transparent key aad
          ⟨version :: ((⟨List.replicate 24 5, rfl⟩ : Nonce).bytes
            ++ (transparentHead key ⟨List.replicate 24 5, rfl⟩ aad.toBytes
              ++ utf8 "Juleballkomiteen"))⟩
        = .ok "Juleballkomiteen" := by
  intro key aad
  let transit := sampleTransit key key
  have begun : (tidyKeySystem transit halfHour).Reachable (.new 0) := .start ⟨0, rfl⟩
  have opened := begun.step (tidy_step (.begins 1) begun (.begins rfl rfl) trivial)
  have called := opened.step
    (tidy_step (.calls 1 sampleSession sampleUnit) opened (.calls rfl) trivial)
  have missed := called.step (tidy_step (.goesOn 1) called
    (.misses rfl (rfl : sampleUnit.rowKey = some sampleRow) rfl) trivial)
  have opens : transit sampleUnit.keyName sampleWrapped = some key := if_pos rfl
  have made := missed.step (tidy_step (.goesOn 1) missed (.generates rfl opens) trivial)
  have stored := made.step (tidy_step (.goesOn 1) made
    (.stores rfl rfl unblocked_begin (by decide +kernel)) trivial)
  have read : (SharedRows.insertOnce (SharedRows.empty.begin 1) 1 sampleRow
      sampleWrapped.asBytes).visible 1 sampleRow = some sampleWrapped.asBytes :=
    SharedRows.visible_insertOnce_self rfl
  have kept := stored.step (tidy_step (.goesOn 1) stored
    (.keeps rfl rfl read (WrappedKey.decode_asBytes _)) trivial)
  have returned := tidy_step (.returns 1 _ _ _) kept (.inserts rfl) trivial
  have reached := kept.step returned
  have commits := tidy_step (.commits 1) reached (.commits rfl rfl) trivial
  have committed := reached.step commits
  have read' : (SharedRows.commit (SharedRows.insertOnce (SharedRows.empty.begin 1) 1 sampleRow
      sampleWrapped.asBytes) 1).visible 2 sampleRow = some sampleWrapped.asBytes :=
    Option.or_eq_some_iff.mpr (.inr ⟨rfl, read⟩)
  have calls := tidy_step (.calls 2 otherSession sampleUnit) committed (.calls rfl) trivial
  have finds := tidy_step (.goesOn 2) (committed.step calls)
    (.finds rfl rfl read' (WrappedKey.decode_asBytes _)) trivial
  have absent : ((∅ : Entries).put sampleSession sampleUnit key 0).lookUp otherSession sampleUnit 0
      = none :=
    Entries.lookUp_eq_none.mpr (Entries.lookup_put_of_ne (by decide))
  have asks := tidy_step (.goesOn 2) ((committed.step calls).step finds) (.asks rfl absent) trivial
  have unwraps := tidy_step (.goesOn 2) (((committed.step calls).step finds).step asks)
    (.unwraps rfl opens) trivial
  have again := tidy_step (.returns 2 _ _ _)
    ((((committed.step calls).step finds).step asks).step unwraps) (.inserts rfl) trivial
  exact (fields_stay_readable Aead.transparent_authenticated kept returned (.single commits)
    (by simp) rfl (Option.isSome_iff_exists.mpr ⟨_, read⟩)
    (((((EventSystem.Run.single calls).next finds).next asks).next unwraps).next again)).2
      2 otherSession key (by simp) (some ⟨List.replicate 24 5, rfl⟩) aad "Juleballkomiteen" _ rfl

-----------------------------------------------------------------------------------------
-- A key without its row

/-- The event leaves the entry in the cache. -/
def KeepsEntry (idle : Int) (entry : Uuid × KeyUnit) (s : DataKeyState) : DataKeyEvent → Prop
  | .releasesSession session => entry.1 ≠ session
  | .releasesDocument session tenant document => entry ≠ (session, .document tenant document)
  | .sweeps now => ((s.entries.sweep idle now).1.lookup entry).isSome
  | _ => True

/-- The session has a key of the unit in memory, the unit's row is committed, and the session's
calls for the unit have nothing to make or to unwrap.
-/
structure Settled (session : Uuid) (unit : KeyUnit) (row : RowKey) (key : DataKey)
    (s : DataKeyState) : Prop where
  cached : ∃ e, s.entries.lookup (session, unit) = some e ∧ e.key = key
  stored : (s.rows.committed row).isSome
  calls : ∀ c call, s.calls c = some call → call.session = session → call.unit = unit →
    call.phase = .loads ∨ ∃ wrapped now, call.phase = .looksUp wrapped now

theorem Settled.isSome_visible {row : RowKey} (settled : Settled session unit row key s)
    : (s.rows.visible c row).isSome := by
  rw [SharedRows.visible, Option.isSome_or, settled.stored, Bool.or_true]

theorem Settled.phase {row : RowKey} (settled : Settled session unit row key s)
    {phase : DataKeyPhase} (called : s.calls c = some ⟨session, unit, phase⟩)
    : phase = .loads ∨ ∃ wrapped now, phase = .looksUp wrapped now :=
  settled.calls c _ called rfl rfl

/-- A step that keeps the entry keeps its key. -/
theorem Settled.cached_step {row : RowKey} (settled : Settled session unit row key s)
    (stepped : DataKeyStep transit idle s event after)
    (keeps : KeepsEntry idle (session, unit) s event)
    : ∃ e, after.entries.lookup (session, unit) = some e ∧ e.key = key := by
  obtain ⟨e, found, same⟩ := settled.cached
  cases stepped with
  | hits _ hit =>
      refine ⟨_, (Entries.lookup_of_lookUp hit).trans (congrArg _ found), ?_⟩
      split <;> exact same
  | @inserts c session' unit' key' now called =>
      by_cases mine : (session, unit) = (session', unit')
      · cases mine
        rcases settled.phase called with wrong | ⟨_, _, wrong⟩ <;> cases wrong
      · exact ⟨e, (Entries.lookup_put_of_ne mine).trans found, same⟩
  | touchesSession =>
      refine ⟨_, Entries.lookup_touchSession.trans (congrArg _ found), ?_⟩
      split <;> exact same
  | releasesSession => exact ⟨e, (Entries.lookup_releaseSession_of_ne keeps).trans found, same⟩
  | releasesDocument => exact ⟨e, (Entries.lookup_releaseDocument_of_ne keeps).trans found, same⟩
  | sweeps =>
      obtain ⟨e', there⟩ := Option.isSome_iff_exists.mp keeps
      cases found.symm.trans (Entries.lookup_sweep_eq_some.mp there).1
      exact ⟨e, there, same⟩
  | _ => exact ⟨e, found, same⟩

theorem Settled.stored_step {row : RowKey} (settled : Settled session unit row key s)
    (stepped : DataKeyStep transit idle s event after)
    : (after.rows.committed row).isSome := by
  have stored := settled.stored
  cases stepped with
  | commits => exact SharedRows.isSome_committed_commit stored
  | stores =>
      obtain ⟨bytes, there⟩ := Option.isSome_iff_exists.mp stored
      exact Option.isSome_iff_exists.mpr ⟨bytes, SharedRows.committed_insertOnce there⟩
  | _ => exact stored

/-- A call of the session for the unit finds the row, and then the key in memory. -/
theorem Settled.calls_step {row : RowKey} (settled : Settled session unit row key s)
    (keyed : unit.rowKey = some row) (stepped : DataKeyStep transit idle s event after)
    {call : DataKeyCall} (under : after.calls c = some call) (mine : call.session = session)
    (same : call.unit = unit)
    : call.phase = .loads ∨ ∃ wrapped now, call.phase = .looksUp wrapped now := by
  obtain ⟨session', unit', phase⟩ := call
  obtain rfl : session = session' := mine.symm
  obtain rfl : unit = unit' := same.symm
  have goes : ∀ {d : Nat} {session' : Uuid} {unit' : KeyUnit} {next : DataKeyPhase},
      s.calls.insert d ⟨session', unit', next⟩ c = some ⟨session, unit, phase⟩ →
        ((session' = session ∧ unit' = unit) →
          next = .loads ∨ ∃ wrapped now, next = .looksUp wrapped now) →
            phase = .loads ∨ ∃ wrapped now, phase = .looksUp wrapped now := by
    intro d session' unit' next found fits
    rcases Lookup.insert_eq_some.mp found with ⟨-, same⟩ | ⟨-, before⟩
    · cases same
      exact fits ⟨rfl, rfl⟩
    · exact settled.phase before
  have never : ∀ {d : Nat} {session' : Uuid} {unit' : KeyUnit} {now : DataKeyPhase} {goal : Prop},
      s.calls d = some ⟨session', unit', now⟩ → (session' = session ∧ unit' = unit) →
        (∀ wrapped read, now ≠ .looksUp wrapped read) → now ≠ .loads → goal := by
    rintro d _ _ now goal called ⟨rfl, rfl⟩ notLooking notLoading
    rcases settled.phase called with wrong | ⟨wrapped, read, wrong⟩
    · exact absurd wrong notLoading
    · exact absurd wrong (notLooking wrapped read)
  cases stepped with
  | calls => exact goes under fun _ => .inl rfl
  | finds => exact goes under fun _ => .inr ⟨_, _, rfl⟩
  | @misses d _ _ _ called keyed' unread =>
      refine goes under fun ours => ?_
      obtain ⟨rfl, rfl⟩ := ours
      cases keyed.symm.trans keyed'
      have seen := settled.isSome_visible (c := d)
      rw [unread] at seen
      cases seen
  | generates called | stores called | keeps called | yields called | unwraps called =>
      exact goes under fun ours => never called ours (by simp) (by simp)
  | asks called missed =>
      refine goes under fun ours => ?_
      obtain ⟨rfl, rfl⟩ := ours
      obtain ⟨e, found, -⟩ := settled.cached
      rw [Entries.lookUp_eq_none.mp missed] at found
      cases found
  | hits | inserts | fails => exact settled.phase (Lookup.erase_eq_some.mp under).2
  | _ => exact settled.phase under

/-- A call of the session for the unit returns the key in memory. -/
theorem Settled.returned {row : RowKey} (settled : Settled session unit row key s)
    {got : DataKey} (stepped : DataKeyStep transit idle s (.returns c session unit got) after)
    : got = key := by
  cases stepped with
  | hits _ hit =>
      obtain ⟨e, found, same⟩ := settled.cached
      obtain ⟨e', there, both⟩ := Option.map_eq_some_iff.mp hit
      cases found.symm.trans there
      cases both
      exact same
  | inserts called => rcases settled.phase called with wrong | ⟨_, _, wrong⟩ <;> cases wrong

/-- As long as a key stays in a session's memory, every call of the session for the unit returns
it, whatever key the unit's row has come to hold meanwhile; what the session then encrypts does
not open with the key of the row.
-/
theorem stale_key_returned {row : RowKey} {e : Entry} {events : List DataKeyEvent}
    {later : DataKeyState} (keyed : unit.rowKey = some row)
    (found : s.entries.lookup (session, unit) = some e)
    (stored : (s.rows.committed row).isSome)
    (quiet : ∀ c call, s.calls c = some call → (call.session, call.unit) ≠ (session, unit))
    (run : ((dataKeySystem transit idle).restrict (KeepsEntry idle (session, unit))).Run
      s events later)
    : ∀ c key, .returns c session unit key ∈ events →
        key = e.key
        ∧ ∀ wrapped other, s.rows.committed row = some wrapped.asBytes →
          transit unit.keyName wrapped = some other → other ≠ e.key →
            ∀ (cipher : Aead) random aad text ct, cipher.Authenticated → aad.Fits →
              encrypt cipher random key aad text = .ok ct →
                ∀ text', decrypt cipher other aad ct ≠ .ok text' := by
  have settled : Settled session unit row e.key s := by
    refine ⟨⟨e, found, rfl⟩, stored, fun c call under mine same => ?_⟩
    exact absurd (Prod.ext mine same) (quiet c call under)
  have always : Settled session unit row e.key later
      ∧ ∀ c key, .returns c session unit key ∈ events → key = e.key := by
    clear found stored quiet
    induction run with
    | done => exact ⟨settled, fun _ _ inside => by cases inside⟩
    | next _ stepped ih =>
        obtain ⟨before, returns⟩ := ih
        refine ⟨⟨before.cached_step stepped.2 stepped.1, before.stored_step stepped.2,
          fun c call => before.calls_step keyed stepped.2⟩, fun c key inside => ?_⟩
        rcases List.mem_append.mp inside with old | last
        · exact returns c key old
        · cases List.mem_singleton.mp last
          exact before.returned stepped.2
  intro c key inside
  have same := always.2 c key inside
  refine ⟨same, ?_⟩
  intro wrapped other _ _ differ cipher random aad text ct authenticated fits made text' opened
  exact differ ((decrypt_binds authenticated fits fits made opened).1.trans same)

def otherWrapped : WrappedKey := ⟨"vault:v1:def", by decide +kernel⟩

/-- A session makes the records' key in a transaction that is rolled back. Another session then
makes and stores a key of its own, and the first one still gets the key it has in memory: what it
encrypts does not open with the stored key.
-/
theorem rollback_strands_key
    : let mine : DataKey := ⟨List.replicate 32 9, rfl⟩
      let theirs : DataKey := ⟨List.replicate 32 8, rfl⟩
      let system := dataKeySystem (sampleTransit mine theirs) halfHour
      let aad : Aad := ⟨otherSession, "groups", "encrypted_name", otherSession⟩
      let ct : Membership.Ciphertext :=
        ⟨version :: ((⟨List.replicate 24 5, rfl⟩ : Nonce).bytes
          ++ (transparentHead mine ⟨List.replicate 24 5, rfl⟩ aad.toBytes
            ++ utf8 "Juleballkomiteen"))⟩
      ∃ s events later, system.Reachable s
        ∧ s.rows.committed sampleRow = some otherWrapped.asBytes
        ∧ sampleTransit mine theirs sampleUnit.keyName otherWrapped = some theirs
        ∧ system.Run s events later
        ∧ .returns 3 sampleSession sampleUnit mine ∈ events
        ∧ ∀ text, decrypt .transparent theirs aad ct ≠ .ok text := by
  intro mine theirs system aad ct
  have makes : ∀ {s after : DataKeyState} (event : DataKeyEvent), system.Reachable s →
      DataKeyStep (sampleTransit mine theirs) halfHour s event after → system.step s event after :=
    fun _ _ stepped => stepped
  have begun : system.Reachable (.new 0) := .start ⟨0, rfl⟩
  have opened := begun.step (makes (.begins 1) begun (.begins rfl rfl))
  have called := opened.step (makes (.calls 1 sampleSession sampleUnit) opened (.calls rfl))
  have missed := called.step (makes (.goesOn 1) called
    (.misses rfl (rfl : sampleUnit.rowKey = some sampleRow) rfl))
  have opens : sampleTransit mine theirs sampleUnit.keyName sampleWrapped = some mine := if_pos rfl
  have made := missed.step (makes (.goesOn 1) missed (.generates rfl opens))
  have stored := made.step
    (makes (.goesOn 1) made (.stores rfl rfl unblocked_begin (by decide +kernel)))
  have read : (SharedRows.insertOnce (SharedRows.empty.begin 1) 1 sampleRow
      sampleWrapped.asBytes).visible 1 sampleRow = some sampleWrapped.asBytes :=
    SharedRows.visible_insertOnce_self rfl
  have kept := stored.step
    (makes (.goesOn 1) stored (.keeps rfl rfl read (WrappedKey.decode_asBytes _)))
  have returned := kept.step (makes (.returns 1 _ _ _) kept (.inserts rfl))
  have lost := returned.step (makes (.rollsBack 1) returned (.rollsBack rfl rfl))
  have again := lost.step (makes (.calls 2 otherSession sampleUnit) lost (.calls rfl))
  have unread : ((SharedRows.insertOnce (SharedRows.empty.begin 1) 1 sampleRow
      sampleWrapped.asBytes).rollBack 1).visible 2 sampleRow = none := rfl
  have missed' := again.step (makes (.goesOn 2) again (.misses rfl rfl unread))
  have opens' : sampleTransit mine theirs sampleUnit.keyName otherWrapped = some theirs :=
    if_neg (by decide)
  have made' := missed'.step (makes (.goesOn 2) missed' (.generates rfl opens'))
  have unblocked : ¬ ((SharedRows.insertOnce (SharedRows.empty.begin 1) 1 sampleRow
      sampleWrapped.asBytes).rollBack 1).Blocked 2 sampleRow := by
    rintro ⟨other, _, held⟩
    rw [SharedRows.pending_erased] at held
    obtain ⟨ne, held⟩ := SharedRows.isSome_pending_of_ite held
    rw [SharedRows.insertOnce_of_open rfl rfl, SharedRows.pending_insert rfl,
      if_neg fun both => ne both.1, SharedRows.pending_begin, if_neg ne] at held
    cases held
  have stored' := made'.step
    (makes (.goesOn 2) made' (.stores rfl rfl unblocked (by decide +kernel)))
  have committed : (((SharedRows.insertOnce (SharedRows.empty.begin 1) 1 sampleRow
      sampleWrapped.asBytes).rollBack 1).insertOnce 2 sampleRow otherWrapped.asBytes).committed
        sampleRow = some otherWrapped.asBytes :=
    SharedRows.committed_insertOnce_self unread rfl
  obtain ⟨after, hit⟩ : ∃ after, ((∅ : Entries).put sampleSession sampleUnit mine 0).lookUp
      sampleSession sampleUnit 0 = some (mine, after) := by
    rw [Entries.lookUp, Entries.lookup_put_self]
    exact ⟨_, rfl⟩
  have calls := makes (.calls 3 sampleSession sampleUnit) stored' (.calls rfl)
  have finds := makes (.goesOn 3) (stored'.step calls)
    (.finds rfl rfl (Option.or_eq_some_iff.mpr (.inr ⟨rfl, committed⟩))
      (WrappedKey.decode_asBytes _))
  have returns := makes (.returns 3 sampleSession sampleUnit mine)
    ((stored'.step calls).step finds) (.hits rfl hit)
  have steps := (((EventSystem.Run.single calls).next finds).next returns)
  refine ⟨_, _, _, stored', committed, opens', steps, by simp, ?_⟩
  have keeps : ∀ {s after : DataKeyState} {event : DataKeyEvent}, system.step s event after →
      KeepsEntry halfHour (sampleSession, sampleUnit) s event →
        (system.restrict (KeepsEntry halfHour (sampleSession, sampleUnit))).step s event after :=
    fun stepped kept => ⟨kept, stepped⟩
  have run := ((EventSystem.Run.single (keeps calls trivial)).next (keeps finds trivial)).next
    (keeps returns trivial)
  have stale := stale_key_returned rfl Entries.lookup_put_self
    (Option.isSome_iff_exists.mpr ⟨_, committed⟩) ?quiet run 3 mine (by simp)
  case quiet =>
    intro c call under
    by_cases two : c = 2
    · subst two
      cases under
      decide
    · by_cases one : c = 1
      · subst one
        cases under
      · simp only [DataKeyState.goesOn, DataKeyState.ends, Lookup.insert_apply,
          Lookup.erase_apply, if_neg one, if_neg two] at under
        cases under
  exact stale.2 otherWrapped theirs committed opens'
    (fun same => absurd (congrArg DataKey.bytes same) (by decide)) .transparent
    (some ⟨List.replicate 24 5, rfl⟩) aad "Juleballkomiteen" ct Aead.transparent_authenticated
    ⟨by decide +kernel, by decide +kernel⟩ rfl

end FauPortalen.Keys
