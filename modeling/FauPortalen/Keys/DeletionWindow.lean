import FauPortalen.Keys.Shred
import Mathlib.Data.List.Induction

/-! Seven days before a key is destroyed. The queue entry of a soft-deleted key is at least as
recent as the soft delete, unless a run stopped right after soft-deleting a key that was still
queued from before.
-/

namespace FauPortalen.Keys

open FauPortalen.Foundations

-----------------------------------------------------------------------------------------
-- What the history says

/-- The soft delete of a key that is in force: when it was made, and for which command. -/
def inForce (key : String) : List Event → Option (Nat × Reason)
  | [] => none
  | event :: older =>
      match event.write with
      | .softDelete name reason =>
          if name = key then some (event.time, reason) else inForce key older
      | .restore name | .destroy name => if name = key then none else inForce key older
      | .enqueue .. | .dequeue _ | .allowDeletion _ => inForce key older

/-- The key is a chat key whose month has not ended 12 months ago, as the script's rule has
it.
-/
def IsYoung (key : String) (time : Nat) : Prop :=
  ∃ month, chatMonth? key = some month ∧ chatIsYoung month (utcMonth time) ≠ some false

/-- The key had been soft-deleted for the whole window, by the FAU command if it is a young
chat key.
-/
def DestroysLate (key : String) (time : Nat) (older : List Event) : Prop :=
  ∃ since reason, inForce key older = some (since, reason) ∧ since + window ≤ time
    ∧ (IsYoung key time → reason = .fau)

/-- Every destruction in the history was late enough. -/
def KeepsWindow (history : List Event) : Prop :=
  ∀ newer time key older, history = newer ++ ⟨time, .destroy key⟩ :: older →
    DestroysLate key time older

/-- The last write was the soft delete of a key that an older entry still queues. -/
def StopsStale (w : World) : Prop :=
  ∃ time key reason older entry, w.history = ⟨time, .softDelete key reason⟩ :: older
    ∧ w.queue key = some entry ∧ entry.softDeletedAt < time

theorem keepsWindow_cons {event : Event} {history : List Event}
    : KeepsWindow (event :: history)
      ↔ (∀ key, event.write = .destroy key → DestroysLate key event.time history)
        ∧ KeepsWindow history := by
  constructor
  · intro h
    refine ⟨fun key destroys => ?_, fun newer time key older split => ?_⟩
    · refine h [] event.time key history ?_
      rw [← destroys]
      rfl
    · exact h (event :: newer) time key older (congrArg (event :: ·) split)
  · rintro ⟨first, later⟩ newer time key older split
    cases newer with
    | nil =>
        obtain ⟨rfl, rfl⟩ := List.cons.inj split
        exact first key rfl
    | cons _ newer =>
        obtain ⟨rfl, rest⟩ := List.cons.inj split
        exact later newer time key older rest

/-- Any other write keeps the window. -/
theorem KeepsWindow.keep {event : Event} {history : List Event} (h : KeepsWindow history)
    (other : ∀ key, event.write ≠ .destroy key)
    : KeepsWindow (event :: history) :=
  keepsWindow_cons.mpr ⟨fun key destroys => absurd destroys (other key), h⟩

/-- A month that ended 12 months ago stays so. -/
theorem IsYoung.anti {key : String} {earlier later : Nat} (order : earlier ≤ later)
    (young : IsYoung key later)
    : IsYoung key earlier := by
  obtain ⟨month, chat, young⟩ := young
  refine ⟨month, chat, fun ended => young ?_⟩
  have months := utcMonth_mono order
  unfold chatIsYoung at ended ⊢
  cases index : monthIndex month with
  | none => simp [index] at ended
  | some i =>
      simp only [index, Option.bind_eq_bind, Option.bind_some, pure, Option.some.injEq,
        decide_eq_false_iff_not] at ended ⊢
      omega

-----------------------------------------------------------------------------------------
-- The invariant

/-- What holds between writes, from a time on: the history explains both stores, a soft delete
of a young chat key is the FAU command's, and no entry is older than the soft delete in force,
but for the pending key's.
-/
structure Consistent (d : Deployment) (floor : Nat) (pending : Option String) (w : World)
    : Prop where
  reached : floor ≤ d.clock w.reads
  clocked : ∀ event ∈ w.history, event.time ≤ d.clock w.reads
  listed : ∀ key, w.keys key ≠ .gone ∨ (w.queue key).isSome → key ∈ d.names
  explains : ∀ key, w.keys key = .softDeleted ↔ (inForce key w.history).isSome
  governed : ∀ key since reason, inForce key w.history = some (since, reason) →
    since ≤ d.clock w.reads ∧ (reason = .fau ∨ ¬ IsYoung key since)
  current : ∀ key entry since reason, some key ≠ pending → w.queue key = some entry →
    inForce key w.history = some (since, reason) → since ≤ entry.softDeletedAt
  late : KeepsWindow w.history

namespace Consistent

variable {d : Deployment} {floor : Nat} {pending : Option String} {w : World} {key : String}

theorem mono {lower : Nat} (h : Consistent d floor pending w) (order : lower ≤ floor)
    : Consistent d lower pending w :=
  { h with reached := order.trans h.reached }

theorem pend (h : Consistent d floor none w) : Consistent d floor pending w :=
  { h with current := fun key entry since reason _ => h.current key entry since reason (by simp) }

/-- Reading the clock keeps everything. -/
theorem read (h : Consistent d floor pending w)
    : Consistent d floor pending { w with reads := w.reads + 1 } := by
  have forward := d.forward (Nat.le_succ w.reads)
  exact { h with
    reached := h.reached.trans forward
    clocked := fun event member => (h.clocked event member).trans forward
    governed := fun key since reason found =>
      ⟨(h.governed key since reason found).1.trans forward,
        (h.governed key since reason found).2⟩ }

/-- A new event is no later than the clock's next reading. -/
theorem clocked_written (h : Consistent d floor pending w) (write : Write)
    : floor ≤ d.clock (w.written d write).reads
      ∧ ∀ event ∈ (w.written d write).history,
        event.time ≤ d.clock (w.written d write).reads := by
  have forward := d.forward (Nat.le_succ w.reads)
  refine ⟨h.reached.trans forward, fun event member => ?_⟩
  rcases List.mem_cons.mp member with rfl | old
  · exact forward
  · exact (h.clocked event old).trans forward

/-- A soft delete of an active key leaves its entry pending. -/
theorem softDelete {reason : Reason} (h : Consistent d floor none w)
    (active : w.keys key = .active)
    (governed : reason = .fau ∨ ¬ IsYoung key (d.clock w.reads))
    : Consistent d floor (some key) (w.written d (.softDelete key reason)) := by
  obtain ⟨reached, clocked⟩ := h.clocked_written (.softDelete key reason)
  have forward := d.forward (Nat.le_succ w.reads)
  refine ⟨reached, clocked, ?_, ?_, ?_, ?_, ?_⟩
  · intro name present
    by_cases own : name = key
    · exact h.listed name (.inl (by rw [own, active]; simp))
    · exact h.listed name (by simpa [World.written, Write.onKeys, Write.onQueue, own] using present)
  · intro name
    by_cases own : name = key
    · simp [World.written, Write.onKeys, inForce, own]
    · simpa [World.written, Write.onKeys, inForce, own, Ne.symm own] using h.explains name
  · intro name since by_reason found
    by_cases own : name = key
    · simp only [World.written, inForce, own, if_true, Option.some.injEq, Prod.mk.injEq] at found
      obtain ⟨rfl, rfl⟩ := found
      exact ⟨forward, own ▸ governed⟩
    · simp only [World.written, inForce, if_neg (Ne.symm own)] at found
      obtain ⟨before, rule⟩ := h.governed name since by_reason found
      exact ⟨before.trans forward, rule⟩
  · intro name entry since by_reason other found force
    have own : name ≠ key := fun same => other (congrArg some same)
    simp only [World.written, inForce, if_neg (Ne.symm own)] at force
    exact h.current name entry since by_reason (by simp) found force
  · exact h.late.keep (by simp)

/-- An entry no older than the history settles its key. -/
theorem enqueue {entry : QueueEntry} (h : Consistent d floor (some key) w)
    (present : w.keys key ≠ .gone)
    (within : ∀ since reason, inForce key w.history = some (since, reason) →
      since ≤ entry.softDeletedAt)
    : Consistent d floor none (w.written d (.enqueue key entry)) := by
  obtain ⟨reached, clocked⟩ := h.clocked_written (.enqueue key entry)
  have forward := d.forward (Nat.le_succ w.reads)
  refine ⟨reached, clocked, ?_, h.explains, ?_, ?_, ?_⟩
  · intro name queued
    by_cases own : name = key
    · exact own ▸ h.listed key (.inl present)
    · exact h.listed name (by
        simpa [World.written, Write.onKeys, Write.onQueue, Lookup.insert_of_ne _ _ own]
          using queued)
  · intro name since reason found
    obtain ⟨before, rule⟩ := h.governed name since reason found
    exact ⟨before.trans forward, rule⟩
  · intro name entry' since reason _ found force
    by_cases own : name = key
    · subst own
      cases (Lookup.insert_self _ _ _).symm.trans found
      exact within since reason force
    · have found' : w.queue name = some entry' := (Lookup.insert_of_ne _ _ own).symm.trans found
      exact h.current name entry' since reason (by simpa using own) found' force
  · exact h.late.keep (by simp)

/-- Removing an entry keeps everything. -/
theorem dequeue (h : Consistent d floor none w)
    : Consistent d floor none (w.written d (.dequeue key)) := by
  obtain ⟨reached, clocked⟩ := h.clocked_written (.dequeue key)
  have forward := d.forward (Nat.le_succ w.reads)
  have queue_of {name : String} {entry : QueueEntry}
      (found : (w.written d (.dequeue key)).queue name = some entry) : w.queue name = some entry := by
    by_cases own : name = key
    · subst own
      cases (Lookup.erase_self _ _).symm.trans found
    · exact (Lookup.erase_of_ne _ own).symm.trans found
  refine ⟨reached, clocked, ?_, h.explains, ?_, ?_, h.late.keep (by simp)⟩
  · rintro name (present | queued)
    · exact h.listed name (.inl present)
    · obtain ⟨entry, found⟩ := Option.isSome_iff_exists.mp queued
      exact h.listed name (.inr (Option.isSome_iff_exists.mpr ⟨entry, queue_of found⟩))
  · intro name since reason found
    obtain ⟨before, rule⟩ := h.governed name since reason found
    exact ⟨before.trans forward, rule⟩
  · intro name entry since reason other found force
    exact h.current name entry since reason other (queue_of found) force

/-- Allowing a deletion changes neither store. -/
theorem allowDeletion (h : Consistent d floor none w)
    : Consistent d floor none (w.written d (.allowDeletion key)) := by
  obtain ⟨reached, clocked⟩ := h.clocked_written (.allowDeletion key)
  have forward := d.forward (Nat.le_succ w.reads)
  refine ⟨reached, clocked, h.listed, h.explains, ?_, h.current, h.late.keep (by simp)⟩
  intro name since reason found
  obtain ⟨before, rule⟩ := h.governed name since reason found
  exact ⟨before.trans forward, rule⟩

/-- A key that is restored or destroyed has no soft delete in force. -/
theorem leave {write : Write} (key : String) (state : KeyState)
    (h : Consistent d floor none w)
    (present : w.keys key ≠ .gone) (differs : state ≠ .softDeleted)
    (keys : ∀ name, (w.written d write).keys name = if name = key then state else w.keys name)
    (queue : (w.written d write).queue = w.queue)
    (forces : ∀ name, inForce name (w.written d write).history
      = if name = key then none else inForce name w.history)
    (late : KeepsWindow (w.written d write).history)
    : Consistent d floor none (w.written d write) := by
  obtain ⟨reached, clocked⟩ := h.clocked_written write
  have forward := d.forward (Nat.le_succ w.reads)
  refine ⟨reached, clocked, ?_, ?_, ?_, ?_, late⟩
  · intro name known
    rw [keys, queue] at known
    by_cases own : name = key
    · exact own ▸ h.listed key (.inl present)
    · exact h.listed name (by simpa [own] using known)
  · intro name
    rw [keys, forces]
    by_cases own : name = key
    · simp [own, differs]
    · simpa [own] using h.explains name
  · intro name since reason found
    rw [forces] at found
    split at found
    · cases found
    · obtain ⟨before, rule⟩ := h.governed name since reason found
      exact ⟨before.trans forward, rule⟩
  · intro name entry since reason other found force
    rw [queue] at found
    rw [forces] at force
    split at force
    · cases force
    · exact h.current name entry since reason other found force

theorem restore (h : Consistent d floor none w) (present : w.keys key ≠ .gone)
    : Consistent d floor none (w.written d (.restore key)) := by
  refine h.leave key .active present (by simp) (fun _ => rfl) rfl ?_
    (h.late.keep (by simp))
  intro name
  simp [World.written, inForce, eq_comm]

/-- A key is destroyed when its soft delete has been in force for the window: then the FAU
command made it if the key is a young chat key.
-/
theorem destroy (h : Consistent d floor none w) (deleted : w.keys key = .softDeleted)
    (old : ∀ since reason, inForce key w.history = some (since, reason) →
      since + window ≤ d.clock w.reads)
    : Consistent d floor none (w.written d (.destroy key)) := by
  refine h.leave key .gone (by rw [deleted]; simp) (by simp) (fun _ => rfl)
    rfl ?_ (keepsWindow_cons.mpr ⟨?_, h.late⟩)
  · intro name
    simp [World.written, inForce, eq_comm]
  · rintro name same
    cases same
    obtain ⟨⟨since, reason⟩, force⟩ := Option.isSome_iff_exists.mp ((h.explains key).mp deleted)
    obtain ⟨before, rule⟩ := h.governed key since reason force
    refine ⟨since, reason, force, old since reason force, fun young => ?_⟩
    exact rule.resolve_right (not_not.mpr (young.anti before))

end Consistent

-----------------------------------------------------------------------------------------
-- The commands

section

open Script

variable {d : Deployment} {floor : Nat} {key : String}

/-- Reading the clock. -/
theorem now_triple {P E : World → Prop} {Q : Nat → World → Prop}
    (h : ∀ w, P w → Q (d.clock w.reads) { w with reads := w.reads + 1 })
    : Triple P (now d) Q E :=
  h

/-- A write happens, or the run stops before it. -/
theorem mutate_triple {P Q E : World → Prop} {write : Write} (stops : ∀ w, P w → E w)
    (writes : ∀ w, P w → Q (w.written d write))
    : Triple P (mutate d write) (fun _ => Q) E := by
  intro w start
  by_cases spent : w.budget = 0
  · have ends : (mutate d write).run.run w = (.error .stopped, w) := if_pos spent
    rw [ends]
    exact stops w start
  · have ends : (mutate d write).run.run w = (.ok ⟨⟩, w.written d write) := if_neg spent
    rw [ends]
    exact writes w start

theorem readKey_triple {P E : World → Prop} {Q : KeyState → World → Prop}
    (h : ∀ w, P w → Q (w.keys key) w)
    : Triple P (readKey key) Q E :=
  h

theorem readQueue_triple {P E : World → Prop} {Q : Option QueueEntry → World → Prop}
    (h : ∀ w, P w → Q (w.queue key) w)
    : Triple P (readQueue key) Q E :=
  h

/-- How a run may leave the world: consistent, or stopped at a stale entry. -/
def Leaves (d : Deployment) (floor : Nat) (w : World) : Prop :=
  Consistent d floor none w ∨ StopsStale w

/-- A run that stops right after a soft delete leaves the world consistent unless the key's
entry is stale.
-/
theorem Consistent.leaves_pending {w : World} {time : Nat} {reason : Reason}
    {older : List Event} (h : Consistent d floor (some key) w)
    (last : w.history = ⟨time, .softDelete key reason⟩ :: older)
    : Leaves d floor w := by
  by_cases stale : ∃ entry, w.queue key = some entry ∧ entry.softDeletedAt < time
  · obtain ⟨entry, found, before⟩ := stale
    exact .inr ⟨time, key, reason, older, entry, last, found, before⟩
  · refine .inl { h with current := fun name entry since by_reason _ found force => ?_ }
    by_cases own : name = key
    · subst own
      rw [last] at force
      simp only [inForce, if_true, Option.some.injEq, Prod.mk.injEq] at force
      obtain ⟨rfl, rfl⟩ := force
      simp only [not_exists, not_and, not_lt] at stale
      exact stale entry found
    · exact h.current name entry since by_reason (by simpa using own) found force

/-- Queueing a soft-deleted key with the time of the clock. -/
theorem enqueue_triple {reason : Reason} {P : World → Prop}
    (pending : ∀ w, P w → Consistent d floor (some key) w ∧ w.keys key ≠ .gone)
    (stops : ∀ w, P w → Leaves d floor { w with reads := w.reads + 1 })
    : Triple P (Keys.enqueue d key reason) (fun _ => Consistent d floor none)
        (Leaves d floor) := by
  refine .bind (now_triple (Q := fun t after => ∃ w, P w ∧ t = d.clock w.reads
    ∧ after = { w with reads := w.reads + 1 }) fun w start => ⟨w, start, rfl, rfl⟩) fun t => ?_
  refine mutate_triple ?_ ?_
  · rintro _ ⟨w, start, _, rfl⟩
    exact stops w start
  · rintro _ ⟨w, start, rfl, rfl⟩
    obtain ⟨consistent, present⟩ := pending w start
    exact consistent.read.enqueue present fun since by_reason found =>
      (consistent.governed key since by_reason found).1

/-- A soft delete keeps the world consistent if the command may soft-delete the key. -/
theorem soft_triple {reason : Reason}
    (governed : key ∈ d.names → ∀ since, floor ≤ since → reason = .fau ∨ ¬ IsYoung key since)
    : Triple (Consistent d floor none) (soft d key reason) (fun _ => Consistent d floor none)
        (Leaves d floor) := by
  refine .bind (readKey_triple (Q := fun state w => Consistent d floor none w
    ∧ w.keys key = state) fun w h => ⟨h, rfl⟩) fun state => ?_
  cases state with
  | gone => exact .pure fun w h => h.1
  | softDeleted =>
      refine .bind (readQueue_triple (Q := fun entry w => (Consistent d floor none w
        ∧ w.keys key = .softDeleted) ∧ w.queue key = entry) fun w h => ⟨h, rfl⟩) fun entry => ?_
      cases entry with
      | some entry => exact .pure fun w h => h.1.1
      | none =>
          refine enqueue_triple (fun w h => ⟨h.1.1.pend, by rw [h.1.2]; simp⟩) fun w h => ?_
          exact .inl h.1.1.read
  | active =>
      refine .bind (R := fun _ => Consistent d floor none) (Q := fun _ w =>
        Consistent d floor (some key) w ∧ w.keys key ≠ .gone
          ∧ ∃ time older, w.history = ⟨time, .softDelete key reason⟩ :: older) ?_ fun _ => ?_
      · refine mutate_triple (fun w h => .inl h.1) fun w ⟨h, active⟩ => ⟨?_, ?_, _, _, rfl⟩
        · have member := h.listed key (.inl (by rw [active]; simp))
          exact h.softDelete active (governed member _ h.reached)
        · simp [World.written, Write.onKeys]
      · refine enqueue_triple (fun w h => ⟨h.1, h.2.1⟩) fun w h => ?_
        obtain ⟨time, older, last⟩ := h.2.2
        exact Consistent.leaves_pending h.1.read last

theorem listKeys_triple
    : Triple (Consistent d floor none) (listKeys d) (fun _ => Consistent d floor none)
        (Leaves d floor) :=
  fun _ h => h

theorem listQueue_triple
    : Triple (Consistent d floor none) (listQueue d) (fun _ => Consistent d floor none)
        (Leaves d floor) :=
  fun _ h => h

/-- An exit leaves the world as it was. -/
theorem throw_triple {α : Type} {e : Exit} {Q : α → World → Prop}
    : Triple (Consistent d floor none) (throwThe Exit e : Shred α) Q (Leaves d floor) :=
  .throw fun _ h => .inl h

/-- A check that may end the run changes nothing. -/
theorem exitIf_triple {P : World → Prop} {wrong : Bool} {e : Exit}
    (exits : ∀ w, P w → Leaves d floor w)
    : Triple P (exitIf wrong e) (fun _ w => P w ∧ wrong = false) (Leaves d floor) := by
  unfold exitIf
  cases wrong with
  | true => exact .throw exits
  | false => exact .pure fun _ h => ⟨h, rfl⟩

theorem fau_triple {tenant : String}
    : Triple (Consistent d 0 none) (fau d tenant) (fun _ => Consistent d 0 none)
        (Leaves d 0) := by
  refine .bind (exitIf_triple fun _ h => .inl h) fun _ => ?_
  refine .bind (listKeys_triple.mono (fun _ h => h.1) fun _ _ h => h) fun names => ?_
  refine .bind (.forM fun key _ => soft_triple fun _ since _ => .inl rfl) fun _ => ?_
  exact (exitIf_triple fun _ h => .inl h).mono (fun _ h => h) fun _ _ h => h.1

/-- A name of OpenBao's has no line break. -/
theorem Deployment.newline_notMem (d : Deployment) {name : String} (member : name ∈ d.names)
    : '\n' ∉ name.toList := by
  intro inside
  have accepted := List.all_eq_true.mp (d.named name member) '\n' inside
  exact absurd accepted (by decide)

/-- A month's fifth character is a hyphen. -/
theorem isMonthText_hyphen {text : List Char} (month : isMonthText text = true)
    : text[4]? = some '-' := by
  unfold isMonthText at month
  split at month
  · rfl
  · cases month

/-- A UUID's 34th character is not a hyphen. -/
theorem isUuidLine_hyphen {text : List Char} (uuid : isUuidLine text = true)
    : text.length = 36 ∧ text[33]? ≠ some '-' := by
  simp only [isUuidLine, Bool.and_eq_true, decide_eq_true_eq] at uuid
  obtain ⟨length, digits⟩ := uuid
  refine ⟨length, fun hyphen => ?_⟩
  have inside : ('-', 33) ∈ text.zipIdx := List.mem_zipIdx_iff_getElem?.mpr hyphen
  have hex := List.all_eq_true.mp digits _ inside
  exact absurd hex (by decide)

/-- A document's key is no chat key: its name ends in a UUID. -/
theorem chatMonth?_document {tenant document : String} (valid : isUuid document = true)
    (oneLine : '\n' ∉ document.toList)
    : chatMonth? ("fau-" ++ tenant ++ "-doc-" ++ document) = none := by
  have uuid : isUuidLine document.toList = true := by
    rw [isUuid, List.splitOn_eq_singleton oneLine] at valid
    simpa using valid
  obtain ⟨length, hyphen⟩ := isUuidLine_hyphen uuid
  unfold chatMonth?
  refine if_neg fun ⟨_, _, _, month⟩ => hyphen ?_
  -- the last seven characters are the UUID's
  have last := isMonthText_hyphen month
  rw [List.getElem?_drop, String.toList_append, List.length_append, length,
    List.getElem?_append_right (by omega)] at last
  rw [← last]
  congr 1
  omega

theorem document_triple {tenant document : String}
    : Triple (Consistent d 0 none) (Keys.document d tenant document)
        (fun _ => Consistent d 0 none) (Leaves d 0) := by
  refine .bind (exitIf_triple fun _ h => .inl h) fun _ => ?_
  by_cases valid : isUuid document = true
  · refine (soft_triple fun member since _ => .inr ?_).mono (fun _ h => h.1) fun _ _ h => h
    rintro ⟨month, chat, _⟩
    have oneLine : '\n' ∉ document.toList := fun inside =>
      d.newline_notMem member (by simp [inside])
    rw [chatMonth?_document valid oneLine] at chat
    cases chat
  · intro w ⟨_, checked⟩
    simp [valid] at checked

/-- The expiry of one chat key, in a month the clock has reached. -/
theorem expireChat_triple {time : Nat}
    : Triple (Consistent d time none) (expireChat d (utcMonth time) key)
        (fun _ => Consistent d time none) (Leaves d time) := by
  unfold expireChat
  cases chat : chatMonth? key with
  | none => exact .pure fun _ h => h
  | some month =>
      dsimp only
      cases young : chatIsYoung month (utcMonth time) with
      | none => exact throw_triple
      | some young' =>
          cases young' with
          | true => exact .pure fun _ h => h
          | false =>
              refine soft_triple fun _ since later => .inr fun young'' => ?_
              obtain ⟨month', chat', still⟩ := young''.anti later
              cases chat.symm.trans chat'
              exact still young

theorem Leaves.mono {w : World} (h : Leaves d floor w) : Leaves d 0 w :=
  h.imp (fun consistent => consistent.mono (Nat.zero_le floor)) id

theorem chatExpire_triple
    : Triple (Consistent d 0 none) (chatExpire d) (fun _ => Consistent d 0 none)
        (Leaves d 0) := by
  refine .bind (now_triple (Q := fun time w => Consistent d time none w) fun w h =>
    { h.read with reached := d.forward (Nat.le_succ w.reads) }) fun time => ?_
  have expires : Triple (Consistent d time none)
      (do let names ← listKeys d; names.forM (expireChat d (utcMonth time)))
      (fun _ => Consistent d time none) (Leaves d time) :=
    .bind listKeys_triple fun names => .forM fun key _ => expireChat_triple
  exact expires.weaken (fun _ _ h => h.mono (Nat.zero_le time)) fun _ h => h.mono

theorem restore_triple
    : Triple (Consistent d 0 none) (restore d key) (fun _ => Consistent d 0 none)
        (Leaves d 0) := by
  refine .bind (exitIf_triple fun _ h => .inl h) fun _ => ?_
  refine .bind (readKey_triple (Q := fun state w => Consistent d 0 none w
    ∧ w.keys key = state) fun w h => ⟨h.1, rfl⟩) fun state => ?_
  refine .bind (exitIf_triple fun _ h => .inl h.1) fun _ => ?_
  refine .bind (R := fun _ => Consistent d 0 none) (Q := fun _ => Consistent d 0 none) ?_
    fun _ => ?_
  · refine mutate_triple (fun _ h => .inl h.1.1) fun w ⟨⟨h, found⟩, present⟩ => ?_
    exact h.restore (by simpa [found] using present)
  · exact mutate_triple (fun _ h => .inl h) fun _ h => h.dequeue

/-- A soft-deleted key whose window has passed on the clock. -/
def Due (d : Deployment) (key : String) (w : World) : Prop :=
  Consistent d 0 none w ∧ w.keys key = .softDeleted
    ∧ ∀ since reason, inForce key w.history = some (since, reason) →
      since + window ≤ d.clock w.reads

theorem destroyKey_triple
    : Triple (Due d key) (destroyKey d key) (fun _ => Consistent d 0 none) (Leaves d 0) := by
  refine .bind (Q := fun _ => Due d key) ?_ fun _ => ?_
  · refine mutate_triple (fun _ h => .inl h.1) fun w ⟨h, deleted, old⟩ => ?_
    exact ⟨h.allowDeletion, deleted, fun since reason found =>
      (old since reason found).trans (d.forward (Nat.le_succ w.reads))⟩
  · refine .bind (Q := fun _ => Consistent d 0 none) ?_ fun _ => ?_
    · exact mutate_triple (fun _ h => .inl h.1) fun _ ⟨h, deleted, old⟩ => h.destroy deleted old
    · exact mutate_triple (fun _ h => .inl h) fun _ h => h.dequeue

/-- A queue entry whose window has passed: if the key is soft-deleted, then for the window. -/
theorem finalizeDue_triple {current : Nat} {refused : Bool} {entry : QueueEntry}
    : Triple (fun w => Consistent d 0 none w ∧ w.queue key = some entry
          ∧ entry.softDeletedAt + window ≤ d.clock w.reads)
        (finalizeDue d current refused key entry) (fun _ => Consistent d 0 none)
        (Leaves d 0) := by
  refine .bind (readKey_triple (Q := fun state w => (Consistent d 0 none w
    ∧ w.queue key = some entry ∧ entry.softDeletedAt + window ≤ d.clock w.reads)
    ∧ w.keys key = state) fun w h => ⟨h, rfl⟩) fun state => ?_
  have unqueued (state : KeyState) : Triple (fun w => (Consistent d 0 none w
      ∧ w.queue key = some entry ∧ entry.softDeletedAt + window ≤ d.clock w.reads)
      ∧ w.keys key = state) (do mutate d (.dequeue key); return refused)
      (fun _ => Consistent d 0 none) (Leaves d 0) := by
    refine .bind (Q := fun _ => Consistent d 0 none) ?_ fun _ => .pure fun _ h => h
    exact mutate_triple (fun _ h => .inl h.1.1) fun _ h => h.1.1.dequeue
  cases state with
  | active => exact unqueued .active
  | gone => exact unqueued .gone
  | softDeleted =>
      dsimp only
      cases isRefused current key entry.reason with
      | none => exact throw_triple.mono (fun _ h => h.1.1) fun _ _ h => h
      | some refuses =>
          cases refuses with
          | true => exact .pure fun _ h => h.1.1
          | false =>
              refine .bind (destroyKey_triple.mono ?_ fun _ _ h => h) fun _ => .pure fun _ h => h
              rintro w ⟨⟨h, queued, passed⟩, deleted⟩
              refine ⟨h, deleted, fun since reason found => ?_⟩
              have recent := h.current key entry since reason (by simp) queued found
              omega

theorem finalizeKey_triple {current : Nat} {refused : Bool}
    : Triple (Consistent d 0 none) (finalizeKey d current refused key)
        (fun _ => Consistent d 0 none) (Leaves d 0) := by
  refine .bind (readQueue_triple (Q := fun entry w => Consistent d 0 none w
    ∧ w.queue key = entry) fun w h => ⟨h, rfl⟩) fun entry => ?_
  cases entry with
  | none => exact .pure fun _ h => h.1
  | some entry =>
      refine .bind (now_triple (Q := fun time w => Consistent d 0 none w
        ∧ w.queue key = some entry ∧ time ≤ d.clock w.reads) fun w h =>
        ⟨h.1.read, h.2, d.forward (Nat.le_succ w.reads)⟩) fun time => ?_
      split
      · exact .pure fun _ h => h.1
      · next passed =>
          refine finalizeDue_triple.mono (fun w ⟨h, queued, reached⟩ => ⟨h, queued, ?_⟩)
            fun _ _ h => h
          omega

theorem finalize_triple
    : Triple (Consistent d 0 none) (finalize d) (fun _ => Consistent d 0 none)
        (Leaves d 0) := by
  refine .bind (now_triple (Q := fun _ => Consistent d 0 none) fun w h => h.read) fun time => ?_
  refine .bind listQueue_triple fun names => ?_
  refine .bind (.foldlM fun refused key _ => finalizeKey_triple) fun refused => ?_
  exact (exitIf_triple fun _ h => .inl h).mono (fun _ h => h) fun _ _ h => h.1

/-- Every run of the script leaves the world consistent, or stops at a stale entry. -/
theorem shred_triple (args : List String)
    : Triple (Consistent d 0 none) (shred d args) (fun _ => Consistent d 0 none)
        (Leaves d 0) := by
  unfold shred
  split
  · exact fau_triple
  · exact document_triple
  · exact chatExpire_triple
  · exact restore_triple
  · exact finalize_triple
  · exact throw_triple

end

-----------------------------------------------------------------------------------------
-- Sequences of runs

variable {d : Deployment}

theorem consistent_start (d : Deployment) : Consistent d 0 none d.start := by
  refine ⟨Nat.zero_le _, by simp [Deployment.start], ?_, ?_, ?_, ?_, ?_⟩
  · rintro key (present | queued)
    · by_contra absent
      exact present (if_neg absent)
    · simp [Deployment.start, Lookup.empty] at queued
  · intro key
    by_cases member : key ∈ d.names <;> simp [Deployment.start, inForce, member]
  · intro key since reason found
    cases found
  · intro key entry since reason _ found
    simp [Deployment.start, Lookup.empty] at found
  · intro newer time key older split
    simp [Deployment.start] at split

/-- One run keeps the world consistent unless it stops at a stale entry. -/
theorem Consistent.run {w : World} (h : Consistent d 0 none w) (run : Run)
    : Leaves d 0 (runOnce d w run) :=
  ((shred_triple run.args).mono (fun _ h => h) fun _ _ h => .inl h).world_of
    (w := { w with budget := run.budget }) { h with }

/-- As long as no run stops at a stale entry, the world stays consistent, by induction on the
runs.
-/
theorem consistent_worldAfter {runs : List Run}
    (completes : ∀ n, ¬ StopsStale (worldAfter d (runs.take n)))
    : Consistent d 0 none (worldAfter d runs) := by
  induction runs using List.reverseRecOn with
  | nil => exact consistent_start d
  | append_singleton before run ih =>
      have earlier : Consistent d 0 none (worldAfter d before) := by
        refine ih fun n => ?_
        by_cases within : n ≤ before.length
        · have same := completes n
          rwa [List.take_append_of_le_length within] at same
        · have same := completes before.length
          rw [List.take_left] at same
          rwa [List.take_of_length_le (by omega)]
      have after : worldAfter d (before ++ [run]) = runOnce d (worldAfter d before) run := by
        simp [worldAfter]
      have last := completes (before ++ [run]).length
      rw [List.take_length] at last
      rw [after] at last ⊢
      exact (earlier.run run).resolve_right last

/-- Where no run stops between the soft delete of a key that an older entry still queues and
the write of its new entry, every destroyed key had been soft-deleted for the whole window,
and a young chat key by the FAU command.
-/
theorem shred_keepsWindow (d : Deployment) (runs : List Run)
    (completes : ∀ n, ¬ StopsStale (worldAfter d (runs.take n)))
    : KeepsWindow (worldAfter d runs).history :=
  (consistent_worldAfter completes).late

-----------------------------------------------------------------------------------------
-- A key restored halfway

def sampleTenant : String := "aaaaaaaa-0000-4000-8000-000000000000"

def sampleKey : String := "fau-aaaaaaaa-0000-4000-8000-000000000000-record"

/-- One key, and a clock that shows 0 three times, a later time three times, and then the end
of the window.
-/
def sampleDeployment (later : Nat) (within : later ≤ window) : Deployment where
  names := [sampleKey]
  clock reading := if reading < 3 then 0 else if reading < 6 then later else window
  named := by decide +kernel
  forward := by
    intro earlier reading order
    dsimp only
    split
    · exact Nat.zero_le _
    · split <;> split <;> (try split) <;> omega

theorem not_stopsStale {w : World} {event : Event} (last : w.history.head? = some event)
    (other : ∀ key reason, event.write ≠ .softDelete key reason)
    : ¬ StopsStale w := by
  rintro ⟨time, key, reason, older, _, same, _⟩
  rw [same] at last
  cases last
  exact other key reason rfl

/-- A key deleted with its FAU is destroyed when the window ends. -/
theorem sampleRuns_keepsWindow
    : KeepsWindow (worldAfter (sampleDeployment window (Nat.le_refl _))
        [⟨["fau", sampleTenant], 2⟩, ⟨["finalize"], 3⟩]).history
      ∧ ⟨window, .destroy sampleKey⟩ ∈ (worldAfter (sampleDeployment window (Nat.le_refl _))
        [⟨["fau", sampleTenant], 2⟩, ⟨["finalize"], 3⟩]).history := by
  refine ⟨shred_keepsWindow _ _ fun n => ?_, by decide +kernel⟩
  match n with
  | 0 =>
      rintro ⟨_, _, _, _, _, same, _⟩
      cases same
  | 1 =>
      have last : (worldAfter (sampleDeployment window (Nat.le_refl _))
          [⟨["fau", sampleTenant], 2⟩]).history.head?
            = some ⟨0, .enqueue sampleKey ⟨0, .fau⟩⟩ := by decide +kernel
      exact not_stopsStale last (by simp)
  | n + 2 =>
      have last : (worldAfter (sampleDeployment window (Nat.le_refl _))
          [⟨["fau", sampleTenant], 2⟩, ⟨["finalize"], 3⟩]).history.head?
            = some ⟨window, .dequeue sampleKey⟩ := by decide +kernel
      rw [List.take_of_length_le (by simp)]
      exact not_stopsStale last (by simp)

/-- The restore stops before it removes the entry, and the next soft delete before it renews
it: the key is destroyed a day after it was soft-deleted.
-/
theorem halfRestored_destroyed_early
    : ¬ ∀ (d : Deployment) (runs : List Run), KeepsWindow (worldAfter d runs).history := by
  intro claim
  let d := sampleDeployment (6 * 86400) (by decide)
  let runs : List Run := [⟨["fau", sampleTenant], 2⟩, ⟨["restore", sampleKey], 1⟩,
    ⟨["fau", sampleTenant], 1⟩, ⟨["finalize"], 3⟩]
  have history : (worldAfter d runs).history
      = [⟨window, .dequeue sampleKey⟩] ++ ⟨window, .destroy sampleKey⟩
        :: [⟨window, .allowDeletion sampleKey⟩, ⟨6 * 86400, .softDelete sampleKey .fau⟩,
          ⟨6 * 86400, .restore sampleKey⟩, ⟨0, .enqueue sampleKey ⟨0, .fau⟩⟩,
          ⟨0, .softDelete sampleKey .fau⟩] := by
    decide +kernel
  obtain ⟨since, reason, force, late, _⟩ := claim d runs _ _ _ _ history
  have same : (since, reason) = (6 * 86400, Reason.fau) := by
    refine (Option.some.inj (force.symm.trans ?_))
    simp [inForce]
  cases same
  exact absurd late (by decide)

end FauPortalen.Keys
