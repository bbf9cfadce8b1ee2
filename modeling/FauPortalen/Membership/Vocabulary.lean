import FauPortalen.Calendar

/-! The closed sets the membership tables are built from, with addresses, envelopes and half-open
periods.
-/

namespace FauPortalen.Membership

-----------------------------------------------------------------------------------------
-- Closed sets

/-- The privilege a role grants. -/
inductive CapabilityClass
  | member
  | admin
  | guest
deriving DecidableEq

inductive TenantStatus
  | pending
  | active
  | closed
deriving DecidableEq

inductive InvitationMode
  /-- Issued by an admin valid today. -/
  | normal
  /-- The leader invitation that activation writes. -/
  | activation
  /-- Issued under an outgoing admin's handover grant. -/
  | handover
  /-- Issued by the recovery contact of an FAU without an admin. -/
  | recovery
deriving DecidableEq

inductive RequestKind
  | access
  | replacement
deriving DecidableEq

inductive RequestStatus
  | pending
  | approved
  | declined
  | withdrawn
  | lapsed
deriving DecidableEq

/-- Who holds the recovery-contact seat. -/
inductive RecoveryHolder
  | ewb
  | schoolRep
deriving DecidableEq

-----------------------------------------------------------------------------------------
-- Addresses and envelopes

/-- An address `Email::parse` has accepted, in its stored form. -/
structure Email where
  asStr : String
deriving DecidableEq

/-- An envelope as the key service made it. -/
structure Ciphertext where
  bytes : List UInt8
deriving DecidableEq

/-- The sizes a member field or a group name may have, and the envelope's version byte. -/
def Ciphertext.wellFormed (ciphertext : Ciphertext) : Bool :=
  42 ≤ ciphertext.bytes.length && ciphertext.bytes.length ≤ 512
    && ciphertext.bytes.head? = some 1

-----------------------------------------------------------------------------------------
-- Periods

/-- The days from the first up to, not including, the last: at least one. -/
structure Period where
  startsOn : Date
  endsOnExclusive : Date
  nonEmpty : startsOn < endsOnExclusive
deriving DecidableEq

namespace Period

def new (startsOn endsOnExclusive : Date) : Option Period :=
  if h : startsOn < endsOnExclusive then some ⟨startsOn, endsOnExclusive, h⟩ else none

/-- A period written out, the order of its ends checked by evaluation. -/
def ofEnds (startsOn endsOnExclusive : Date)
    (checked : true = decide (startsOn < endsOnExclusive))
    : Period :=
  ⟨startsOn, endsOnExclusive, of_decide_eq_true checked.symm⟩

def contains (period : Period) (day : Date) : Bool :=
  period.startsOn ≤ day && day < period.endsOnExclusive

/-- Whether the period is over by the day. -/
def hasEndedBy (period : Period) (day : Date) : Bool := period.endsOnExclusive ≤ day

variable {period : Period} {day : Date}

@[simp]
theorem contains_iff
    : period.contains day = true ↔ period.startsOn ≤ day ∧ day < period.endsOnExclusive := by
  simp [contains]

@[simp]
theorem hasEndedBy_iff : period.hasEndedBy day = true ↔ period.endsOnExclusive ≤ day := by
  simp [hasEndedBy]

theorem hasEndedBy_eq_false : period.hasEndedBy day = false ↔ day < period.endsOnExclusive := by
  simp [hasEndedBy]

theorem new_eq_some {first last : Date}
    : new first last = some period
      ↔ period.startsOn = first ∧ period.endsOnExclusive = last := by
  unfold new
  split
  · next ordered =>
      constructor
      · intro made
        cases made
        exact ⟨rfl, rfl⟩
      · rintro ⟨rfl, rfl⟩
        rfl
  · next empty =>
      refine iff_of_false nofun ?_
      rintro ⟨rfl, rfl⟩
      exact empty period.nonEmpty

end Period

end FauPortalen.Membership
