import ApiExposure.Grant
import ApiExposure.Registry.Table
import ApiExposure.Time.Instant

/-!
# The ledger of revocations

A call that was revoked stays revoked until it is reinstated; nothing else
clears it.
-/

namespace ApiExposure

/-- What the ledger says about a call. -/
inductive LedgerState where
  /-- The call is revoked. -/
  | revoked
  /-- The call was revoked and then reinstated. -/
  | active
  deriving DecidableEq, Repr, Inhabited

/-- A line of the ledger. -/
structure LedgerEntry where
  /-- What it says. -/
  state : LedgerState
  /-- Since when. -/
  changedAt : Instant
  deriving DecidableEq, Repr, Inhabited

/-- Calls that were ever revoked. -/
structure Ledger where
  /-- Lines in the order of the first revocation. -/
  table : Table Call LedgerEntry

namespace Ledger

/-- The ledger without lines. -/
def empty : Ledger := ⟨.empty⟩

instance : Inhabited Ledger := ⟨empty⟩

/-- The line of a call. -/
def entry? (l : Ledger) (c : Call) : Option LedgerEntry := l.table.get? c

/-- Whether a call is revoked. -/
def isRevoked (l : Ledger) (c : Call) : Bool := (l.entry? c).any (fun e => e.state == .revoked)

/-- Marks a call as revoked, whatever was said before. -/
def revoke (l : Ledger) (c : Call) (now : Instant) : Ledger :=
  ⟨l.table.insert c ⟨.revoked, now⟩⟩

/-- Clears the revocation of a call; tells whether there was one. -/
def reinstate (l : Ledger) (c : Call) (now : Instant) : Bool × Ledger :=
  if l.isRevoked c then (true, ⟨l.table.insert c ⟨.active, now⟩⟩) else (false, l)

/-- Number of revoked calls. -/
def revokedCount (l : Ledger) : Nat := l.table.values.countP (fun e => e.state == .revoked)

/-- Revoking a call revokes that call and no other. -/
theorem isRevoked_revoke (l : Ledger) (c d : Call) (now : Instant) :
    (l.revoke c now).isRevoked d = (decide (d = c) || l.isRevoked d) := by
  by_cases h : d = c
  · subst h; simp [isRevoked, entry?, revoke]
  · simp [isRevoked, entry?, revoke, Table.get?_insert_of_ne _ _ h, h]

/-- Reinstating a call clears that call and no other. -/
theorem isRevoked_reinstate (l : Ledger) (c d : Call) (now : Instant) :
    (l.reinstate c now).2.isRevoked d = (!decide (d = c) && l.isRevoked d) := by
  unfold reinstate
  by_cases h : d = c
  · subst h
    split
    · simp [isRevoked, entry?]
    · next hr => simpa using hr
  · split
    · simp [isRevoked, entry?, Table.get?_insert_of_ne _ _ h, h]
    · simp [h]

end Ledger

end ApiExposure
