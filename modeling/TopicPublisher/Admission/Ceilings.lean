import TopicPublisher.Error

/-!
Ceilings on what a publisher holds between admission and outcome, and what becomes of a
message that would exceed one.
-/

namespace TopicPublisher

/-- What happens to a message at a ceiling: it waits for room, or it is refused at once. -/
inductive LimitBehavior where
  | block
  | failFast
deriving DecidableEq, Repr, Inhabited

/-- The most permits that one ceiling can hand out. -/
def maxPermits : Nat := Nat.pow 2 61 - 1

/-- The ceilings on outstanding messages and on their bytes. A ceiling that is absent does not
bind. -/
structure Ceilings where
  elements : Option Nat := none
  bytes : Option Nat := none
  behavior : LimitBehavior := .block
deriving DecidableEq, Repr, Inhabited

namespace Ceilings

/-- A ceiling must be positive and no more than the permits there can be. -/
def validateLimit (kind : Limit) : Option Nat → Except ConfigError Unit
  | none => .ok ()
  | some limit =>
    if limit = 0 then .error (.zeroOutstandingLimit kind)
    else if maxPermits < limit then .error (.outstandingLimitTooLarge kind limit maxPermits)
    else .ok ()

def validate (c : Ceilings) : Except ConfigError Unit :=
  match validateLimit .elementCount c.elements with
  | .error e => .error e
  | .ok () => validateLimit .requestBytes c.bytes

/-- How many byte permits a message of some size takes, if it can be admitted at all: under a
ceiling on bytes its size may exceed neither the ceiling nor 32 bits. -/
def bytePermits (c : Ceilings) (size : Nat) : Except PublishError Nat :=
  match c.bytes with
  | none => .ok 0
  | some limit =>
    if limit < size ∨ Nat.pow 2 32 ≤ size then .error (.admissionRejected .requestBytes)
    else .ok size

def supported (c : Ceilings) : Bool :=
  c.elements.all (· ≤ maxPermits) && c.bytes.all (· ≤ maxPermits)

theorem validateLimit_eq_ok_iff (kind : Limit) (limit : Option Nat) :
    validateLimit kind limit = .ok () ↔ ∀ n, limit = some n → 0 < n ∧ n ≤ maxPermits := by
  cases limit with
  | none => simp [validateLimit]
  | some n =>
    unfold validateLimit
    repeat' split
    all_goals simp_all
    all_goals omega

theorem validate_eq_ok_iff (c : Ceilings) :
    c.validate = .ok () ↔
      (∀ n, c.elements = some n → 0 < n ∧ n ≤ maxPermits) ∧
        (∀ n, c.bytes = some n → 0 < n ∧ n ≤ maxPermits) := by
  rw [← validateLimit_eq_ok_iff .elementCount, ← validateLimit_eq_ok_iff .requestBytes]
  unfold validate
  split <;> simp_all

end Ceilings
end TopicPublisher
