/-!
The ledger of outstanding work: how many messages are admitted and not resolved, and their
bytes. Both numbers have 64 bits and wrap.
-/

namespace TopicPublisher

structure Ledger where
  elements : UInt64 := 0
  bytes : UInt64 := 0
deriving DecidableEq, Repr, Inhabited

namespace Ledger

def acquire (l : Ledger) (size : Nat) : Ledger :=
  ⟨l.elements + 1, l.bytes + UInt64.ofNat size⟩

def release (l : Ledger) (size : Nat) : Ledger :=
  ⟨l.elements - 1, l.bytes - UInt64.ofNat size⟩

theorem release_acquire (l : Ledger) (size : Nat) : (l.acquire size).release size = l := by
  simp [acquire, release]

end Ledger
end TopicPublisher
