/-!
Totals: the sum of an amount over a list.
-/

namespace TopicPublisher

variable {α : Type}

/-- The sum of the amounts of the elements of a list. The zero is spelled out because a larger part
of the library has another way to it. -/
def total (amount : α → Nat) (xs : List α) : Nat := @List.sum Nat _ ⟨0⟩ (xs.map amount)

@[simp] theorem total_nil (amount : α → Nat) : total amount [] = 0 := rfl

@[simp] theorem total_cons (amount : α → Nat) (a : α) (rest : List α) :
    total amount (a :: rest) = amount a + total amount rest := rfl

end TopicPublisher
