/-!
Lengths of time, and the clock that waits are measured on. A length is a number of
nanoseconds; the clock reads whole milliseconds, so a wait ends at the first whole
millisecond at or after its instant.
-/

namespace TopicPublisher

structure Duration where
  nanos : Nat
deriving DecidableEq, Repr, Inhabited

namespace Duration

def zero : Duration := ⟨0⟩

def ofMicros (n : Nat) : Duration := ⟨n * 1000⟩

def ofMillis (n : Nat) : Duration := ⟨n * 1000000⟩

def ofSecs (n : Nat) : Duration := ⟨n * 1000000000⟩

/-- The longest length that 64 bits of seconds and a nanosecond part can hold. -/
def longest : Duration := ⟨(Nat.pow 2 64 - 1) * 1000000000 + 999999999⟩

instance : LE Duration := ⟨fun a b => a.nanos ≤ b.nanos⟩
instance : LT Duration := ⟨fun a b => a.nanos < b.nanos⟩
instance : DecidableLE Duration := fun a b => inferInstanceAs (Decidable (a.nanos ≤ b.nanos))
instance : DecidableLT Duration := fun a b => inferInstanceAs (Decidable (a.nanos < b.nanos))

protected def min (a b : Duration) : Duration := ⟨Nat.min a.nanos b.nanos⟩

instance : Min Duration := ⟨Duration.min⟩

/-- What is left of `a` once `b` is taken off, and nothing where `b` is longer. -/
protected def sub (a b : Duration) : Duration := ⟨a.nanos - b.nanos⟩

instance : Sub Duration := ⟨Duration.sub⟩

def toMillis (d : Duration) : Nat := d.nanos / 1000000

def isZero (d : Duration) : Bool := d.nanos == 0

theorem le_def (a b : Duration) : a ≤ b ↔ a.nanos ≤ b.nanos := Iff.rfl

theorem lt_def (a b : Duration) : a < b ↔ a.nanos < b.nanos := Iff.rfl

@[simp] theorem nanos_min (a b : Duration) : (min a b).nanos = min a.nanos b.nanos := rfl

@[simp] theorem nanos_sub (a b : Duration) : (a - b).nanos = a.nanos - b.nanos := rfl

@[simp] theorem nanos_ofMillis (n : Nat) : (ofMillis n).nanos = n * 1000000 := rfl

@[simp] theorem isZero_iff (d : Duration) : d.isZero = true ↔ d.nanos = 0 := by
  simp [isZero]

private def paddedDigits (width n : Nat) : List Char :=
  let digits := Nat.toDigits 10 n
  List.replicate (width - digits.length) '0' ++ digits

/-- A whole part and a fraction of `places` decimal places, written without the zeros that
end the fraction and without a point where the fraction is zero. -/
def decimalText (whole fraction places : Nat) : String :=
  if fraction = 0 then toString whole
  else
    let digits := ((paddedDigits places fraction).reverse.dropWhile (· == '0')).reverse
    toString whole ++ "." ++ String.ofList digits

/-- The text of a length: the largest of s, ms, µs and ns that leaves a whole part, then as
many decimal places as are needed. -/
def text (d : Duration) : String :=
  if 1000000000 ≤ d.nanos then
    decimalText (d.nanos / 1000000000) (d.nanos % 1000000000) 9 ++ "s"
  else if 1000000 ≤ d.nanos then decimalText (d.nanos / 1000000) (d.nanos % 1000000) 6 ++ "ms"
  else if 1000 ≤ d.nanos then decimalText (d.nanos / 1000) (d.nanos % 1000) 3 ++ "µs"
  else toString d.nanos ++ "ns"

end Duration

/-! Instants count nanoseconds from the clock's start, clock readings milliseconds. -/

namespace Clock

def instant (now : Nat) : Nat := now * 1000000

/-- An instant can be represented while its whole seconds fit 63 bits. -/
def representable (t : Nat) : Bool := decide (t < Nat.pow 2 63 * 1000000000)

def ceilMillis (t : Nat) : Nat := (t + 999999) / 1000000

/-- The timers of the clock. They cannot wait until an end that cannot be represented, and end
such a wait after a fixed number of milliseconds. -/
class Timers where
  farFuture : Nat
  farFuture_pos : 0 < farFuture

/-- Timers that take thirty years for the far future. -/
instance : Timers := ⟨946080000000, by decide⟩

/-- The reading at which a wait of length `d` that begins at reading `now` ends. -/
def wakeAfter [Timers] (now : Nat) (d : Duration) : Nat :=
  if representable (instant now + d.nanos) then ceilMillis (instant now + d.nanos)
  else now + Timers.farFuture

/-- The time that has passed between two readings. -/
def elapsed (since now : Nat) : Duration := Duration.ofMillis (now - since)

theorem ceilMillis_le_iff (t n : Nat) : ceilMillis t ≤ n ↔ t ≤ instant n := by
  unfold ceilMillis instant
  omega

theorem ceilMillis_mono {t u : Nat} (h : t ≤ u) : ceilMillis t ≤ ceilMillis u := by
  unfold ceilMillis
  omega

theorem ceilMillis_instant_add (n t : Nat) : ceilMillis (instant n + t) = n + ceilMillis t := by
  unfold ceilMillis instant
  omega

theorem representable_mono {t u : Nat} (h : t ≤ u) (near : representable u = true) :
    representable t = true :=
  decide_eq_true (Nat.lt_of_le_of_lt h (of_decide_eq_true near))

theorem wakeAfter_near [Timers] {now : Nat} {d : Duration}
    (near : representable (instant now + d.nanos) = true) :
    wakeAfter now d = ceilMillis (instant now + d.nanos) :=
  if_pos near

theorem wakeAfter_far [Timers] {now : Nat} {d : Duration}
    (far : representable (instant now + d.nanos) = false) :
    wakeAfter now d = now + Timers.farFuture :=
  if_neg (Bool.eq_false_iff.mp far)

theorem le_wakeAfter [Timers] (now : Nat) (d : Duration) : now ≤ wakeAfter now d := by
  unfold wakeAfter ceilMillis instant
  split <;> omega

end Clock
end TopicPublisher
