import TopicPublisher.Total

/-!
Messages: a payload of bytes and text attributes, one value for each key. The size of a
message is what batching and admission account for.
-/

namespace TopicPublisher

/-- The identifier that the service gives to a published message. -/
abbrev MessageId := String

/-- Attributes in the order of their keys, which is the order of the keys' UTF-8 bytes. -/
abbrev Attributes := List (String × String)

namespace Attributes

/-- Sets the value of a key; a value that the key had before is replaced. -/
def set (key value : String) : Attributes → Attributes
  | [] => [(key, value)]
  | (k, v) :: rest =>
    if key = k then (key, value) :: rest
    else if key < k then (key, value) :: (k, v) :: rest
    else (k, v) :: set key value rest

def get? (key : String) : Attributes → Option String
  | [] => none
  | (k, v) :: rest => if key = k then some v else get? key rest

/-- The UTF-8 bytes of all keys and values. -/
def size (attributes : Attributes) : Nat :=
  total (fun (k, v) => k.utf8ByteSize + v.utf8ByteSize) attributes

theorem get?_set_self (key value : String) (attributes : Attributes) :
    get? key (set key value attributes) = some value := by
  induction attributes with
  | nil => simp [set, get?]
  | cons head rest ih =>
    obtain ⟨k, v⟩ := head
    simp only [set]
    split
    · simp [get?]
    · split
      · simp [get?]
      · simp_all [get?]

theorem get?_set_of_ne {key other : String} (h : other ≠ key) (value : String)
    (attributes : Attributes) : get? other (set key value attributes) = get? other attributes := by
  induction attributes with
  | nil => simp [set, get?, h]
  | cons head rest ih =>
    obtain ⟨k, v⟩ := head
    simp only [set]
    split
    · next e => subst e; simp [get?, h]
    · split
      · simp [get?, h]
      · simp [get?, ih]

end Attributes

structure Message where
  payload : ByteArray
  attributes : Attributes := []
deriving Inhabited

instance : DecidableEq Message := fun a b =>
  decidable_of_decidable_of_iff
    (p := a.payload.data = b.payload.data ∧ a.attributes = b.attributes) <| by
    obtain ⟨⟨_⟩, _⟩ := a
    obtain ⟨⟨_⟩, _⟩ := b
    simp

namespace Message

def ofText (text : String) : Message := ⟨text.toUTF8, []⟩

def filled (byte : UInt8) (count : Nat) : Message :=
  ⟨Nat.repeat (fun bytes => bytes.push byte) count (ByteArray.emptyWithCapacity count), []⟩

def withAttribute (m : Message) (key value : String) : Message :=
  { m with attributes := m.attributes.set key value }

def size (m : Message) : Nat := m.payload.size + m.attributes.size

end Message
end TopicPublisher
