import TopicPublisher.Message

/-!
Batches. An entry is an admitted message under the number of the publish call that brought it;
a batch is an ordered group of entries that is sent in one call.
-/

namespace TopicPublisher

/-- An admitted message and the number of its publish call. -/
structure Entry where
  id : Nat
  message : Message
deriving DecidableEq, Inhabited

def Entry.size (e : Entry) : Nat := e.message.size

/-- An ordered group of entries with the sum of their sizes. -/
structure Batch where
  entries : List Entry := []
  bytes : Nat := 0
deriving DecidableEq, Inhabited

namespace Batch

def push (b : Batch) (e : Entry) : Batch := ⟨b.entries ++ [e], b.bytes + e.size⟩

def ofEntries (entries : List Entry) : Batch := entries.foldl push {}

def size (b : Batch) : Nat := b.entries.length

def isEmpty (b : Batch) : Bool := b.entries.isEmpty

def messages (b : Batch) : List Message := b.entries.map (·.message)

def ids (b : Batch) : List Nat := b.entries.map (·.id)

@[simp] theorem entries_push (b : Batch) (e : Entry) : (b.push e).entries = b.entries ++ [e] := rfl

@[simp] theorem bytes_push (b : Batch) (e : Entry) : (b.push e).bytes = b.bytes + e.size := rfl

end Batch
end TopicPublisher
