import TopicPublisher.Message
import TopicPublisher.Proofs.Text.ByteOrder
import Mathlib.Data.List.Dedup
import Mathlib.Data.List.Induction
import Mathlib.Data.List.Sort

/-!
Messages that are put together call by call. Attributes stand in the order of their keys, one for
each key, so they are determined by what can be looked up in them. Main statement: each key has the
value of its last call, and the size of a message counts each key once.
-/

namespace TopicPublisher

namespace Attributes

variable {attributes others : Attributes} {key value : String} {p : String × String}

/-- The keys stand in their order, and no key stands twice. -/
def Sorted (attributes : Attributes) : Prop := attributes.Pairwise fun a b => a.1 < b.1

theorem mem_of_mem_set (h : p ∈ set key value attributes) : p = (key, value) ∨ p ∈ attributes := by
  induction attributes with
  | nil => exact .inl (List.mem_singleton.mp h)
  | cons first rest ih =>
    rw [set] at h
    split at h
    · exact (List.mem_cons.mp h).imp_right (List.mem_cons_of_mem _)
    split at h
    · exact List.mem_cons.mp h
    · rcases List.mem_cons.mp h with rfl | h
      · exact .inr (List.mem_cons_self ..)
      · exact (ih h).imp_right (List.mem_cons_of_mem _)

theorem Sorted.set (h : attributes.Sorted) (key value : String) :
    (attributes.set key value).Sorted := by
  induction attributes with
  | nil => exact List.pairwise_singleton _ _
  | cons first rest ih =>
    obtain ⟨least, sorted⟩ := List.pairwise_cons.mp h
    rw [Attributes.set]
    split
    · next same => exact List.pairwise_cons.mpr ⟨same ▸ least, sorted⟩
    split
    · next before =>
      refine List.pairwise_cons.mpr ⟨fun p hp => ?_, h⟩
      rcases List.mem_cons.mp hp with rfl | hp
      · exact before
      · exact before.trans (least p hp)
    · next other after =>
      refine List.pairwise_cons.mpr ⟨fun p hp => ?_, ih sorted⟩
      rcases mem_of_mem_set hp with rfl | hp
      · exact lt_of_le_of_ne (not_lt.mp after) (Ne.symm other)
      · exact least p hp

theorem Sorted.nodup_keys (h : attributes.Sorted) : (attributes.map Prod.fst).Nodup :=
  List.pairwise_map.mpr (h.imp ne_of_lt)

/-- What stands in attributes is what is found in them. -/
theorem Sorted.mem_iff (h : attributes.Sorted) :
    (key, value) ∈ attributes ↔ get? key attributes = some value := by
  induction attributes with
  | nil => simp [get?]
  | cons first rest ih =>
    obtain ⟨least, sorted⟩ := List.pairwise_cons.mp h
    rw [get?, List.mem_cons]
    split
    · next same =>
      have absent : (key, value) ∉ rest := fun there => (least _ there).ne same.symm
      rw [or_iff_left absent, Option.some_inj, Prod.ext_iff]
      exact ⟨fun whole => whole.2.symm, fun found => ⟨same, found.symm⟩⟩
    · next other =>
      rw [← ih sorted]
      exact or_iff_right fun there => other (congrArg Prod.fst there)

theorem Sorted.ext (h : attributes.Sorted) (h' : others.Sorted)
    (same : ∀ key, get? key attributes = get? key others) : attributes = others := by
  have members (p : String × String) : p ∈ attributes ↔ p ∈ others := by
    rw [h.mem_iff, h'.mem_iff, same]
  have perm : attributes.Perm others := (List.perm_ext_iff_of_nodup
    (h.nodup_keys.of_map _) (h'.nodup_keys.of_map _)).mpr members
  exact perm.eq_of_pairwise (fun a b _ _ lt gt => absurd lt gt.asymm) h h'

/-- The size of attributes, counted key by key. -/
theorem Sorted.size_eq (h : attributes.Sorted) {keys : List String} (nodup : keys.Nodup)
    (all : ∀ key, key ∈ keys ↔ (get? key attributes).isSome = true) :
    attributes.size = total
      (fun key => key.utf8ByteSize + (get? key attributes).elim 0 String.utf8ByteSize) keys := by
  have members (key : String) : key ∈ keys ↔ key ∈ attributes.map Prod.fst := by
    rw [all, List.mem_map, Option.isSome_iff_exists]
    constructor
    · exact fun ⟨value, found⟩ => ⟨(key, value), h.mem_iff.mpr found, rfl⟩
    · rintro ⟨⟨key, value⟩, there, rfl⟩
      exact ⟨value, h.mem_iff.mp there⟩
  have perm := (List.perm_ext_iff_of_nodup nodup h.nodup_keys).mpr members
  refine Eq.trans ?_ (perm.map _).sum_nat.symm
  rw [List.map_map]
  refine congrArg List.sum (List.map_congr_left fun p hp => ?_)
  rw [Function.comp_apply, h.mem_iff.mp hp, Option.elim_some]

end Attributes

namespace Message

/-- The message that calls for attributes make of a payload, each with its key and its value. -/
def build (payload : ByteArray) (calls : List (String × String)) : Message :=
  calls.foldl (fun m call => m.withAttribute call.1 call.2) ⟨payload, []⟩

/-- The value in the last of the calls for a key. -/
def lastValue (key : String) (calls : List (String × String)) : Option String :=
  (calls.reverse.find? (·.1 == key)).map Prod.snd

/-- The calls for each key are the same, in the same order. -/
def Reordered (calls others : List (String × String)) : Prop :=
  ∀ key, calls.filter (·.1 == key) = others.filter (·.1 == key)

variable {payload : ByteArray} {calls others : List (String × String)} {key : String}

theorem eq_of_parts {m n : Message} (payload : m.payload = n.payload)
    (attributes : m.attributes = n.attributes) : m = n := by
  cases m
  cases n
  cases payload
  cases attributes
  rfl

theorem build_concat (payload : ByteArray) (calls : List (String × String))
    (call : String × String) :
    build payload (calls ++ [call]) = (build payload calls).withAttribute call.1 call.2 := by
  rw [build, List.foldl_concat, build]

theorem lastValue_concat (key : String) (calls : List (String × String))
    (call : String × String) :
    lastValue key (calls ++ [call]) =
      if key = call.1 then some call.2 else lastValue key calls := by
  rw [lastValue, List.reverse_concat]
  split
  · next same => rw [List.find?_cons_of_pos (by simpa using same.symm), Option.map_some]
  · next other => rw [List.find?_cons_of_neg (by simpa using Ne.symm other), lastValue]

theorem payload_build (payload : ByteArray) (calls : List (String × String)) :
    (build payload calls).payload = payload := by
  induction calls using List.reverseRecOn with
  | nil => rfl
  | append_singleton calls call ih =>
    rw [build_concat]
    exact ih

theorem build_sorted (payload : ByteArray) (calls : List (String × String)) :
    (build payload calls).attributes.Sorted := by
  induction calls using List.reverseRecOn with
  | nil => exact .nil
  | append_singleton calls call ih =>
    rw [build_concat]
    exact ih.set call.1 call.2

/-- The last write of a key wins. -/
theorem get?_build (payload : ByteArray) (calls : List (String × String)) (key : String) :
    (build payload calls).attributes.get? key = lastValue key calls := by
  induction calls using List.reverseRecOn with
  | nil => rfl
  | append_singleton calls call ih =>
    rw [build_concat, lastValue_concat, withAttribute]
    split
    · next same =>
      rw [same]
      exact Attributes.get?_set_self ..
    · next other => exact (Attributes.get?_set_of_ne other ..).trans ih

theorem isSome_lastValue : (lastValue key calls).isSome = true ↔ key ∈ calls.map Prod.fst := by
  rw [lastValue, Option.isSome_map, List.find?_isSome, List.mem_map]
  simp

/-- Only the calls for a key matter to its last value. -/
theorem lastValue_filter (key : String) (calls : List (String × String)) :
    lastValue key (calls.filter (·.1 == key)) = lastValue key calls := by
  rw [lastValue, lastValue, ← List.filter_reverse, List.find?_filter]
  simp only [Bool.and_self, Bool.decide_and, Bool.decide_eq_true]

theorem Reordered.lastValue (h : Reordered calls others) (key : String) :
    lastValue key calls = lastValue key others := by
  rw [← lastValue_filter, h key, lastValue_filter]

/-- Messages are equal if their payloads are and every key has the same last value. -/
theorem build_eq_iff {payload' : ByteArray} :
    build payload calls = build payload' others ↔
      payload = payload' ∧ ∀ key, lastValue key calls = lastValue key others := by
  constructor
  · intro same
    refine ⟨?_, fun key => ?_⟩
    · rw [← payload_build payload calls, same, payload_build]
    · rw [← get?_build payload calls, same, get?_build]
  · rintro ⟨rfl, same⟩
    refine eq_of_parts ((payload_build _ _).trans (payload_build _ _).symm) ?_
    refine (build_sorted payload calls).ext (build_sorted payload others) fun key => ?_
    rw [get?_build, get?_build, same]

theorem size_build (payload : ByteArray) (calls : List (String × String)) :
    (build payload calls).size = payload.size + total
      (fun key => key.utf8ByteSize + (lastValue key calls).elim 0 String.utf8ByteSize)
      (calls.map Prod.fst).dedup := by
  have sorted := build_sorted payload calls
  have counted := sorted.size_eq (List.nodup_dedup (calls.map Prod.fst)) fun key => by
    rw [get?_build, isSome_lastValue, List.mem_dedup]
  simp only [get?_build] at counted
  rw [size, payload_build, counted]

/-- Whatever the payload and however many calls for attributes there are: the attributes are the
keys in the order of their bytes, each with the value of its last call; the size of the message is
that of the payload, and of each key and its last value once. Messages are equal just if they have
the same payload and the same last values. So calls for different keys may change places. -/
theorem last_write_wins (payload : ByteArray) (calls : List (String × String)) :
    (∀ key value, (key, value) ∈ (build payload calls).attributes ↔
        lastValue key calls = some value) ∧
      (build payload calls).attributes.Pairwise (fun a b => Utf8.bytes a.1 < Utf8.bytes b.1) ∧
      (build payload calls).size = payload.size + total
        (fun key => key.utf8ByteSize + (lastValue key calls).elim 0 String.utf8ByteSize)
        (calls.map Prod.fst).dedup ∧
      (∀ payload' others, build payload calls = build payload' others ↔
        payload = payload' ∧ ∀ key, lastValue key calls = lastValue key others) ∧
      ∀ others, Reordered calls others →
        build payload calls = build payload others ∧
          (build payload calls).size = (build payload others).size := by
  have sorted := build_sorted payload calls
  refine ⟨fun key value => ?_, sorted.imp Utf8.lt_iff_bytes_lt.mp, size_build payload calls,
    fun _ _ => build_eq_iff, fun others reordered => ?_⟩
  · rw [sorted.mem_iff, get?_build]
  · have same : build payload calls = build payload others :=
      build_eq_iff.mpr ⟨rfl, reordered.lastValue⟩
    exact ⟨same, congrArg size same⟩

/-- A key that is set twice, an empty value, and letters of two bytes. -/
theorem last_write_wins_repeated_key :
    Reordered [("b", "1"), ("é", "x"), ("a", ""), ("b", "ñ")]
        [("a", ""), ("b", "1"), ("b", "ñ"), ("é", "x")] ∧
      (build ⟨#[1, 2]⟩ [("b", "1"), ("é", "x"), ("a", ""), ("b", "ñ")]).attributes =
        [("a", ""), ("b", "ñ"), ("é", "x")] ∧
      (build ⟨#[1, 2]⟩ [("a", ""), ("b", "1"), ("b", "ñ"), ("é", "x")]).size = 9 ∧
      build ⟨#[1, 2]⟩ [("b", "1"), ("é", "x"), ("a", ""), ("b", "ñ")] =
        build ⟨#[1, 2]⟩ [("a", ""), ("b", "1"), ("b", "ñ"), ("é", "x")] := by
  have reordered : Reordered [("b", "1"), ("é", "x"), ("a", ""), ("b", "ñ")]
      [("a", ""), ("b", "1"), ("b", "ñ"), ("é", "x")] := by
    intro key
    by_cases a : key = "a"
    · rw [a]
      decide
    by_cases b : key = "b"
    · rw [b]
      decide
    · simp [List.filter_cons, Ne.symm a, Ne.symm b]
  obtain ⟨-, -, -, -, places⟩ :=
    last_write_wins ⟨#[1, 2]⟩ [("b", "1"), ("é", "x"), ("a", ""), ("b", "ñ")]
  exact ⟨reordered, by decide +kernel, by decide +kernel, (places _ reordered).1⟩

end Message
end TopicPublisher
