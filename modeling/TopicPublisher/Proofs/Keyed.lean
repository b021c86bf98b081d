import Mathlib.Data.List.Nodup

/-!
Lists whose elements have keys of their own: an element can be looked up, taken out and put
back by its key.
-/

namespace TopicPublisher

variable {α : Type} {key : α → Nat}

/-- An element together with all that have another key is the whole list. -/
theorem perm_cons_filter_key {l : List α} (nodup : (l.map key).Nodup) {a : α} (ha : a ∈ l) :
    l.Perm (a :: l.filter (key · != key a)) := by
  induction l with
  | nil => cases ha
  | cons b rest ih =>
    rw [List.map_cons, List.nodup_cons] at nodup
    rcases List.mem_cons.mp ha with rfl | ha
    · have hrest : rest.filter (key · != key a) = rest := by
        rw [List.filter_eq_self]
        intro b hb
        have hne : key b ≠ key a := fun h => nodup.1 (h ▸ List.mem_map_of_mem hb)
        simpa using hne
      simp [hrest]
    · have hne : key b ≠ key a := fun h => nodup.1 (h ▸ List.mem_map_of_mem ha)
      have hb : (key b != key a) = true := by simpa using hne
      simp only [List.filter_cons, hb, ite_true]
      exact ((ih nodup.2 ha).cons b).trans (List.Perm.swap a b _)

theorem find?_key {l : List α} (nodup : (l.map key).Nodup) {a : α} (ha : a ∈ l) :
    l.find? (key · == key a) = some a := by
  cases h : l.find? (key · == key a) with
  | none => exact absurd (List.find?_eq_none.mp h a ha) (by simp)
  | some b =>
    have hk : key b = key a := by simpa using List.find?_some h
    exact congrArg some (List.inj_on_of_nodup_map nodup (List.mem_of_find?_eq_some h) ha hk)

theorem filter_key {l : List α} (nodup : (l.map key).Nodup) {a : α} (ha : a ∈ l) :
    l.filter (key · == key a) = [a] := by
  induction l with
  | nil => cases ha
  | cons b rest ih =>
    rw [List.map_cons, List.nodup_cons] at nodup
    rcases List.mem_cons.mp ha with rfl | ha
    · have none : rest.filter (key · == key a) = [] := by
        rw [List.filter_eq_nil_iff]
        intro b hb
        have hne : key b ≠ key a := fun h => nodup.1 (h ▸ List.mem_map_of_mem hb)
        simpa using hne
      simp [none]
    · have hne : key b ≠ key a := fun h => nodup.1 (h ▸ List.mem_map_of_mem ha)
      simpa [hne] using ih nodup.2 ha

theorem find?_replace_key (l : List α) (a : α) (n : Nat) :
    (l.map fun b => if key b == key a then a else b).find? (key · == n) =
      (l.find? (key · == n)).map fun b => if key b == key a then a else b := by
  rw [List.find?_map]
  congr 2
  funext b
  by_cases same : key b = key a <;> simp [same]

theorem find?_remove_key (l : List α) (n : Nat) :
    (l.filter (key · != n)).find? (key · == n) = none := by
  rw [List.find?_eq_none]
  intro a ha
  simpa using (List.mem_filter.mp ha).2

theorem find?_remove_other (l : List α) {m n : Nat} (other : m ≠ n) :
    (l.filter (key · != m)).find? (key · == n) = l.find? (key · == n) := by
  rw [List.find?_filter]
  congr 1
  funext a
  by_cases same : key a = n
  · simp [same, Ne.symm other]
  · simp [same]

/-- Two lists that are alike place by place. -/
theorem map_eq_map_of_zip {α β γ : Type} {xs : List α} {ys : List β} {f : α → γ} {g : β → γ}
    (length : xs.length = ys.length) (same : ∀ z ∈ xs.zip ys, f z.1 = g z.2) :
    xs.map f = ys.map g := by
  have left : (xs.zip ys).map Prod.fst = xs := List.map_fst_zip (Nat.le_of_eq length)
  have right : (xs.zip ys).map Prod.snd = ys := List.map_snd_zip (Nat.le_of_eq length.symm)
  conv_lhs => rw [← left]
  conv_rhs => rw [← right]
  rw [List.map_map, List.map_map]
  exact List.map_congr_left same

end TopicPublisher
