import TopicPublisher.Bench.Load

/-!
The shares of the publishers of a benchmark. Main statement: as long as the list of them is not too
long, they are computed in 64-bit words without overflow, and they are an even division of all
messages, of which the first publisher gets what is left over.
-/

namespace TopicPublisher.Bench

/-- The shares in numbers of any size. -/
def shares (messages publishers : Nat) : List Nat :=
  firstShare messages publishers ::
    List.replicate (Nat.max publishers 1 - 1) (messages / Nat.max publishers 1)

theorem publishers_pos (publishers : Nat) : 0 < Nat.max publishers 1 :=
  Nat.le_max_right publishers 1

theorem length_shares (messages publishers : Nat) :
    (shares messages publishers).length = Nat.max publishers 1 := by
  rw [shares, List.length_cons, List.length_replicate]
  exact Nat.sub_add_cancel (publishers_pos publishers)

theorem shares_eq_map (messages publishers : Nat) :
    shares messages publishers = (List.range (Nat.max publishers 1)).map fun i =>
      if i = 0 then firstShare messages publishers else messages / Nat.max publishers 1 := by
  obtain ⟨others, same⟩ := Nat.exists_eq_add_of_le' (publishers_pos publishers)
  have range : List.range (Nat.max publishers 1) = 0 :: (List.range others).map Nat.succ := by
    rw [same]
    exact List.range_succ_eq_map
  rw [shares, range, List.map_cons, List.map_map, if_pos rfl, same, Nat.add_sub_cancel]
  refine congrArg (List.cons _) (List.eq_replicate_iff.mpr ⟨?_, fun share there => ?_⟩).symm
  · rw [List.length_map, List.length_range]
  · obtain ⟨i, -, rfl⟩ := List.mem_map.mp there
    rw [Function.comp_apply, if_neg (Nat.succ_ne_zero i)]

theorem total_shares (messages publishers : Nat) :
    total id (shares messages publishers) = messages := by
  have whole := Nat.div_add_mod messages (Nat.max publishers 1)
  obtain ⟨others, same⟩ := Nat.exists_eq_add_of_le' (publishers_pos publishers)
  rw [shares, firstShare, total, List.map_id, List.sum_cons, List.sum_replicate_nat]
  rw [same] at whole ⊢
  rw [Nat.add_mul] at whole
  rw [Nat.add_sub_cancel]
  omega

theorem firstShare_le (messages publishers : Nat) : firstShare messages publishers ≤ messages := by
  have whole := total_shares messages publishers
  rw [shares, total_cons] at whole
  exact Nat.le.intro whole

/-! Words -/

theorem toNat_publishers (publishers : UInt64) :
    (max publishers 1).toNat = Nat.max publishers.toNat 1 := by
  change (if publishers ≤ 1 then (1 : UInt64) else publishers).toNat =
    if publishers.toNat ≤ 1 then 1 else publishers.toNat
  split
  · next le => exact (if_pos (UInt64.le_iff_toNat_le.mp le)).symm
  · next gt => exact (if_neg fun le => gt (UInt64.le_iff_toNat_le.mpr le)).symm

theorem firstShare_lt (messages publishers : UInt64) :
    firstShare messages.toNat publishers.toNat < UInt64.size :=
  Nat.lt_of_le_of_lt (firstShare_le _ _) messages.toNat_lt_size

theorem publishers_le_maxWords {publishers : Nat} (few : publishers < Nat.pow 2 60) :
    Nat.max publishers 1 ≤ maxWords :=
  Nat.max_le.mpr ⟨Nat.le_pred_of_lt few, by decide⟩

/-- Computing with words is exact: neither a share nor a remainder nor their sum wraps round. -/
theorem splitMessages_eq (messages : UInt64) {publishers : UInt64}
    (few : publishers.toNat < Nat.pow 2 60) :
    ∃ words, splitMessages messages publishers = some words ∧
      words.map UInt64.toNat = shares messages.toNat publishers.toNat := by
  have share : (messages / max publishers 1).toNat =
      messages.toNat / Nat.max publishers.toNat 1 := by
    rw [UInt64.toNat_div, toNat_publishers]
  have first : (messages / max publishers 1 + messages % max publishers 1).toNat =
      firstShare messages.toNat publishers.toNat := by
    rw [UInt64.toNat_add, UInt64.toNat_mod, share, toNat_publishers]
    exact Nat.mod_eq_of_lt (firstShare_lt messages publishers)
  refine ⟨_, if_pos ?_, ?_⟩
  · rw [toNat_publishers]
    exact publishers_le_maxWords few
  · rw [shares_eq_map, List.map_map, toNat_publishers]
    refine List.map_congr_left fun i _ => ?_
    rw [Function.comp_apply, apply_ite UInt64.toNat, first, share]

/-- Whatever numbers of messages and publishers fit in 64-bit words, as long as a list can have a
word for each publisher: the shares are computed in such words without overflow. There is one share
for each publisher, and one if there is no publisher. They add up to the number of messages; all but
the first are the same, and the first is larger by less than the number of shares, if at all. -/
theorem shares_divide_messages (messages publishers : UInt64)
    (few : publishers.toNat < Nat.pow 2 60) :
    (∃ words, splitMessages messages publishers = some words ∧
        words.map UInt64.toNat = shares messages.toNat publishers.toNat) ∧
      messages.toNat / Nat.max publishers.toNat 1 + messages.toNat % Nat.max publishers.toNat 1 <
        UInt64.size ∧
      (shares messages.toNat publishers.toNat).length = Nat.max publishers.toNat 1 ∧
      total id (shares messages.toNat publishers.toNat) = messages.toNat ∧
      ∃ first share others,
        shares messages.toNat publishers.toNat = first :: List.replicate others share ∧
          share ≤ first ∧ first < share + Nat.max publishers.toNat 1 := by
  refine ⟨splitMessages_eq messages few, firstShare_lt messages publishers,
    length_shares _ _, total_shares _ _, _, _, _, rfl, Nat.le_add_right _ _, ?_⟩
  exact Nat.add_lt_add_left (Nat.mod_lt _ (publishers_pos _)) _

/-- Fewer messages than publishers. -/
theorem shares_divide_messages_two_of_four :
    (4 : UInt64).toNat < Nat.pow 2 60 ∧ splitMessages 2 4 = some [2, 0, 0, 0] ∧
      (∃ words, splitMessages 2 4 = some words ∧ words.map UInt64.toNat = shares 2 4) ∧
      total id (shares 2 4) = 2 := by
  obtain ⟨words, -, -, all, -⟩ := shares_divide_messages 2 4 (by decide)
  exact ⟨by decide, by decide, words, all⟩

/-- A list cannot have a word for each of `2 ^ 60` publishers. -/
theorem splitMessages_too_many :
    ¬ ∀ messages publishers : UInt64, ∃ words, splitMessages messages publishers = some words ∧
      words.length = Nat.max publishers.toNat 1 := by
  intro always
  obtain ⟨words, split, -⟩ := always 600 1152921504606846976
  have none : splitMessages 600 1152921504606846976 = none := by decide
  cases none.symm.trans split

/-- As many messages as a word can hold, and nobody to publish them. -/
example : splitMessages 18446744073709551615 0 = some [18446744073709551615] := by decide

end TopicPublisher.Bench
