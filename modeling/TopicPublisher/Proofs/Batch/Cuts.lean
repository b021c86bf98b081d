import Mathlib.Data.List.Chain
import TopicPublisher.Proofs.Batch.Runs

/-!
Where a batcher cuts. Entries that come without a flush between them are cut into consecutive
groups: a group ends as soon as it reaches a threshold, and before an entry that would make it too
large. Main statement: the closed batches are these groups, and no other groups are cut in that
way.
-/

namespace TopicPublisher

/-- A group of entries has reached a threshold. -/
def Reaches (t : Thresholds) (g : List Entry) : Prop :=
  t.count ≤ g.length ∨ t.bytes ≤ total Entry.size g

/-- A group ends before an entry. -/
def Divides (t : Thresholds) (g : List Entry) (x : Entry) : Prop :=
  Reaches t g ∨ t.bytes < total Entry.size g + x.size

/-- A group that fits in one batch, of which no smaller part from the first entry on has reached a
threshold. -/
structure Group (t : Thresholds) (g : List Entry) : Prop where
  nonempty : g ≠ []
  count : g.length ≤ t.count
  bytes : total Entry.size g ≤ t.bytes ∨ g.length = 1
  early : ∀ p, p <+: g → p ≠ [] → p ≠ g → ¬ Reaches t p

/-- The groups that entries are cut into: each of them, save the last, ends before the first entry
of the next one. -/
structure Cut (t : Thresholds) (entries : List Entry) (groups : List (List Entry)) : Prop where
  contents : groups.flatten = entries
  grouped : ∀ g ∈ groups, Group t g
  divided : groups.IsChain fun g h => ∀ x ∈ h.head?, Divides t g x

/-- Entries that are being cut: the groups so far, and those that are left for the next group. -/
structure Cutting (t : Thresholds) (entries : List Entry) (groups : List (List Entry))
    (left : List Entry) : Prop where
  contents : groups.flatten ++ left = entries
  grouped : ∀ g ∈ groups, Group t g
  divided : groups.IsChain fun g h => ∀ x ∈ h.head?, Divides t g x
  parted : ∀ g ∈ groups.getLast?, ∀ x ∈ left.head?, Divides t g x

variable {t : Thresholds} {entries g h left : List Entry} {groups others : List (List Entry)}
  {x : Entry}

theorem Reaches.mono (reaches : Reaches t g) (part : g <+: h) : Reaches t h := by
  obtain ⟨rest, rfl⟩ := part
  rw [Reaches, List.length_append, total, List.map_append, List.sum_append_nat]
  exact reaches.imp (Nat.le_add_right_of_le ·) (Nat.le_add_right_of_le ·)

theorem Group.of_below (below : ¬ Reaches t g) (some : g ≠ []) : Group t g := by
  have early (p : List Entry) (part : p <+: g) : ¬ Reaches t p := fun reaches =>
    below (reaches.mono part)
  rw [Reaches, not_or, Nat.not_le, Nat.not_le] at below
  exact ⟨some, Nat.le_of_lt below.1, .inl (Nat.le_of_lt below.2), fun p part _ _ => early p part⟩

theorem Group.concat (below : ¬ Reaches t g) (count : g.length < t.count)
    (bytes : g = [] ∨ total Entry.size g + x.size ≤ t.bytes) : Group t (g ++ [x]) where
  nonempty := List.concat_ne_nil x g
  count := by
    rw [List.length_append, List.length_singleton]
    exact count
  bytes := by
    rcases bytes with rfl | bytes
    · exact .inr rfl
    · refine .inl ?_
      rw [total, List.map_append, List.sum_append_nat]
      exact bytes
  early p part _ proper reaches := by
    rcases List.prefix_concat_iff.mp part with same | part
    · exact proper same
    · exact below (reaches.mono part)

/-! Uniqueness -/

/-- The first group of two ways to cut the same entries is not shorter in one of them. -/
theorem Cut.head_prefix {us vs : List Entry} {rest : List (List Entry)}
    (a : Cut t (g ++ us) (g :: rest)) (b : Group t h) (same : g ++ us = h ++ vs) : h <+: g := by
  have flat : rest.flatten = us := List.append_cancel_left a.contents
  rcases List.prefix_or_prefix_of_prefix (List.prefix_append g us)
    (same ▸ List.prefix_append h vs) with shorter | longer
  · obtain ⟨more, rfl⟩ := shorter
    cases more with
    | nil => exact (List.append_nil g).symm ▸ List.prefix_rfl
    | cons x more =>
      -- The entry after the shorter group would have had to fit in with it.
      have next : us = x :: more ++ vs := by
        rw [List.append_assoc] at same
        exact List.append_cancel_left same
      have some : g ≠ [] := (a.grouped g (List.mem_cons_self ..)).nonempty
      have divides : Divides t g x := by
        cases rest with
        | nil => exact nomatch flat.trans next
        | cons k rest =>
          have full := (a.grouped k (by simp)).nonempty
          cases k with
          | nil => exact absurd rfl full
          | cons y k =>
            obtain rfl : y = x := (List.cons.inj (flat.trans next)).1
            exact (List.isChain_cons_cons.mp a.divided).1 y rfl
      have early : ¬ Reaches t g :=
        b.early g (List.prefix_append g (x :: more)) some (by simp)
      have bytes := divides.resolve_left early
      have positive := List.length_pos_of_ne_nil some
      rcases b.bytes with fits | alone
      · simp only [total, List.map_append, List.sum_append_nat, List.map_cons, List.sum_cons]
          at fits bytes
        omega
      · rw [List.length_append, List.length_cons] at alone
        omega
  · exact longer

theorem Cut.tail (a : Cut t entries (g :: groups)) : Cut t groups.flatten groups :=
  ⟨rfl, fun k hk => a.grouped k (List.mem_cons_of_mem g hk), a.divided.tail⟩

theorem Cut.unique (a : Cut t entries groups) (b : Cut t entries others) : groups = others := by
  have unended {k : List Entry} {ks : List (List Entry)} (c : Cut t [] (k :: ks)) : False :=
    (c.grouped k (List.mem_cons_self ..)).nonempty (List.append_eq_nil_iff.mp c.contents).1
  induction groups generalizing entries others with
  | nil =>
    cases others with
    | nil => rfl
    | cons h others => exact (unended (a.contents ▸ b)).elim
  | cons g groups ih =>
    cases others with
    | nil => exact (unended (b.contents ▸ a)).elim
    | cons h others =>
      have same : g ++ groups.flatten = h ++ others.flatten := a.contents.trans b.contents.symm
      have first : g = h := by
        refine List.IsPrefix.eq_of_length_le ?_ ?_
        · exact Cut.head_prefix (b.contents.symm ▸ b) (a.grouped g (List.mem_cons_self ..))
            same.symm
        · exact (Cut.head_prefix (a.contents.symm ▸ a) (b.grouped h (List.mem_cons_self ..))
            same).length_le
      subst first
      rw [ih a.tail (List.append_cancel_left same ▸ b.tail)]

/-! The groups that a batcher makes -/

namespace Cutting

theorem extend (c : Cutting t entries groups left)
    (begins : left = [] → ∀ g ∈ groups.getLast?, Divides t g x) :
    Cutting t (entries ++ [x]) groups (left ++ [x]) where
  contents := by rw [← List.append_assoc, c.contents]
  grouped := c.grouped
  divided := c.divided
  parted := by
    cases left with
    | nil =>
      intro g hg y hy
      obtain rfl := Option.some.inj hy
      exact begins rfl g hg
    | cons y left => exact c.parted

theorem close (c : Cutting t entries groups left) (group : Group t left) :
    Cutting t entries (groups ++ [left]) [] where
  contents := by rw [List.flatten_concat, List.append_nil, c.contents]
  grouped := List.forall_mem_append.mpr ⟨c.grouped, List.forall_mem_singleton.mpr group⟩
  divided := by
    refine List.isChain_append.mpr ⟨c.divided, .singleton left, fun g hg k hk => ?_⟩
    obtain rfl := Option.some.inj hk
    exact c.parted g hg
  parted := nofun

theorem cut (c : Cutting t entries groups []) : Cut t entries groups :=
  ⟨by rw [← c.contents, List.append_nil], c.grouped, c.divided⟩

end Cutting

namespace Batcher

variable {now : Nat} {b next : Batcher} {closed : List Batch}

/-- The closed batches and the open batch are the groups of some entries so far. An empty open
batch follows a batch that was closed at a threshold. -/
structure Cuts (t : Thresholds) (entries : List Entry) (closed : List Batch) (b : Batcher) :
    Prop where
  cutting : Cutting t entries (closed.map Batch.entries) b.current.entries
  reached : b.current.entries = [] → ∀ g ∈ (closed.map Batch.entries).getLast?, Reaches t g

theorem cuts_empty (t : Thresholds) : Cuts t [] [] {} :=
  ⟨⟨rfl, nofun, .nil, nofun⟩, nofun⟩

theorem Below.unreached (below : b.Below t) (valid : t.validate = .ok ()) :
    ¬ Reaches t b.current.entries := by
  obtain ⟨count, -, bytes, -⟩ := (Thresholds.validate_eq_ok_iff t).mp valid
  rw [Reaches, not_or, Nat.not_le, Nat.not_le, ← below.summed]
  rcases below.below with none | within
  · have empty : b.current.bytes = 0 := by rw [below.summed, none, total_nil]
    rw [none, empty]
    exact ⟨count, bytes⟩
  · exact within

/-- Before an entry is appended the open batch is cut off if the entry does not fit in it. -/
theorem Cuts.makeRoom {batches : List Batch} (cuts : Cuts t entries batches b)
    (below : b.Below t) (valid : t.validate = .ok ()) (x : Entry) :
    Cutting t (entries ++ [x]) ((batches ++ (b.makeRoom t x.size).1).map Batch.entries)
      ((b.makeRoom t x.size).2.current.entries ++ [x]) := by
  unfold Batcher.makeRoom
  split
  · next full =>
    rw [Bool.and_eq_true, Bool.not_eq_true', Bool.not_eq_true', fits, decide_eq_false_iff_not,
      Batch.isEmpty, List.isEmpty_eq_false_iff] at full
    obtain ⟨some, large⟩ := full
    have closing := cuts.cutting.close (.of_below (below.unreached valid) some)
    rw [List.map_append]
    refine closing.extend fun _ g hg => ?_
    rw [List.getLast?_concat] at hg
    obtain rfl := Option.some.inj hg
    have count := (below.below.resolve_left some).1
    refine .inr ?_
    rw [← below.summed]
    exact Nat.lt_of_not_le fun bytes => large ⟨count, bytes⟩
  · rw [List.append_nil]
    exact cuts.cutting.extend fun empty g hg => .inl (cuts.reached empty g hg)

theorem Cuts.append {batches : List Batch} {room : Batcher}
    (cutting : Cutting t (entries ++ [x]) (batches.map Batch.entries)
      (room.current.entries ++ [x])) (summed : room.current.Summed)
    (group : Group t (room.current.entries ++ [x])) :
    Cuts t (entries ++ [x]) (batches ++ (room.append t x).1) (room.append t x).2 := by
  unfold Batcher.append
  dsimp only
  split
  · next full =>
    rw [isFull, decide_eq_true_eq, (summed.push x : _ = _)] at full
    refine ⟨?_, fun _ g hg => ?_⟩
    · rw [List.map_append]
      exact cutting.close group
    · rw [List.map_append, List.map_singleton, List.getLast?_concat] at hg
      obtain rfl := Option.some.inj hg
      exact full
  · rw [List.append_nil]
    exact ⟨cutting, fun empty => absurd empty (List.concat_ne_nil x _)⟩

/-- An entry is cut off from those before it, or not, as the thresholds say. -/
theorem Cuts.add {batches : List Batch} (cuts : Cuts t entries batches b) (below : b.Below t)
    (valid : t.validate = .ok ()) (ha : b.add t now x = .ok (closed, next)) :
    Cuts t (entries ++ [x]) (batches ++ closed) next := by
  rw [add_eq] at ha
  split at ha
  · cases ha
  split at ha
  · cases ha
  next armed room =>
  obtain ⟨rfl, rfl⟩ := Prod.mk.inj (Except.ok.inj ha)
  have cutting := cuts.makeRoom below valid x
  obtain ⟨summed, takes⟩ := makeRoom_takes below x.size
  rw [← arm_current room] at cutting summed takes
  have unreached : ¬ Reaches t armed.current.entries := by
    rw [arm_current room]
    unfold Batcher.makeRoom
    split
    · exact (below_empty t).unreached valid
    · exact below.unreached valid
  rw [← List.append_assoc]
  refine Cuts.append cutting summed (.concat unreached ?_ ?_)
  · rcases takes with none | within
    · rw [none]
      exact Thresholds.count_pos valid
    · exact within.1
  · exact takes.imp_right fun within => summed ▸ within.2

/-- What an entry closes: at most the batch before it, and a batch that it fills. If it closes
both, it is alone in the second one. -/
theorem add_closed (ha : b.add t now x = .ok (closed, next)) :
    closed.length ≤ 2 ∧ ∀ first second, closed = [first, second] → second.entries = [x] := by
  rw [add_eq] at ha
  split at ha
  · cases ha
  split at ha
  · cases ha
  next armed room =>
  obtain ⟨rfl, -⟩ := Prod.mk.inj (Except.ok.inj ha)
  have current := arm_current room
  unfold makeRoom at current ⊢
  unfold Batcher.append
  dsimp only
  split at current
  · next full =>
    rw [if_pos full]
    split
    · refine ⟨Nat.le_refl 2, fun first second both => ?_⟩
      obtain rfl := List.singleton_inj.mp (List.cons.inj both).2
      exact congrArg (fun o : Batch => o.entries ++ [x]) current
    · exact ⟨Nat.le_succ 1, fun _ _ both => nomatch both⟩
  · next roomy =>
    rw [if_neg roomy]
    split
    · exact ⟨Nat.le_succ 1, fun _ _ both => nomatch both⟩
    · exact ⟨Nat.zero_le 2, fun _ _ both => nomatch both⟩

theorem Cuts.drain {batches : List Batch} (cuts : Cuts t entries batches b) (below : b.Below t)
    (valid : t.validate = .ok ()) :
    Cut t entries ((batches ++ b.drain.1.toList).map Batch.entries) := by
  unfold Batcher.drain
  split
  · next empty =>
    have cutting := cuts.cutting
    rw [List.isEmpty_iff.mp empty] at cutting
    rw [Option.toList_none, List.append_nil]
    exact cutting.cut
  · next some =>
    rw [Batch.isEmpty, List.isEmpty_iff] at some
    rw [List.map_append]
    exact (cuts.cutting.close (.of_below (below.unreached valid) some)).cut

end Batcher

/-- A command that closes the open batch for another reason than its size. -/
def BatcherCommand.flushes : BatcherCommand → Bool
  | .flush | .flushAt _ | .drain => true
  | _ => false

namespace BatcherSession

variable {s next mid last : BatcherSession} {command : BatcherCommand}
  {commands : List BatcherCommand} {effect : Effect} {effects : List Effect}

theorem performAll_concat (before : performAll t commands s = some (effects, mid))
    (done : mid.perform t command = some (effect, last)) :
    performAll t (commands ++ [command]) s = some (effects ++ [effect], last) := by
  induction commands generalizing s effects with
  | nil =>
    cases before
    rw [List.nil_append, performAll, done]
    rfl
  | cons first rest ih =>
    rw [performAll] at before
    rw [List.cons_append, performAll]
    cases hf : s.perform t first with
    | none =>
      rw [hf] at before
      cases before
    | some result =>
      rw [hf] at before
      obtain ⟨⟨later, stop⟩, went, same⟩ := Option.map_eq_some_iff.mp before
      cases same
      dsimp only
      rw [ih went]
      rfl

/-- A command that does not flush leaves the batcher as it is, or adds the next entry. -/
theorem perform_gathers (gathers : command.flushes = false)
    (done : s.perform t command = some (effect, next)) :
    (effect.1 = [] ∧ next.batcher = s.batcher ∧
      ∀ rest, accepted s.messages (command :: rest) = accepted next.messages rest) ∨
    ∃ x, s.batcher.add t s.now x = .ok (effect.1, next.batcher) ∧
      ∀ rest, accepted s.messages (command :: rest) = x :: accepted next.messages rest := by
  have resolved (batch : Nat) (outcome : Nat → Outcome)
      (same : (s.resolve batch outcome).2 = next) :
      next.batcher = s.batcher ∧
        ∀ rest, accepted s.messages rest = accepted next.messages rest := by
    obtain ⟨batcher, -, messages⟩ := resolve_same s batch outcome
    subst same
    exact ⟨batcher, fun rest => by rw [messages]⟩
  cases command with
  | add message =>
    by_cases large : maxBatchBytes < message.size
    · rw [perform_tooLarge s t large] at done
      cases done
      exact .inl ⟨rfl, rfl, fun rest => if_neg (Nat.not_le_of_lt large)⟩
    · right
      refine ⟨⟨s.messages, message⟩, ?_⟩
      cases added : s.batcher.add t s.now ⟨s.messages, message⟩ with
      | ok result =>
        obtain ⟨after, performed, batcher, -, messages⟩ := perform_add added
        cases performed.symm.trans done
        refine ⟨by rw [batcher], fun rest => ?_⟩
        rw [messages]
        exact if_pos (Nat.le_of_not_lt large)
      | error failure =>
        cases failure with
        | tooLarge size => exact absurd (Batcher.add_tooLarge added) large
        | deadlineOverflow =>
          simp only [perform, added] at done
          cases done
  | advance length =>
    rw [perform] at done
    split at done
    · cases done
      exact .inl ⟨rfl, rfl, fun _ => rfl⟩
    · cases done
  | flush => cases gathers
  | flushAt instant => cases gathers
  | drain => cases gathers
  | succeed batch =>
    obtain ⟨rfl, same⟩ := Prod.mk.inj (Option.some.inj done)
    exact .inl ⟨rfl, resolved batch _ same⟩
  | fail batch error =>
    obtain ⟨rfl, same⟩ := Prod.mk.inj (Option.some.inj done)
    exact .inl ⟨rfl, resolved batch _ same⟩
  | abandon batch =>
    obtain ⟨rfl, same⟩ := Prod.mk.inj (Option.some.inj done)
    exact .inl ⟨rfl, resolved batch _ same⟩

/-- The groups after some commands are those before them, and those of the entries that were added
since. -/
theorem performAll_cuts (valid : t.validate = .ok ()) {batches : List Batch}
    (cuts : s.batcher.Cuts t entries batches) (below : s.batcher.Below t)
    (gathers : ∀ command ∈ commands, command.flushes = false)
    (done : performAll t commands s = some (effects, last)) :
    last.batcher.Cuts t (entries ++ accepted s.messages commands) (batches ++ closed effects) ∧
      last.batcher.Below t := by
  induction commands generalizing s entries batches effects with
  | nil =>
    cases done
    rw [accepted, List.append_nil, closed, List.flatMap_nil, List.append_nil]
    exact ⟨cuts, below⟩
  | cons command rest ih =>
    obtain ⟨gathers, later⟩ := List.forall_mem_cons.mp gathers
    rw [performAll] at done
    cases hc : s.perform t command with
    | none =>
      rw [hc] at done
      cases done
    | some result =>
      obtain ⟨effect, next⟩ := result
      rw [hc] at done
      obtain ⟨⟨others, stop⟩, went, same⟩ := Option.map_eq_some_iff.mp done
      cases same
      rw [closed, List.flatMap_cons, ← List.append_assoc]
      rcases perform_gathers gathers hc with ⟨none, batcher, takes⟩ | ⟨x, added, takes⟩
      · rw [takes, none, List.append_nil]
        exact ih (batcher ▸ cuts) (batcher ▸ below) later went
      · rw [takes, List.append_cons]
        exact ih (cuts.add below valid added) (Batcher.add_within below valid added).2 later went

/-- Under valid thresholds, whatever messages are given to a batcher that is not flushed before it
is drained, at instants that can be represented: it goes on, and its batches are the one way to cut
the messages that the service would take into consecutive groups that fit in a batch and end no
earlier than they have to. An entry closes two batches at most, and if it does it is alone in the
second one. -/
theorem cut_at_thresholds (valid : t.validate = .ok ()) (commands : List BatcherCommand)
    (gathers : ∀ command ∈ commands, command.flushes = false) (timely : Timely t 0 commands) :
    ∃ effects s, performAll t (commands ++ [.drain]) {} = some (effects, s) ∧
      (run t (commands ++ [.drain])).map (List.map BatcherReport.closed) =
        some (effects.map Prod.fst) ∧
      (∀ groups, Cut t (accepted 0 commands) groups ↔
        groups = (closed effects).map Batch.entries) ∧
      ∀ (b next : Batcher) (now : Nat) (x : Entry) (batches : List Batch),
        b.add t now x = .ok (batches, next) →
          batches.length ≤ 2 ∧
            ∀ first second, batches = [first, second] → second.entries = [x] := by
  have below : ({} : BatcherSession).batcher.Below t := Batcher.below_empty t
  obtain ⟨effects, s, done, -⟩ := performAll_goes valid commands below timely
  obtain ⟨cuts, after⟩ := performAll_cuts valid (Batcher.cuts_empty t) below gathers done
  have cut := cuts.drain after valid
  have drained : performAll t (commands ++ [.drain]) {} =
      some (effects ++ [(s.batcher.drain.1.toList, none, [])], (s.closing s.batcher.drain).2) :=
    performAll_concat done rfl
  have all : closed (effects ++ [(s.batcher.drain.1.toList, none, [])]) =
      closed effects ++ s.batcher.drain.1.toList := by
    rw [closed, List.flatMap_append, List.flatMap_singleton]
    rfl
  refine ⟨_, _, drained, ?_, fun groups => ?_, fun b next now x batches added =>
    Batcher.add_closed added⟩
  · rw [run, if_pos (hasRoom_of_valid valid), reports_closed, drained]
    rfl
  · rw [all]
    refine ⟨fun other => other.unique cut, fun same => ?_⟩
    rw [same]
    exact cut

/-- Two messages and five bytes: a message that reaches the bytes exactly, one that goes alone
because the next is above the threshold, that one, and empty messages up to the count. -/
theorem cut_at_thresholds_six :
    ∃ effects s, performAll ⟨2, 5, ⟨1⟩⟩
        ([.add ⟨⟨#[1, 2, 3, 4, 5]⟩, []⟩, .add ⟨⟨#[1]⟩, []⟩, .add ⟨⟨#[1, 2, 3, 4, 5, 6]⟩, []⟩,
          .add ⟨⟨#[]⟩, []⟩, .add ⟨⟨#[]⟩, []⟩, .add ⟨⟨#[]⟩, []⟩] ++ [.drain]) {} =
          some (effects, s) ∧
      (closed effects).map Batch.ids = [[0], [1], [2], [3, 4], [5]] ∧
      Cut ⟨2, 5, ⟨1⟩⟩ ((closed effects).map Batch.entries).flatten
        ((closed effects).map Batch.entries) := by
  obtain ⟨effects, s, done, -, cuts, -⟩ := cut_at_thresholds (t := ⟨2, 5, ⟨1⟩⟩) (by rfl)
    [.add ⟨⟨#[1, 2, 3, 4, 5]⟩, []⟩, .add ⟨⟨#[1]⟩, []⟩, .add ⟨⟨#[1, 2, 3, 4, 5, 6]⟩, []⟩,
      .add ⟨⟨#[]⟩, []⟩, .add ⟨⟨#[]⟩, []⟩, .add ⟨⟨#[]⟩, []⟩]
    (by decide)
    ⟨by decide, by decide, by decide, by decide, by decide, by decide, trivial⟩
  have cut := (cuts _).mpr rfl
  refine ⟨effects, s, done, ?_, cut.contents.symm ▸ cut⟩
  obtain ⟨rfl, -⟩ := Prod.mk.inj (Option.some.inj done)
  rfl

end BatcherSession
end TopicPublisher
