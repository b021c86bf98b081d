import TopicPublisher.Proofs.Topic

/-!
Topics and their paths. A path that spells out a project and a name has three slashes, so words
that are found in it account for all of them: no other words, with slashes or without, spell the
same path. Main statement: making a topic from its parts and reading it from their path come to
the same, and a path is written as it was read.
-/

namespace TopicPublisher
namespace Topic

variable {path project name : String} {topic : Topic}

/-! The words of a path -/

theorem Spells.slashes (spells : Spells path project name) :
    path.toList.count '/' = 3 + project.toList.count '/' + name.toList.count '/' := by
  rw [toList_spells.mp spells]
  simp only [List.count_append]
  have ends : "projects/".toList.count '/' = 1 := by decide
  have inner : "/topics/".toList.count '/' = 2 := by decide
  omega

/-- The words before the first slash of two equal lists are the same. -/
theorem head_word_unique {a b s t : List Char} (plain_a : '/' ∉ a) (plain_b : '/' ∉ b)
    (same : a ++ '/' :: s = b ++ '/' :: t) : a = b := by
  rw [← takeWhile_plain s plain_a, same, takeWhile_plain t plain_b]

/-- Whatever words spell a path of the right form, they are the parts that are found in it. -/
theorem Spells.unique {p t : String} (spells : Spells path p t) (f : Formed path project name) :
    p = project ∧ t = name := by
  -- the three slashes of the form are all there are, so none is left for the words
  have count := spells.slashes
  rw [f.spells.slashes, List.count_eq_zero.mpr f.project_plain,
    List.count_eq_zero.mpr f.name_plain] at count
  have plain : '/' ∉ p.toList := List.count_eq_zero.mp (by omega)
  have same := (toList_spells.mp spells).symm.trans (toList_spells.mp f.spells)
  simp only [List.append_assoc, List.append_cancel_left_eq] at same
  have first := head_word_unique plain f.project_plain same
  rw [first, List.append_cancel_left_eq, List.append_cancel_left_eq] at same
  exact ⟨String.toList_inj.mp first, String.toList_inj.mp same⟩

theorem Denotes.unique {other : Topic} (d : Denotes path topic) (o : Denotes path other) :
    topic = other := by
  obtain ⟨project, name⟩ := d.spells.unique o.formed
  cases topic
  cases other
  cases project
  cases name
  rfl

/-! The two ways to a topic -/

theorem Denotes.path_eq (d : Denotes path topic) : topic.path = path := d.spells.symm

theorem denotes_of_valid (valid : topic.isValid = true) : Denotes topic.path topic := by
  have free : ¬ Reserved topic.name := by
    intro reserved
    rw [isValid, isReserved_iff.mpr reserved, Bool.not_true, Bool.and_false] at valid
    cases valid
  obtain ⟨project, name⟩ := (isValid_iff free).mp valid
  exact ⟨rfl, project, name, free⟩

theorem Denotes.valid (d : Denotes path topic) : topic.isValid = true :=
  (isValid_iff d.free).mpr ⟨d.project, d.name⟩

theorem denotes_of_parse (read : parse path = .ok topic) : Denotes path topic := by
  rcases parse_cases path with ⟨other, accepted, d⟩ | ⟨refused, -⟩ | refused
  · cases accepted.symm.trans read
    exact d
  · cases refused.symm.trans read
  · cases refused.symm.trans read

/-- The parts make a topic just if it is theirs and valid. -/
theorem create_ok_iff :
    create project name = .ok topic ↔ topic = ⟨project, name⟩ ∧ topic.isValid = true := by
  rw [create]
  split
  · next reserved =>
    refine ⟨by rintro ⟨⟩, ?_⟩
    rintro ⟨rfl, valid⟩
    exact absurd (isReserved_iff.mp reserved) (denotes_of_valid valid).free
  split
  · next valid =>
    rw [Except.ok.injEq]
    refine ⟨?_, fun made => made.1.symm⟩
    rintro rfl
    exact ⟨rfl, valid⟩
  · next invalid =>
    refine ⟨by rintro ⟨⟩, ?_⟩
    rintro ⟨rfl, valid⟩
    exact absurd valid invalid

theorem create_iff_parse (project name : String) (topic : Topic) :
    create project name = .ok topic ↔
      parse ("projects/" ++ project ++ "/topics/" ++ name) = .ok topic := by
  rw [create_ok_iff]
  constructor
  · rintro ⟨rfl, valid⟩
    exact (denotes_of_valid valid).parse
  · intro read
    have d := denotes_of_parse read
    obtain ⟨rfl, rfl⟩ := Spells.unique (p := project) (t := name) rfl d.formed
    exact ⟨rfl, d.valid⟩

theorem valid_of_made (made : (∃ p t, create p t = .ok topic) ∨ ∃ s, parse s = .ok topic) :
    topic.isValid = true := by
  rcases made with ⟨p, t, created⟩ | ⟨s, read⟩
  · exact (create_ok_iff.mp created).2
  · exact (denotes_of_parse read).valid

/-- Topics go to their paths and back. Parts make a topic if and only if their path is read as that
topic, whatever the parts contain, which is so just if the topic has these parts and is valid. The
path of a topic, however it was made, is read as that topic. A path that is read as a topic is the
path of that topic. Different valid topics have different paths. -/
theorem paths_round_trip :
    (∀ project name topic, create project name = .ok topic ↔
      parse ("projects/" ++ project ++ "/topics/" ++ name) = .ok topic) ∧
    (∀ project name topic, create project name = .ok topic ↔
      topic.project = project ∧ topic.name = name ∧ topic.isValid = true) ∧
    (∀ topic, ((∃ p t, create p t = .ok topic) ∨ ∃ s, parse s = .ok topic) →
      parse topic.path = .ok topic) ∧
    (∀ path topic, parse path = .ok topic → topic.path = path) ∧
    (∀ topic other : Topic, topic.isValid = true → other.isValid = true → topic ≠ other →
      topic.path ≠ other.path) := by
  refine ⟨create_iff_parse, fun project name topic => ?_, fun topic made => ?_,
    fun path topic read => ?_, fun topic other valid valid' distinct same => ?_⟩
  · rw [create_ok_iff]
    constructor
    · rintro ⟨rfl, valid⟩
      exact ⟨rfl, rfl, valid⟩
    · rintro ⟨rfl, rfl, valid⟩
      exact ⟨rfl, valid⟩
  · exact (denotes_of_valid (valid_of_made made)).parse
  · exact (denotes_of_parse read).path_eq
  · have d := denotes_of_valid valid
    rw [same] at d
    exact distinct (d.unique (denotes_of_valid valid'))

end Topic
end TopicPublisher
