import TopicPublisher.Topic

/-!
The grammar of topics. A path is accepted if and only if it spells out a project and a name that
follow the grammar. Of the others, those with a reserved name are told apart, whatever else is
wrong with them, and the rest are handed back as they came.
-/

namespace TopicPublisher
namespace Topic

/-- A lowercase letter. -/
def LowerLetter (c : Char) : Prop := 'a' ≤ c ∧ c ≤ 'z'

def Letter (c : Char) : Prop := LowerLetter c ∨ 'A' ≤ c ∧ c ≤ 'Z'

def Digit (c : Char) : Prop := '0' ≤ c ∧ c ≤ '9'

/-- The words that name a project. -/
structure ProjectWord (word : List Char) : Prop where
  length : 6 ≤ word.length ∧ word.length ≤ 30
  chars : ∀ c ∈ word, LowerLetter c ∨ Digit c ∨ c = '-'
  first : ∃ c, word.head? = some c ∧ LowerLetter c
  last : word.getLast? ≠ some '-'

/-- The words that name a topic in its project, reserved ones among them. -/
structure NameWord (word : List Char) : Prop where
  length : 3 ≤ word.length ∧ word.length ≤ 255
  chars : ∀ c ∈ word, Letter c ∨ Digit c ∨ c ∈ ['_', '-', '.', '~', '+', '%']
  first : ∃ c, word.head? = some c ∧ Letter c

/-- The name of a topic begins as those of the service do. -/
def Reserved (name : String) : Prop := "goog".toList <+: name.toList

/-- A path spells out a project and a name. -/
def Spells (path project name : String) : Prop :=
  path = "projects/" ++ project ++ "/topics/" ++ name

/-- A path of the right form, whatever words its two parts are. -/
structure Formed (path project name : String) : Prop where
  spells : Spells path project name
  project_some : project ≠ ""
  name_some : name ≠ ""
  project_plain : '/' ∉ project.toList
  name_plain : '/' ∉ name.toList

/-- A topic and its path, according to the grammar. -/
structure Denotes (path : String) (topic : Topic) : Prop where
  spells : Spells path topic.project topic.name
  project : ProjectWord topic.project.toList
  name : NameWord topic.name.toList
  free : ¬ Reserved topic.name

/-- A path of the right form with a reserved name. -/
def Reserves (path : String) : Prop := ∃ project name, Formed path project name ∧ Reserved name

variable {path project name : String} {topic : Topic} {word start rest : List Char} {c : Char}

/-! Characters and words -/

theorem isLower_iff : c.isLower = true ↔ LowerLetter c := by
  change (decide _ && decide _) = true ↔ _
  rw [Bool.and_eq_true, decide_eq_true_eq, decide_eq_true_eq]
  rfl

theorem isAlpha_iff : c.isAlpha = true ↔ Letter c := by
  change (decide _ || c.isLower) = true ↔ _
  rw [Bool.or_eq_true, isLower_iff, decide_eq_true_eq, or_comm]
  rfl

theorem isDigit_iff : c.isDigit = true ↔ Digit c := by
  rw [Char.isDigit, Bool.and_eq_true, decide_eq_true_eq, decide_eq_true_eq]
  rfl

theorem isProjectChar_iff : isProjectChar c = true ↔ LowerLetter c ∨ Digit c ∨ c = '-' := by
  rw [isProjectChar, Bool.or_eq_true, Bool.or_eq_true, isLower_iff, isDigit_iff, beq_iff_eq,
    or_assoc]

theorem isNameChar_iff :
    isNameChar c = true ↔ Letter c ∨ Digit c ∨ c ∈ ['_', '-', '.', '~', '+', '%'] := by
  simp only [isNameChar, Char.isAlphanum, Bool.or_eq_true, isAlpha_iff, isDigit_iff, beq_iff_eq,
    List.mem_cons, List.not_mem_nil, or_false, or_assoc]

theorem head_any {p : Char → Bool} :
    word.head?.any p = true ↔ ∃ c, word.head? = some c ∧ p c = true :=
  Option.any_eq_true ..

theorem isProject_iff : isProject word = true ↔ ProjectWord word := by
  have last (some : word ≠ []) :
      word.getLast?.any (· != '-') = true ↔ word.getLast? ≠ .some '-' := by
    rw [List.getLast?_eq_some_getLast some, Option.any_some, bne_iff_ne, ne_eq, ne_eq,
      Option.some_inj]
  rw [isProject, Bool.and_eq_true, Bool.and_eq_true, Bool.and_eq_true, decide_eq_true_eq,
    List.all_eq_true, head_any]
  simp only [isProjectChar_iff, isLower_iff]
  constructor
  · rintro ⟨⟨⟨length, chars⟩, first⟩, ending⟩
    have some : word ≠ [] := List.ne_nil_of_length_pos (Nat.lt_of_lt_of_le (by decide) length.1)
    exact ⟨length, chars, first, (last some).mp ending⟩
  · intro w
    have some : word ≠ [] := List.ne_nil_of_length_pos (Nat.lt_of_lt_of_le (by decide) w.length.1)
    exact ⟨⟨⟨w.length, w.chars⟩, w.first⟩, (last some).mpr w.last⟩

theorem isName_iff : isName word = true ↔ NameWord word := by
  rw [isName, Bool.and_eq_true, Bool.and_eq_true, decide_eq_true_eq, List.all_eq_true, head_any]
  simp only [isNameChar_iff, isAlpha_iff]
  exact ⟨fun ⟨⟨length, chars⟩, first⟩ => ⟨length, chars, first⟩,
    fun w => ⟨⟨w.length, w.chars⟩, w.first⟩⟩

theorem isReserved_iff : isReserved name.toList = true ↔ Reserved name :=
  List.isPrefixOf_iff_prefix

/-! Words of the grammar are parts of a path -/

theorem slash_not_letter : ¬ Letter '/' := by
  unfold Letter LowerLetter
  decide

theorem slash_not_digit : ¬ Digit '/' := by
  unfold Digit
  decide

theorem ProjectWord.plain (w : ProjectWord word) : '/' ∉ word := by
  intro slash
  rcases w.chars '/' slash with letter | digit | hyphen
  · exact slash_not_letter (.inl letter)
  · exact slash_not_digit digit
  · exact absurd hyphen (by decide)

theorem NameWord.plain (w : NameWord word) : '/' ∉ word := by
  intro slash
  rcases w.chars '/' slash with letter | digit | mark
  · exact slash_not_letter letter
  · exact slash_not_digit digit
  · exact absurd mark (by decide)

theorem ne_empty (first : ∃ c, name.toList.head? = some c) : name ≠ "" := by
  rintro rfl
  obtain ⟨c, first⟩ := first
  cases first

theorem Denotes.formed (d : Denotes path topic) : Formed path topic.project topic.name where
  spells := d.spells
  project_some := ne_empty (d.project.first.imp fun _ => And.left)
  name_some := ne_empty (d.name.first.imp fun _ => And.left)
  project_plain := d.project.plain
  name_plain := d.name.plain

/-! Taking a path apart -/

theorem after_eq_some_iff : after start word = some rest ↔ word = start ++ rest := by
  unfold after
  split
  · next begins =>
    obtain ⟨others, rfl⟩ := List.isPrefixOf_iff_prefix.mp begins
    rw [List.drop_left, Option.some_inj, List.append_cancel_left_eq]
  · next other =>
    refine ⟨nofun, fun same => absurd ?_ other⟩
    rw [same, List.isPrefixOf_iff_prefix]
    exact List.prefix_append start rest

theorem not_slash (plain : '/' ∉ word) : ∀ c ∈ word, (c != '/') = true := fun _ hc =>
  bne_iff_ne.mpr fun slash => plain (slash ▸ hc)

theorem takeWhile_plain (rest : List Char) (plain : '/' ∉ word) :
    (word ++ '/' :: rest).takeWhile (· != '/') = word := by
  rw [List.takeWhile_append_of_pos (not_slash plain)]
  exact List.append_nil word

theorem dropWhile_plain (rest : List Char) (plain : '/' ∉ word) :
    (word ++ '/' :: rest).dropWhile (· != '/') = '/' :: rest := by
  rw [List.dropWhile_append_of_pos (not_slash plain)]
  rfl

/-- A path has the right form just if it can be taken apart. -/
theorem splitPath_eq_some_iff {path project name : List Char} :
    splitPath path = some (project, name) ↔
      path = "projects/".toList ++ project ++ "/topics/".toList ++ name ∧
        project ≠ [] ∧ name ≠ [] ∧ '/' ∉ project ∧ '/' ∉ name := by
  simp only [splitPath, Option.bind_eq_bind, Option.bind_eq_some_iff, after_eq_some_iff]
  constructor
  · rintro ⟨rest, rfl, ending, split, found⟩
    split at found
    · cases found
    next plain =>
    cases found
    simp only [Bool.or_eq_true, List.isEmpty_iff, List.contains_iff_mem, not_or] at plain
    obtain ⟨⟨project_some, name_some⟩, name_plain⟩ := plain
    refine ⟨?_, project_some, name_some, fun slash => ?_, name_plain⟩
    · rw [List.append_assoc, List.append_assoc, ← split, List.takeWhile_append_dropWhile]
    · have kept := List.all_eq_true.mp List.all_takeWhile '/' slash
      cases kept
  · rintro ⟨rfl, project_some, name_some, project_plain, name_plain⟩
    have head : (project ++ ("/topics/".toList ++ name)).takeWhile (· != '/') = project :=
      takeWhile_plain _ project_plain
    have tail : (project ++ ("/topics/".toList ++ name)).dropWhile (· != '/') =
        "/topics/".toList ++ name := dropWhile_plain _ project_plain
    refine ⟨project ++ ("/topics/".toList ++ name), by simp only [List.append_assoc], name, tail,
      ?_⟩
    rw [head, if_neg]
    simp only [Bool.or_eq_true, List.isEmpty_iff, List.contains_iff_mem, not_or]
    exact ⟨⟨project_some, name_some⟩, name_plain⟩

theorem toList_spells : Spells path project name ↔
    path.toList = "projects/".toList ++ project.toList ++ "/topics/".toList ++ name.toList := by
  rw [Spells, ← String.toList_inj]
  simp only [String.toList_append]

theorem formed_iff :
    Formed path project name ↔ splitPath path.toList = some (project.toList, name.toList) := by
  rw [splitPath_eq_some_iff, ← toList_spells]
  have empty (s : String) : s.toList ≠ [] ↔ s ≠ "" := not_congr String.toList_eq_nil_iff
  rw [empty, empty]
  exact ⟨fun ⟨spells, a, b, c, d⟩ => ⟨spells, a, b, c, d⟩,
    fun ⟨spells, a, b, c, d⟩ => ⟨spells, a, b, c, d⟩⟩

/-- A path of the right form is read as its parts are. -/
theorem parse_of_formed (f : Formed path project name) : parse path = create project name := by
  rw [parse, formed_iff.mp f]
  dsimp only
  rw [String.ofList_toList, String.ofList_toList]

/-- A path that is not of the right form is refused as it is. -/
theorem parse_of_unformed (unformed : ∀ project name, ¬ Formed path project name) :
    parse path = .error (.invalidTopicName path) := by
  rw [parse]
  cases split : splitPath path.toList with
  | none => rfl
  | some parts =>
    have formed : Formed path (.ofList parts.1) (.ofList parts.2) := by
      rw [formed_iff, String.toList_ofList, String.toList_ofList]
      exact split
    exact absurd formed (unformed _ _)

/-! Reading a path -/

theorem isValid_iff (free : ¬ Reserved topic.name) :
    topic.isValid = true ↔ ProjectWord topic.project.toList ∧ NameWord topic.name.toList := by
  rw [isValid, Bool.and_eq_true, Bool.and_eq_true, isProject_iff, isName_iff, Bool.not_eq_true',
    ← Bool.not_eq_true, isReserved_iff, and_iff_left free]

theorem parse_of_reserved (f : Formed path project name) (reserved : Reserved name) :
    parse path = .error .reservedTopicName := by
  rw [parse_of_formed f, create, if_pos (isReserved_iff.mpr reserved)]

/-- The path of the parts is the path that was read. -/
theorem parse_of_free (f : Formed path project name) (free : ¬ Reserved name) :
    parse path = if (⟨project, name⟩ : Topic).isValid then .ok ⟨project, name⟩
      else .error (.invalidTopicName path) := by
  have whole : Topic.path ⟨project, name⟩ = path := f.spells.symm
  rw [parse_of_formed f, create, if_neg (free ∘ isReserved_iff.mp), whole]

/-- What comes of a path: a topic that it denotes, or one of the two errors. -/
theorem parse_cases (path : String) :
    (∃ topic, parse path = .ok topic ∧ Denotes path topic) ∨
      (parse path = .error .reservedTopicName ∧ Reserves path) ∨
        parse path = .error (.invalidTopicName path) := by
  by_cases formed : ∃ project name, Formed path project name
  · obtain ⟨project, name, f⟩ := formed
    by_cases reserved : Reserved name
    · exact .inr (.inl ⟨parse_of_reserved f reserved, project, name, f, reserved⟩)
    · have read := parse_of_free f reserved
      by_cases valid : (⟨project, name⟩ : Topic).isValid = true
      · rw [if_pos valid] at read
        obtain ⟨hp, hn⟩ := (isValid_iff reserved).mp valid
        exact .inl ⟨⟨project, name⟩, read, f.spells, hp, hn, reserved⟩
      · rw [if_neg valid] at read
        exact .inr (.inr read)
  · exact .inr (.inr (parse_of_unformed fun project name f => formed ⟨project, name, f⟩))

theorem Denotes.parse (d : Denotes path topic) : parse path = .ok topic := by
  rw [parse_of_free d.formed d.free, if_pos ((isValid_iff d.free).mpr ⟨d.project, d.name⟩)]

theorem Reserves.parse (r : Reserves path) : parse path = .error .reservedTopicName := by
  obtain ⟨project, name, f, reserved⟩ := r
  exact parse_of_reserved f reserved

/-- Whatever the path: it is accepted, as a topic, if and only if it denotes that topic according
to the grammar. It is refused for its name if and only if it has the right form and a reserved
name, whatever else its parts are. It is refused as it is in all other cases. -/
theorem parse_classifies (path : String) :
    (∀ topic, parse path = .ok topic ↔ Denotes path topic) ∧
      (parse path = .error .reservedTopicName ↔ Reserves path) ∧
      (parse path = .error (.invalidTopicName path) ↔
        (∀ topic, ¬ Denotes path topic) ∧ ¬ Reserves path) := by
  refine ⟨fun topic => ⟨fun read => ?_, Denotes.parse⟩, ⟨fun read => ?_, Reserves.parse⟩,
    fun read => ⟨fun topic d => ?_, fun r => ?_⟩, fun ⟨unnamed, unreserved⟩ => ?_⟩
  · rcases parse_cases path with ⟨other, accepted, d⟩ | ⟨refused, -⟩ | refused
    · cases accepted.symm.trans read
      exact d
    · cases refused.symm.trans read
    · cases refused.symm.trans read
  · rcases parse_cases path with ⟨other, accepted, -⟩ | ⟨-, r⟩ | refused
    · cases accepted.symm.trans read
    · exact r
    · cases refused.symm.trans read
  · cases d.parse.symm.trans read
  · cases r.parse.symm.trans read
  · rcases parse_cases path with ⟨topic, -, d⟩ | ⟨-, r⟩ | refused
    · exact absurd d (unnamed topic)
    · exact absurd r unreserved
    · exact refused

end Topic
end TopicPublisher
