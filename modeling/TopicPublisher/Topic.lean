import TopicPublisher.Error

/-!
Topics, named by a path `projects/<project>/topics/<name>`. A topic is made from its two parts
or read from a path, and either way its parts follow the grammar.
-/

namespace TopicPublisher

/-- A topic: the project that owns it and its name there. -/
structure Topic where
  project : String
  name : String
deriving DecidableEq, Repr, Inhabited

namespace Topic

def isProjectChar (c : Char) : Bool := c.isLower || c.isDigit || c == '-'

def isNameChar (c : Char) : Bool :=
  c.isAlphanum || c == '_' || c == '-' || c == '.' || c == '~' || c == '+' || c == '%'

/-- A project has 6 to 30 characters: lowercase letters, digits and hyphens, of which a letter
is the first and a hyphen is not the last. -/
def isProject (word : List Char) : Bool :=
  decide (6 ≤ word.length ∧ word.length ≤ 30) && word.all isProjectChar
    && word.head?.any Char.isLower && word.getLast?.any (· != '-')

/-- A name has 3 to 255 characters: letters, digits and `_-.~+%`, of which a letter is the
first. -/
def isName (word : List Char) : Bool :=
  decide (3 ≤ word.length ∧ word.length ≤ 255) && word.all isNameChar
    && word.head?.any Char.isAlpha

/-- Names that begin so belong to the service. -/
def reservedStart : List Char := ['g', 'o', 'o', 'g']

def isReserved (word : List Char) : Bool := reservedStart.isPrefixOf word

def isValid (t : Topic) : Bool :=
  isProject t.project.toList && isName t.name.toList && !isReserved t.name.toList

def path (t : Topic) : String := "projects/" ++ t.project ++ "/topics/" ++ t.name

/-- The topic with the given parts. A reserved name is refused before all else. -/
def create (project name : String) : Except ConfigError Topic :=
  let topic : Topic := ⟨project, name⟩
  if isReserved name.toList then .error .reservedTopicName
  else if topic.isValid then .ok topic
  else .error (.invalidTopicName topic.path)

/-- What follows `start` in a word that begins with it. -/
def after (start word : List Char) : Option (List Char) :=
  if start.isPrefixOf word then some (word.drop start.length) else none

/-- The two parts of a path, both of them non-empty and free of slashes. -/
def splitPath (path : List Char) : Option (List Char × List Char) := do
  let rest ← after "projects/".toList path
  let project := rest.takeWhile (· != '/')
  let name ← after "/topics/".toList (rest.dropWhile (· != '/'))
  if project.isEmpty || name.isEmpty || name.contains '/' then none else some (project, name)

/-- Reads a path. A text of another form is refused as it is. -/
def parse (path : String) : Except ConfigError Topic :=
  match splitPath path.toList with
  | some (project, name) => create (String.ofList project) (String.ofList name)
  | none => .error (.invalidTopicName path)

end Topic
end TopicPublisher
