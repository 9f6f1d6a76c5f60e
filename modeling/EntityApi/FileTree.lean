import EntityApi.Yaml.Content

/-!
A tree of files. Paths are names separated by slashes, where empty names and single dots count for
nothing and two dots lead up; they begin at the top of the tree or in its working directory. A
directory is there if it was made or if something is in it, and the top is always there.
-/

namespace EntityApi

structure Path where
  absolute : Bool
  names : List String
  deriving Repr, DecidableEq

namespace Path

def ofText (s : String) : Path :=
  let names := (s.toList.splitOn '/').map String.ofList
  ⟨s.startsWith "/", names.filter fun name => name != "" && name != "."⟩

def text (p : Path) : String :=
  let joined := "/".intercalate p.names
  if p.absolute then "/" ++ joined else if p.names.isEmpty then "." else joined

def child (p : Path) (name : String) : Path := { p with names := p.names ++ [name] }

/-- Goes on to a name. There is nothing above the top. -/
def step (place : List String) (name : String) : List String :=
  if name == ".." then place.dropLast else place ++ [name]

/-- The names that lead from the top to a path. -/
def placeFrom (start : List String) (p : Path) : List String :=
  p.names.foldl step (if p.absolute then [] else start)

end Path

/-- What a file holds: a text, or a document that needs no reading. -/
inductive FileContent where
  | text (s : String)
  | document (v : Value)

/-- Files and directories, by the names that lead to them from the top. -/
structure FileTree where
  files : List (List String × FileContent) := []
  directories : List (List String) := []
  /-- Where paths begin that are not absolute. -/
  workingDirectory : List String := []
  /-- What version control answers when it is asked for the revision of the working directory; `none`
  if it is missing or does not know the directory. -/
  revision? : Option String := none

namespace FileTree

/-- All places with a file or a directory that was made. -/
def places (t : FileTree) : List (List String) := t.files.map Prod.fst ++ t.directories

def placeOf (t : FileTree) (p : Path) : List String := p.placeFrom t.workingDirectory

def file? (t : FileTree) (place : List String) : Option FileContent := t.files.lookup place

def hasDirectory (t : FileTree) (place : List String) : Bool :=
  place.isEmpty || t.directories.contains place ||
    t.places.any fun other => place.isPrefixOf other && decide (place.length < other.length)

def isDirectory (t : FileTree) (p : Path) : Bool := t.hasDirectory (t.placeOf p)

/-- The names in a directory, in order. -/
def namesIn (t : FileTree) (p : Path) : List String :=
  let place := t.placeOf p
  let names := t.places.filterMap fun other =>
    if place.isPrefixOf other then other[place.length]? else none
  names.eraseDups.mergeSort fun a b => decide (a ≤ b)

/-- Carriage returns, alone or before a line feed, are line feeds in texts that are read. -/
def plainBreaks : List Char → List Char
  | [] => []
  | '\r' :: '\n' :: s => '\n' :: plainBreaks s
  | c :: s => (if c == '\r' then '\n' else c) :: plainBreaks s

def fileMishap {α : Type} (kind : Accident) (code : Nat) (what : String) (p : Path) : Result α :=
  mishap kind ("[Errno " ++ toString code ++ "] " ++ what ++ ": " ++ Text.quoted p.text)

def notThere {α : Type} (p : Path) : Result α :=
  fileMishap .noSuchFile 2 "No such file or directory" p

def isADirectory {α : Type} (p : Path) : Result α := fileMishap .isDirectory 21 "Is a directory" p

/-- The document in a file. -/
def document (t : FileTree) (p : Path) : Result Value :=
  if t.isDirectory p then isADirectory p
  else
    match t.file? (t.placeOf p) with
    | none => notThere p
    | some (.document v) => .ok v
    | some (.text s) => Yaml.read p.text (String.ofList (plainBreaks s.toList))

/-- The nonempty starts of a list that are shorter than it. -/
def properPrefixes (place : List String) : List (List String) :=
  (List.range place.length).filterMap fun n => if n == 0 then none else some (place.take n)

/-- Makes a directory and those above it that are missing. A directory that is there is left. -/
def makeDirectory (t : FileTree) (p : Path) : Result FileTree :=
  let place := t.placeOf p
  if (properPrefixes place).any fun above => (t.file? above).isSome then
    fileMishap .notDirectory 20 "Not a directory" p
  else if (t.file? place).isSome then fileMishap .fileExists 17 "File exists" p
  else .ok { t with directories := t.directories ++ [place] }

/-- Writes a text into a file. -/
def write (t : FileTree) (p : Path) (text : String) : Result FileTree :=
  if t.isDirectory p then isADirectory p
  else .ok { t with files := Entries.put t.files (t.placeOf p) (.text text) }

/-- The texts of a tree that another one does not have in their places. -/
def changesFrom (after before : FileTree) : List (List String × String) :=
  after.files.filterMap fun (place, content) =>
    match content, before.file? place with
    | .text s, some (.text t) => if s == t then none else some (place, s)
    | .text s, _ => some (place, s)
    | .document _, _ => none

end FileTree

end EntityApi
