/-!
# Files

Files are known by their absolute paths, which are lists of names. A path is first resolved, name by
name: links are replaced by what they lead to, and a double dot takes the last name away. What it
resolves to is then looked up, where every name needs a folder that may be searched.
-/

set_option autoImplicit false

namespace WordStream.Input

/-- An error of the system: its number, and how it is worded. -/
structure SystemError where
  number : Nat
  wording : String
deriving DecidableEq, Repr

namespace SystemError

def absent : SystemError := { number := 2, wording := "No such file or directory" }

def denied : SystemError := { number := 13, wording := "Permission denied" }

def longName : SystemError := { number := 36, wording := "File name too long" }

end SystemError

/-- Why a file cannot be read: it cannot be opened, or it can and its bytes cannot be taken. -/
inductive Trouble where
  | opening (error : SystemError)
  | reading (error : SystemError)
deriving DecidableEq, Repr

/-- A file: its first bytes, its size, and why it cannot be read, if it cannot. Beyond the first bytes it
holds zeros. -/
structure File where
  content : ByteArray
  size : Nat
  trouble : Option Trouble := none

namespace File

def addZeros : (count : Nat) → ByteArray → ByteArray
  | 0, bytes => bytes
  | count + 1, bytes => addZeros count (bytes.push 0)

def bytes (file : File) : ByteArray :=
  addZeros (file.size - file.content.size) (file.content.extract 0 file.size)

end File

/-- An absolute path: the names from the root on. -/
abbrev Path := List String

namespace Path

def segments : List Char → List (List Char)
  | [] => [[]]
  | character :: rest =>
      if character = '/' then [] :: segments rest
      else
        match segments rest with
        | [] => [[character]]
        | first :: others => (character :: first) :: others

/-- The names of a written path. -/
def names (text : String) : List String :=
  (segments text.toList).map String.ofList

def isAbsolute (text : String) : Bool :=
  text.toList.head? = some '/'

def text (path : Path) : String :=
  "/" ++ "/".intercalate path

def systemFolders : List String := ["dev", "proc", "sys"]

def isSystem : Path → Bool
  | first :: _ :: _ => systemFolders.contains first
  | _ => false

/-- The extension of a name: from its last dot on, unless that is its first or last character. -/
def extension (name : String) : String :=
  let characters := name.toList
  let after := (characters.reverse.takeWhile (· != '.')).reverse
  let front := characters.length - after.length
  if after.isEmpty || front ≤ 1 then "" else String.ofList ('.' :: after)

/-- Goes on from a path by names as they are written. -/
def append (path : Path) : (names : List String) → Path
  | [] => path
  | name :: names =>
      if name = "" || name = "." then append path names
      else if name = ".." then append path.dropLast names
      else append (path ++ [name]) names

end Path

/-- A path in the making: the names from the root on, or from the working folder on, which double dots in
front of all names lead out of. -/
structure Route where
  absolute : Bool
  names : List String := []
deriving DecidableEq, Repr

namespace Route

def add (route : Route) (name : String) : Route :=
  { route with names := route.names ++ [name] }

def up (route : Route) : Route :=
  if !route.absolute && route.names.getLast?.all (· == "..") then route.add ".."
  else { route with names := route.names.dropLast }

/-- Where a written path begins that is met on a route. -/
def start (route : Route) (text : String) : Route :=
  if Path.isAbsolute text then { absolute := true } else route

/-- Puts what is left of a written path behind a route. What is left begins at the root if a slash stands
in front of it. -/
def join (route : Route) : (rest : List String) → Route
  | "" :: name :: names => { absolute := true, names := name :: names }
  | rest => { route with names := route.names ++ rest }

def path (workingFolder : Path) (route : Route) : Path :=
  Path.append (if route.absolute then [] else workingFolder) route.names

/-- Goes on by names. A name is taken by `enter`; where that fails at some route, the names that are left
are put behind it. -/
def along (enter : Route → String → Except Route Route) : Route → List String → Except Route Route
  | route, [] => .ok route
  | route, name :: names =>
      if name = "" || name = "." then along enter route names
      else if name = ".." then along enter route.up names
      else
        match enter route name with
        | .ok next => along enter next names
        | .error reached => .error (reached.join names)

end Route

/-- What can be reached by paths. -/
structure Files where
  /-- The folder in which relative paths begin, unless it is gone. -/
  workingFolder : Option Path := some []
  /-- The files; of two with one path the first one holds. -/
  files : List (Path × File) := []
  folders : List Path := []
  /-- The folders that may not be searched. -/
  barred : List Path := []
  /-- The links, each with the written path that it leads to. -/
  links : List (Path × String) := []

/-- Why a path cannot be looked up. -/
inductive Obstacle where
  | absent
  | denied
  | longName
  | loop
deriving DecidableEq, Repr

namespace Files

def file? (files : Files) (path : Path) : Option File :=
  files.files.lookup path

def isFolder (files : Files) (path : Path) : Bool :=
  path.isEmpty || files.folders.any (path.isPrefixOf ·) ||
    (files.files.any fun entry => path.isPrefixOf entry.1.dropLast) ||
    files.links.any fun entry => path.isPrefixOf entry.1.dropLast

/-- Whether a folder, or one that it lies in, may not be searched. -/
def isBarred (files : Files) (folder : Path) : Bool :=
  files.barred.any (·.isPrefixOf folder)

/-! ## Resolving -/

/-- The link at a path, if it can be seen. -/
def link? (files : Files) (path : Path) : Option String :=
  if files.isBarred path.dropLast then none else files.links.lookup path

/-- Takes a name on a route. A link leads on from the folder that it is in, unless it was entered before
and not left yet: it is then as far as the route goes. -/
def enter (files : Files) (workingFolder : Path) :
    (depth : Nat) → (entered : List Route) → Route → String → Except Route Route
  | 0, _, route, name => .error (route.add name)
  | depth + 1, entered, route, name =>
      match files.link? ((route.add name).path workingFolder) with
      | none => .ok (route.add name)
      | some target =>
          if entered.contains (route.add name) then .error (route.add name)
          else
            Route.along (enter files workingFolder depth (route.add name :: entered))
              (route.start target) (Path.names target)

/-- What a written path resolves to where relative paths begin in a folder. Each link is entered once at a
time by a route from the root, and by one for each number of folders that are left first, so that the depth
suffices unless double dots lead above the root. Where a loop of links is met the names that are left are
taken as they are written. -/
def resolveIn (files : Files) (workingFolder : Path) (text : String) : Path :=
  let names := (Path.names text).filter fun name => name != "" && name != "."
  let start : Route := { absolute := Path.isAbsolute text }
  let depth := (files.links.length + 1) * (workingFolder.length + 2)
  match Route.along (files.enter workingFolder depth []) start names with
  | .ok route | .error route => route.path workingFolder

/-- What a written path resolves to; none if it is relative and there is no folder that it begins in. -/
def resolve? (files : Files) (text : String) : Option Path :=
  match files.workingFolder with
  | some folder => some (files.resolveIn folder text)
  | none => if Path.isAbsolute text then some (files.resolveIn [] text) else none

/-! ## Looking up -/

/-- The most bytes of a path that can be looked up. -/
def maxPathLength : Nat := 4095

/-- The most bytes of a name that can be looked up. -/
def maxNameLength : Nat := 255

/-- The most links that are followed until something is looked up. -/
def maxLinks : Nat := 40

/-- Looks a name up in a folder. The number of links that may be followed is kept; a link is looked up as
the path that it leads to. -/
def lookUp (files : Files) : (depth : Nat) → Nat × Path → String → Except Obstacle (Nat × Path)
  | depth, (left, path), name =>
      if !files.isFolder path then .error .absent
      else if files.isBarred path then .error .denied
      else if name = "" || name = "." then .ok (left, path)
      else if name = ".." then .ok (left, path.dropLast)
      else if maxNameLength < name.utf8ByteSize then .error .longName
      else
        match files.links.lookup (path ++ [name]) with
        | none => .ok (left, path ++ [name])
        | some target =>
            match depth, left with
            | 0, _ | _, 0 => .error .loop
            | depth + 1, left + 1 =>
                (Path.names target).foldlM (lookUp files depth)
                  (left, if Path.isAbsolute target then [] else path)

/-- What a path leads to when it is looked up. -/
def find (files : Files) (path : Path) : Except Obstacle Path := do
  if maxPathLength < path.text.utf8ByteSize then throw .longName
  let (_, place) ← path.foldlM (files.lookUp maxLinks) (maxLinks, [])
  return place

end Files

end WordStream.Input
