import RawMemory.Log.Place.Listing
import RawMemory.Text.Pieces

/-!
# Places that paths lead to

A path is followed without looking at any disk. All that is known about the places along it is what
holds on every machine: which files and links lie there, and in which directories nothing can be made.
`Place.step` goes one component further, and `Place.fixture` tells what is known of a place.
-/

namespace RawMemory

/-- Why a directory cannot be made. -/
inductive DirectoryFailure where
  /-- Nothing can be made there by any means. -/
  | notPermitted
  /-- Nothing is there, and nothing can come to be there. -/
  | notFound
  /-- The path leads to something that is no directory. -/
  | alreadyExists
  /-- A component of the path in front of the last one is no directory. -/
  | notADirectory
  /-- The path or a component of it is too long. -/
  | nameTooLong
deriving DecidableEq

/-- The failure in words. -/
def DirectoryFailure.message : DirectoryFailure → String
  | notPermitted => "Operation not permitted (os error 1)"
  | notFound => "No such file or directory (os error 2)"
  | alreadyExists => "File exists (os error 17)"
  | notADirectory => "Not a directory (os error 20)"
  | nameTooLong => "File name too long (os error 36)"

/-- A place that a path leads to. -/
inductive Place where
  /-- A place below the root of all files, by the names on the way to it, the last one first. -/
  | belowRoot (names : List String)
  /-- A place below the working directory, by the names on the way to it, the last one first. -/
  | belowHere (names : List String)
  /-- A place outside the working directory that has no name known here. -/
  | outside
deriving DecidableEq

/-- What is known to stand at a place. -/
inductive Fixture where
  /-- An ordinary directory, or nothing; then a directory can be made there. -/
  | free
  /-- Something that is no directory. -/
  | file
  /-- A directory in which nothing can be made. -/
  | closed
  /-- Nothing, and no directory can be made there. -/
  | barred (failure : DirectoryFailure)
deriving DecidableEq

namespace Place

/-- The place below the root that some names lead to. -/
def ofNames (names : List String) : Place := belowRoot names.reverse

/-- Links to directories, by the place of the link and the one that it leads to. -/
def links : List (Place × Place) :=
  [(ofNames ["bin"], ofNames ["usr", "bin"]),
    (ofNames ["dev", "fd"], ofNames (Listing.thisProcess ++ ["fd"])),
    (ofNames ["proc", "net"], ofNames (Listing.thisProcess ++ ["net"])),
    (ofNames ["proc", "thread-self"], ofNames Listing.thisThread)] ++
    [Listing.thisProcess, Listing.thisThread].flatMap fun path =>
      [(ofNames (path ++ ["cwd"]), belowHere []), (ofNames (path ++ ["root"]), belowRoot [])]

/-- The place that holds this one, where the root is taken to hold itself. -/
def parent : Place → Place
  | belowRoot names => belowRoot names.tail
  | belowHere [] => outside
  | belowHere (_ :: names) => belowHere names
  | outside => outside

/-- The place of a name in a directory. -/
def child (name : String) : Place → Place
  | belowRoot names => belowRoot (name :: names)
  | belowHere names => belowHere (name :: names)
  | outside => outside

/-- The place that a component of a path leads to from here. -/
def step (place : Place) (component : String) : Place :=
  if component = "." then place
  else if component = ".." then place.parent
  else (links.lookup (place.child component)).getD (place.child component)

/-- The place at which a path begins. -/
def start (path : String) : Place :=
  match path.toList with
  | '/' :: _ => belowRoot []
  | _ => belowHere []

/-- The components of a path. -/
def components (path : String) : List String := (Text.pieces '/' path).filter (· ≠ "")

/-- The place that a path leads to. -/
def ofPath (path : String) : Place := (components path).foldl step (start path)

/-- The directories below which nothing can be made, and what comes of trying it. -/
def closures : List (List String × DirectoryFailure) :=
  [(["proc"], .notFound), (["sys"], .notPermitted), (["dev", "pts"], .notPermitted)]

/-- What is known to stand at a place. -/
def fixture : Place → Fixture
  | belowRoot names =>
    if Listing.holds (·.files) names then .file
    else
      match closures.find? fun (path, _) => path.isPrefixOf names.reverse with
      | none => .free
      | some (path, failure) =>
        if path = names.reverse ∨ Listing.holds (·.directories) names then .closed else .barred failure
  | belowHere _ | outside => .free

example :
    (ofPath "/dev/../dev/./null").fixture = .file ∧ (ofPath "/proc/self").fixture = .closed ∧
      (ofPath "/proc/self/x").fixture = .barred .notFound ∧
      (ofPath "/proc/thread-self/root/etc/hosts").fixture = .file ∧
      (ofPath "/sys/x").fixture = .barred .notPermitted ∧ (ofPath "/dev/x").fixture = .free := by
  decide +kernel

example : ofPath "/proc/self/cwd/a" = belowHere ["a"] ∧ ofPath "a/../.." = outside := by decide +kernel

end Place

end RawMemory
