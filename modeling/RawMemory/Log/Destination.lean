import RawMemory.Log.Place

/-!
# Log files

Where a log goes that is kept in a file. A setting names a path; the file lies in the directory of that
path under its last component, to which the day is added, so that each day has a file of its own. The
directory is made when it is missing, and so are those on the way to it.
-/

namespace RawMemory

/-- The bytes that the name of a file may have. -/
def maxNameSize : Nat := 255

/-- The bytes that a path may have. -/
def maxPathSize : Nat := 4095

/-! ### Files -/

/-- A file that a log is kept in, apart from the day. -/
structure LogFile where
  /-- The path of the directory. -/
  directory : String
  /-- The name of the file in its directory, before the day is added. -/
  name : String
deriving DecidableEq

namespace LogFile

/-- The name of a file for which the setting gives a directory only. -/
def defaultName : String := "nativemem.log"

/-- A path in the reverse order of its components without those at its end that lead nowhere, apart from
the very first one. -/
def withoutIdle : List String → List String
  | [] => []
  | [first] => [first]
  | last :: before => if last = "" ∨ last = "." then withoutIdle before else last :: before

/-- The file that a path names. A path that ends in dots, or has no component at all, names no file;
then the file has the usual name. It lies in the working directory if there is no directory in the
path. -/
def ofPath (path : String) : LogFile :=
  match withoutIdle (Text.pieces '/' path).reverse with
  | [] => ⟨".", defaultName⟩
  | last :: before =>
    let name := if last = "" ∨ last = "." ∨ last = ".." then defaultName else last
    match (withoutIdle before).reverse with
    | [] => ⟨".", name⟩
    | [""] => ⟨"/", name⟩
    | directory => ⟨"/".intercalate directory, name⟩

/-- The file that a setting names, where an empty setting is none. -/
def ofSetting (setting : Option String) : Option LogFile :=
  (setting.filter (· ≠ "")).map ofPath

/-- The name of the file on some day. -/
def nameOn (f : LogFile) (day : String) : String := f.name ++ "." ++ day

/-- The path from the working directory to the file of some day, if it lies below. -/
def reach (f : LogFile) (day : String) : Option String :=
  match Place.ofPath f.directory with
  | .belowHere names => some ("/".intercalate (names.reverse ++ [f.nameOn day]))
  | _ => none

/-- Go on with a component of a path, and make a directory there unless there is one. -/
def makeStep (place : Place) (component : String) : Except DirectoryFailure Place :=
  if place.fixture = .file then .error .notADirectory
  else
    let next := place.step component
    match next.fixture with
    | .barred failure => .error failure
    | .free | .file | .closed =>
      if maxNameSize < component.utf8ByteSize then .error .nameTooLong else .ok next

/-- Make the directory of the file, and those on the way to it. -/
def makeDirectory (f : LogFile) : Except DirectoryFailure Unit :=
  if maxPathSize < f.directory.utf8ByteSize then .error .nameTooLong
  else do
    let place ← (Place.components f.directory).foldlM makeStep (Place.start f.directory)
    if place.fixture = .file then .error .alreadyExists else .ok ()

/-- The bytes of the name on any day, since the text of a day takes ten. -/
def nameSize (f : LogFile) : Nat := f.name.utf8ByteSize + 1 + 10

/-- Whether the file can be opened in its directory. -/
def canOpen (f : LogFile) : Bool :=
  f.nameSize ≤ maxNameSize && f.directory.utf8ByteSize + 1 + f.nameSize ≤ maxPathSize &&
    (Place.ofPath f.directory).fixture = .free

example :
    ofPath "logs/" = ⟨".", "logs"⟩ ∧ ofPath "/x" = ⟨"/", "x"⟩ ∧ ofPath "/" = ⟨".", defaultName⟩ ∧
      ofPath "a//b/./.." = ⟨"a//b", defaultName⟩ := by
  decide +kernel

example :
    reach ⟨"a/../b", "x"⟩ "today" = some "b/x.today" ∧ reach ⟨"a/../..", "x"⟩ "today" = none := by
  decide +kernel

end LogFile

end RawMemory
