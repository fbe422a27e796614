import RawMemory.Text.Keyword

/-!
# Kinds of accessors

The two ways in which bulk operations can be carried out, and the words by which a setting chooses one.
-/

namespace RawMemory

/-- How bulk memory operations are carried out. -/
inductive AccessorKind where
  /-- By the routines of the C library. -/
  | libc
  /-- By routines that need no library. -/
  | portable
deriving DecidableEq

namespace AccessorKind

/-- Every kind, the one to be preferred first. -/
def all : List AccessorKind := [libc, portable]

/-- The name of the kind in messages. -/
def name : AccessorKind → String
  | libc => "libc"
  | portable => "portable"

/-- The words that mean a kind. -/
def words : AccessorKind → List String
  | libc => ["libc", "native"]
  | portable => ["portable", "fallback"]

/-- The kind that a word means, in any case and with any blanks around it. -/
def ofWord? (word : String) : Option AccessorKind :=
  all.find? fun kind => kind.words.contains (Keyword.fold (Keyword.trim word))

/-- What is said of a word that means no kind. -/
def unknown (word : String) : String :=
  "Unknown memory accessor: " ++ word ++ ". Use 'libc' or 'portable'"

end AccessorKind

end RawMemory
