/-!
# Files

* `ReadFailure` – why a file cannot be read as text;
* `FileTree`, `FileTree.insert` – files and directories below a working directory;
* `FileTree.read` – reading one of them by its path.
-/

set_option autoImplicit false

namespace ScopeFront

/-- Why a file cannot be read as text. -/
inductive ReadFailure where
  | notFound
  | isDirectory
  | notDirectory
  | notText
  /-- A name or the whole path is longer than the system takes. -/
  | tooLong
  /-- The path holds the character that ends a text for the system. -/
  | holdsNul
  /-- Any other reason, in the words of the system. -/
  | other (reason : String)
deriving DecidableEq, Repr

/-- The reason in the words of the system. -/
def ReadFailure.message : ReadFailure → String
  | notFound => "No such file or directory (os error 2)"
  | isDirectory => "Is a directory (os error 21)"
  | notDirectory => "Not a directory (os error 20)"
  | notText => "stream did not contain valid UTF-8"
  | tooLong => "File name too long (os error 36)"
  | holdsNul => "file name contained an unexpected NUL byte"
  | other reason => reason

/-- The text that bytes spell. -/
def decodeText (bytes : ByteArray) : Except ReadFailure String :=
  match String.fromUTF8? bytes with
  | none => .error .notText
  | some text => .ok text

/-- What has a name in a directory. -/
inductive Entry where
  | file (content : ByteArray)
  | directory

/-- Files and directories below a working directory, each under the names that lead to it. -/
structure FileTree where
  entries : List (List String × Entry)

namespace FileTree

/-- The names in a path. -/
def names (path : String) : List String :=
  (path.toList.splitOn '/').map String.ofList

/-- The names that are left when `.` and empty names are dropped and `..` takes back the name before
it. -/
def resolve (names : List String) : List String :=
  names.foldl (fun here name =>
    if name = "" ∨ name = "." then here
    else if name = ".." then here.dropLast
    else here ++ [name]) []

/-- The tree with nothing in it. -/
def empty : FileTree := ⟨[]⟩

/-- The tree with an entry put at a path, in place of what stood there before. -/
def insert (tree : FileTree) (path : String) (entry : Entry) : FileTree :=
  ⟨(resolve (names path), entry) :: tree.entries⟩

/-- The tree of a list of entries, put at their paths one after the other. -/
def ofList (entries : List (String × Entry)) : FileTree :=
  entries.foldl (fun tree (path, entry) => tree.insert path entry) empty

/-- Where a path leads. -/
inductive Place where
  /-- A directory, under the names that lead to it. -/
  | directory (names : List String)
  /-- A directory above the working directory, of which nothing is known. -/
  | above
  | file (content : ByteArray)

/-- What stands under a sequence of names; a directory need not be listed if something in it is. -/
def find (tree : FileTree) (names : List String) : Except ReadFailure Place :=
  match tree.entries.find? (·.1 == names) with
  | some (_, .file content) => .ok (.file content)
  | some (_, .directory) => .ok (.directory names)
  | none =>
    if tree.entries.any (names.isPrefixOf ·.1) then .ok (.directory names)
    else .error .notFound

/-- The number of bytes that a name may have. -/
def nameBound : Nat := 255

/-- The number of bytes that a path may have. -/
def pathBound : Nat := 4095

/-- One name further on: `.` and an empty name stay, `..` goes back. -/
def step (tree : FileTree) (place : Place) (name : String) : Except ReadFailure Place :=
  match place with
  | .file _ => .error .notDirectory
  | .above =>
    if name = "" ∨ name = "." ∨ name = ".." then .ok .above
    else if nameBound < name.utf8ByteSize then .error .tooLong
    else .error .notFound
  | .directory here =>
    if name = "" ∨ name = "." then .ok (.directory here)
    else if name = ".." then
      .ok (if here.isEmpty then .above else .directory here.dropLast)
    else if nameBound < name.utf8ByteSize then .error .tooLong
    else tree.find (here ++ [name])

/-- Follows a sequence of names. -/
def follow (tree : FileTree) : Place → List String → Except ReadFailure Place
  | place, [] => .ok place
  | place, name :: names =>
    match tree.step place name with
    | .error e => .error e
    | .ok next => tree.follow next names

/-- Where a path starts: a path from the root of the system outside the tree, every other one in the
working directory. -/
def start (path : String) : Place :=
  if path.toList.head? = some '/' then .above else .directory []

/-- The text of the file that a path leads to. -/
def read (tree : FileTree) (path : String) : Except ReadFailure String :=
  if path.toList.contains '\x00' then .error .holdsNul
  else if pathBound < path.utf8ByteSize then .error .tooLong
  else
    match tree.follow (start path) (names path) with
    | .error e => .error e
    | .ok (.file content) => decodeText content
    | .ok _ => .error .isDirectory

end FileTree

end ScopeFront
