import ShiftBarrier.CommandLine

/-!
# Paths

A working directory holds text files and no directories.  Around it lie the root directory with its
customary directories, and the directories between the two, whose contents are not known: there is
nothing to read in them, and what is written to them is not seen again.

* `Directory.locate` resolves a path up to its last component.
* `Directory.read` and `Directory.obstacle` tell what happens when a path is opened for reading or
  for writing.
* `Directory.files` is what a program sees of it all.
-/

set_option autoImplicit false

namespace ShiftBarrier
namespace CommandLine

/-- The files of a working directory. -/
structure Directory where
  entries : List (String × String)

namespace Directory

/-- A directory: the working directory, one above it, the root, or one in the root. -/
inductive Folder
  | working
  | above
  | root
  | inRoot (name : String)
  deriving DecidableEq, Repr

/-- The directory above. -/
def Folder.up : Folder → Folder
  | .working | .above => .above
  | .root | .inRoot _ => .root

/-- What a name in a directory stands for. -/
inductive Node
  | folder (f : Folder)
  | file (text : String)
  | missing
  deriving DecidableEq, Repr

/-- The directories that a root directory has. -/
def rootFolders : List String :=
  ["bin", "boot", "dev", "etc", "home", "lib", "lib64", "media", "mnt", "opt", "proc", "root",
    "run", "sbin", "srv", "sys", "tmp", "usr", "var"]

/-- The null device is an empty file. -/
def node (d : Directory) (name : String) : Folder → Node
  | .working => ((d.entries.lookup name).map Node.file).getD .missing
  | .above => .missing
  | .root => if name ∈ rootFolders then .folder (.inRoot name) else .missing
  | .inRoot folder => if folder = "dev" ∧ name = "null" then .file "" else .missing

/-! ## Resolving a path

Components are resolved from left to right, and nothing is looked up behind the first that does not
exist.  Names and paths that are too long are refused before they are looked up. -/

/-- The longest name of a file, in bytes. -/
def maxName : Nat := 255

/-- The longest path, in bytes. -/
def maxPath : Nat := 4095

/-- Enters one directory after the other. -/
def enter (d : Directory) : Folder → List String → Except FileFault Folder
  | f, [] => .ok f
  | f, part :: parts =>
    if part = "." then d.enter f parts
    else if part = ".." then d.enter f.up parts
    else if maxName < part.utf8ByteSize then .error .nameTooLong
    else
      match d.node part f with
      | .folder g => d.enter g parts
      | .file _ => .error .notDirectory
      | .missing => .error .notFound

/-- What a path leads to: a directory, or a name in one, perhaps with a slash behind it. -/
inductive Place
  | folder
  | entry (f : Folder) (name : String) (slash : Bool)
  deriving DecidableEq, Repr

/-- Resolves a path but for its last component. -/
def locate (d : Directory) (path : String) : Except FileFault Place :=
  let cs := path.toList
  if cs.contains '\x00' then .error .nullCharacter
  else if cs.isEmpty then .error .notFound
  else if maxPath < path.utf8ByteSize then .error .nameTooLong
  else
    let parts := (path.splitOn "/").filter (!·.isEmpty)
    let start := if cs.head? = some '/' then Folder.root else .working
    match parts.getLast? with
    | none => .ok .folder
    | some last => do
      let f ← d.enter start parts.dropLast
      if last = "." ∨ last = ".." then return .folder
      else return .entry f last (cs.getLast? = some '/')

/-! ## Opening files -/

/-- The text of the file that a path names. -/
def read (d : Directory) (path : String) : Except FileFault String := do
  match ← d.locate path with
  | .folder => throw .isDirectory
  | .entry f name slash =>
    if maxName < name.utf8ByteSize then throw .nameTooLong
    match d.node name f with
    | .folder _ => throw .isDirectory
    | .file text => if slash then throw .notDirectory else return text
    | .missing => throw .notFound

/-- Why a path cannot be opened for writing.  A path that ends in a slash names a directory, whether
there is one or not. -/
def obstacle (d : Directory) (path : String) : Option FileFault :=
  match d.locate path with
  | .error fault => some fault
  | .ok .folder => some .isDirectory
  | .ok (.entry f name slash) =>
    if slash then some .isDirectory
    else if maxName < name.utf8ByteSize then some .nameTooLong
    else
      match d.node name f with
      | .folder _ => some .isDirectory
      | _ => none

/-- The files as a program sees them. -/
def files (d : Directory) : Files := { read := d.read, obstacle := d.obstacle }

/-- The file of the working directory that a path names. -/
def nameOf? (d : Directory) (path : String) : Option String :=
  match d.locate path with
  | .ok (.entry .working name _) => some name
  | _ => none

end Directory
end CommandLine
end ShiftBarrier
