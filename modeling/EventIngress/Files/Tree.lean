import EventIngress.SortedMap
import EventIngress.Text.Cut
import EventIngress.Text.Utf8

/-!
# File trees

A tree of files below a working directory, next to the few system files that exist everywhere. A
file has a reported size besides its content, because the two need not agree.

Results:

* `FileTree.locate`: the node that a path leads to, or why there is none.
* `FileTree.size`, `FileTree.read`, `FileTree.readUpTo`: what is asked of a file.
* `FileTree.put`, `FileTree.putDirectory`, `FileTree.delete?`: changes.
-/

namespace EventIngress

/-- Why a file cannot be had. -/
inductive FileFault where
  | notFound
  | notDirectory
  | isDirectory
  | nameTooLong
  /-- The path holds a zero character. -/
  | zeroInName
  /-- The file has no end. -/
  | endless
  deriving DecidableEq, Repr

namespace FileFault

/-- The wording of the fault. -/
def message : FileFault → String
  | notFound => "No such file or directory (os error 2)"
  | notDirectory => "Not a directory (os error 20)"
  | isDirectory => "Is a directory (os error 21)"
  | nameTooLong => "File name too long (os error 36)"
  | zeroInName => "file name contained an unexpected NUL byte"
  | endless => "Cannot allocate memory (os error 12)"

end FileFault

/-- What a path can lead to. -/
inductive FileNode where
  | directory
  /-- A file with the size that is reported for it and its content. -/
  | file (reported : Nat) (content : Bytes)
  /-- A file that yields zeros without end and is reported as empty. -/
  | zeros
  deriving DecidableEq

/-- The nodes below a working directory by their path from there, and the system files by their
path from the root, which starts with a slash. -/
structure FileTree where
  nodes : SortedMap String FileNode
  deriving DecidableEq

namespace FileTree

/-! ## System files -/

/-- The directories that exist everywhere. -/
def systemDirectories : List String :=
  ["/dev", "/etc", "/home", "/proc", "/proc/sys", "/proc/sys/kernel", "/root", "/tmp", "/usr",
    "/var"]

/-- An empty working directory. -/
def empty : FileTree :=
  let files : List (String × FileNode) :=
    [("/dev/null", .file 0 []), ("/dev/zero", .zeros),
      ("/proc/sys/kernel/ostype", .file 0 (Bytes.ofText "Linux\n"))]
  ⟨.ofList (systemDirectories.map (·, FileNode.directory) ++ files)⟩

/-! ## Paths -/

/-- Largest length of a path in bytes. -/
def maxPathBytes : Nat := 4095

/-- Largest length of a name in bytes. -/
def maxNameBytes : Nat := 255

/-- A place in the tree. -/
inductive Place where
  /-- So many directories above the working directory. -/
  | above (levels : Nat)
  /-- Below the working directory, or below the root; the innermost name comes first. -/
  | below (fromRoot : Bool) (names : List String)
  deriving DecidableEq

/-- The key of a place below the working directory or the root. -/
def key (fromRoot : Bool) (names : List String) : String :=
  let path := String.intercalate "/" names.reverse
  if fromRoot then "/" ++ path else path

/-- The node at a place. -/
def node? (t : FileTree) : Place → Option FileNode
  | .above _ => some .directory
  | .below _ [] => some .directory
  | .below fromRoot names => t.nodes.find? (key fromRoot names)

/-- The directory above a place. -/
def Place.parent : Place → Place
  | .above levels => .above (levels + 1)
  | .below true [] => .below true []
  | .below false [] => .above 1
  | .below fromRoot (_ :: names) => .below fromRoot names

/-- The place of a name in a directory. -/
def Place.child? (name : String) : Place → Option Place
  | .above _ => none
  | .below fromRoot names => some (.below fromRoot (name :: names))

/-- Follows the parts of a path from a place whose node is known. -/
def follow (t : FileTree) : Place → FileNode → List String → Except FileFault (Place × FileNode)
  | place, node, [] => .ok (place, node)
  | place, node, part :: parts =>
    if node ≠ .directory then .error .notDirectory
    else if part = "" ∨ part = "." then follow t place node parts
    else if part = ".." then follow t place.parent .directory parts
    else if maxNameBytes < part.utf8ByteSize then .error .nameTooLong
    else
      match place.child? part with
      | none => .error .notFound
      | some next =>
        match t.node? next with
        | none => .error .notFound
        | some node => follow t next node parts

/-- The parts of a path between its slashes. -/
def parts (path : String) : List String :=
  (Text.fields '/' path.toList).map String.ofList

/-- The place and the node that a path leads to. -/
def locate (t : FileTree) (path : String) : Except FileFault (Place × FileNode) :=
  if path.toList.contains '\x00' then .error .zeroInName
  else if path = "" then .error .notFound
  else if maxPathBytes < path.utf8ByteSize then .error .nameTooLong
  else follow t (.below (path.toList.head? == some '/') []) .directory (parts path)

/-! ## Questions -/

/-- The size reported for a directory. -/
def directorySize : Nat := 4096

/-- The size that is reported for a path. -/
def size (t : FileTree) (path : String) : Except FileFault Nat :=
  (t.locate path).map fun (_, node) =>
    match node with
    | .directory => directorySize
    | .file reported _ => reported
    | .zeros => 0

/-- The content of a file. -/
def read (t : FileTree) (path : String) : Except FileFault Bytes :=
  match t.locate path with
  | .error fault => .error fault
  | .ok (_, .directory) => .error .isDirectory
  | .ok (_, .file _ content) => .ok content
  | .ok (_, .zeros) => .error .endless

/-- The first bytes of a file, at most `limit` of them. -/
def readUpTo (t : FileTree) (path : String) (limit : Nat) : Except FileFault Bytes :=
  match t.locate path with
  | .error fault => .error fault
  | .ok (_, .directory) => .error .isDirectory
  | .ok (_, .file _ content) => .ok (content.take limit)
  | .ok (_, .zeros) => .ok (List.replicate limit 0)

/-! ## Changes -/

/-- Makes the directories that the names lead through; the innermost name comes first. -/
def putDirectories (t : FileTree) (fromRoot : Bool) : List String → FileTree
  | [] => t
  | name :: names =>
    let t := putDirectories t fromRoot names
    ⟨t.nodes.insertIfNew (key fromRoot (name :: names)) .directory⟩

/-- The names that a path leads through when nothing on it is a file; innermost first. -/
def names (path : String) : List String :=
  (parts path).foldl (fun names part =>
    if part = "" ∨ part = "." then names
    else if part = ".." then names.tail
    else part :: names) []

/-- Puts a node at a path, with the directories that are missing on the way. -/
def putNode (t : FileTree) (path : String) (node : FileNode) : FileTree :=
  let fromRoot := path.toList.head? == some '/'
  let names := names path
  let t := t.putDirectories fromRoot names.tail
  ⟨t.nodes.insert (key fromRoot names) node⟩

/-- Writes a file. -/
def put (t : FileTree) (path : String) (content : Bytes) : FileTree :=
  t.putNode path (.file content.length content)

/-- Makes a directory. -/
def putDirectory (t : FileTree) (path : String) : FileTree :=
  t.putNode path .directory

/-- Removes a file, or a directory with all that is in it, if there is one. -/
def delete? (t : FileTree) (path : String) : Option FileTree :=
  match t.locate path with
  | .ok (.below fromRoot (name :: names), _) =>
    let target := key fromRoot (name :: names)
    let inside := (target ++ "/").toList
    some ⟨t.nodes.filter fun k _ => k != target && !inside.isPrefixOf k.toList⟩
  | _ => none

end FileTree

end EventIngress
