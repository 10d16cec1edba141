/-! # File trees

The files and directories that a program can see, each under the names that lead to it from the
root.  A path is text: names between slashes, where no name and `.` stay in place and `..` goes one
directory back.
-/

namespace MemoryArbiter

inductive FileNode
  | file (contents : List UInt8)
  | directory
  deriving DecidableEq

def encodeText (s : String) : List UInt8 := s.toUTF8.toList

def decodeText? (bytes : List UInt8) : Option String := String.fromUTF8? ⟨bytes.toArray⟩

inductive FileError
  | notFound
  | notDirectory
  | isDirectory
  | nameTooLong
  | nulInName
  | notText
  deriving DecidableEq, Repr, Inhabited

def FileError.message : FileError → String
  | notFound => "No such file or directory (os error 2)"
  | notDirectory => "Not a directory (os error 20)"
  | isDirectory => "Is a directory (os error 21)"
  | nameTooLong => "File name too long (os error 36)"
  | nulInName => "file name contained an unexpected NUL byte"
  | notText => "stream did not contain valid UTF-8"

/-- A file or directory, or the name of one that may be made in a directory that is there. -/
inductive Place
  | taken (names : List String) (node : FileNode)
  | vacant (names : List String)
  deriving DecidableEq

structure FileTree where
  nodes : List (List String × FileNode) := []
  deriving DecidableEq

namespace FileTree

/-! ### Paths -/

/-- The most bytes in a name, and in a whole path. -/
def maxNameBytes : Nat := 255

def maxPathBytes : Nat := 4095

def join (dir name : String) : String :=
  if dir.isEmpty || dir.endsWith "/" then dir ++ name else dir ++ "/" ++ name

/-- The names that the parts of a path lead to from the directory `dir`, whatever is there. -/
def resolve (dir : List String) : List String → List String
  | [] => dir
  | part :: parts =>
    if part = "" || part = "." then resolve dir parts
    else if part = ".." then resolve dir.dropLast parts
    else resolve (dir ++ [part]) parts

/-- The names that lead to a path from the root. -/
def namesOf (path : String) : List String := resolve [] (path.splitOn "/")

/-- What is found under the given names; the root is always there. -/
def node? (t : FileTree) (names : List String) : Option FileNode :=
  if names.isEmpty then some .directory
  else (t.nodes.find? fun n => n.1 = names).map Prod.snd

/-- Follow the parts of a path from the directory `dir`. -/
def walk (t : FileTree) (dir : List String) : List String → Except FileError Place
  | [] => .ok (.taken dir .directory)
  | part :: parts =>
    if part = "" || part = "." then walk t dir parts
    else if part = ".." then walk t dir.dropLast parts
    else if maxNameBytes < part.utf8ByteSize then .error .nameTooLong
    else
      match t.node? (dir ++ [part]), parts with
      | some .directory, _ => walk t (dir ++ [part]) parts
      | some node, [] => .ok (.taken (dir ++ [part]) node)
      | some _, _ => .error .notDirectory
      | none, [] => .ok (.vacant (dir ++ [part]))
      | none, _ => .error .notFound

def place (t : FileTree) (path : String) : Except FileError Place :=
  if path.contains '\x00' then .error .nulInName
  else if path.isEmpty then .error .notFound
  else if maxPathBytes < path.utf8ByteSize then .error .nameTooLong
  else t.walk [] (path.splitOn "/")

def find (t : FileTree) (path : String) : Except FileError (List String × FileNode) :=
  match t.place path with
  | .ok (.taken names node) => .ok (names, node)
  | .ok (.vacant _) => .error .notFound
  | .error e => .error e

def contains (t : FileTree) (path : String) : Bool := (t.find path).toBool

/-! ### Files and directories -/

def readBytes (t : FileTree) (path : String) : Except FileError (List UInt8) :=
  match t.find path with
  | .error e => .error e
  | .ok (_, .directory) => .error .isDirectory
  | .ok (_, .file contents) => .ok contents

def readText (t : FileTree) (path : String) : Except FileError String :=
  match t.readBytes path with
  | .error e => .error e
  | .ok contents =>
    match decodeText? contents with
    | some s => .ok s
    | none => .error .notText

def entryNames (t : FileTree) (path : String) : Except FileError (List String) :=
  match t.find path with
  | .error e => .error e
  | .ok (_, .file _) => .error .notDirectory
  | .ok (names, .directory) =>
    .ok (t.nodes.filterMap fun n => if n.1.dropLast = names then n.1.getLast? else none)

/-- Put a node in the place of the one under the same names. -/
def put (t : FileTree) (names : List String) (node : FileNode) : FileTree :=
  ⟨t.nodes.filter (fun n => n.1 ≠ names) ++ [(names, node)]⟩

/-- Write a file, which is made if its directory is there. -/
def writeText (t : FileTree) (path text : String) : Except FileError Unit × FileTree :=
  match t.place path with
  | .ok (.taken _ .directory) => (.error .isDirectory, t)
  | .ok (.taken names (.file _)) => (.ok (), t.put names (.file (encodeText text)))
  | .ok (.vacant names) => (.ok (), t.put names (.file (encodeText text)))
  | .error e => (.error e, t)

/-- The tree with a node under the given names, and with every directory on the way to it. -/
def add (t : FileTree) (names : List String) (node : FileNode) : FileTree :=
  let parents := (List.range names.length).map fun i => names.take i
  let t := parents.foldl
    (fun t dir => if (t.node? dir).isSome then t else t.put dir .directory) t
  if names.isEmpty || (node = .directory && (t.node? names).isSome) then t else t.put names node

/-- The tree with a node at a path that starts in the directory `dir`, and with every directory
that the path goes through, also those that it leaves again. -/
def addPath (t : FileTree) (dir : List String) (path : String) (node : FileNode) : FileTree :=
  let parts := path.splitOn "/"
  let passed := (List.range parts.length).map fun i => resolve dir (parts.take i)
  (passed.foldl (fun t names => t.add names .directory) t).add (resolve dir parts) node

end FileTree

/-- What a program sees of the machine it runs on. -/
structure Host where
  environment : List (String × String) := []
  files : FileTree := {}
  deriving DecidableEq

def Host.setting? (h : Host) (name : String) : Option String := h.environment.lookup name

end MemoryArbiter
