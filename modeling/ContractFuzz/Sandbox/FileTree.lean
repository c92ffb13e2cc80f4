import ContractFuzz.SystemError
import ContractFuzz.Text.Front

namespace ContractFuzz.Sandbox

/-- The files of a tree by the directories and the name that lead to them. -/
abbrev FileTree := List (List String × ByteArray)

/-- Where a path has come to. -/
inductive Place where
  /-- A directory of the tree, by the names that lead to it. -/
  | directory (names : List String)
  /-- A directory that the tree lies in. -/
  | outside
  | file (content : ByteArray)

namespace FileTree

/-- The octets that a name may have. -/
def maximalName : Nat := 255

/-- The octets that a path may have. -/
def maximalPath : Nat := 4095

/-- Whether a part of a path stays where it is. -/
def isIdle (part : String) : Bool := part == "" || part == "."

/-- A tree from its files by their paths. -/
def ofList (files : List (String × ByteArray)) : FileTree :=
  files.map fun file => ((file.1.splitOn "/").filter fun part => !isIdle part, file.2)

def hasDirectory (tree : FileTree) (path : List String) : Bool :=
  tree.any fun file => path.isPrefixOf file.1 && path != file.1

/-- The place that a name leads to from a directory of the tree. -/
def enter (tree : FileTree) (names : List String) (name : String) : Except SystemError Place :=
  match tree.lookup (names ++ [name]) with
  | some content => .ok (.file content)
  | none =>
      if tree.hasDirectory (names ++ [name]) then .ok (.directory (names ++ [name]))
      else .error .notFound

/-- Follow one part of a path. -/
def step (tree : FileTree) (part : String) : Place → Except SystemError Place
  | .file _ => .error .notDirectory
  | .outside =>
      if isIdle part || part == ".." then .ok .outside
      else if maximalName < part.utf8ByteSize then .error .nameTooLong
      else .error .notFound
  | .directory names =>
      if isIdle part then .ok (.directory names)
      else if part == ".." then
        .ok (if names.isEmpty then .outside else .directory names.dropLast)
      else if maximalName < part.utf8ByteSize then .error .nameTooLong
      else tree.enter names part

/-- The place a path leads to. -/
def locate (tree : FileTree) (path : String) : Except SystemError Place :=
  if path.isEmpty then .error .notFound
  else if maximalPath < path.utf8ByteSize then .error .nameTooLong
  else
    let start := if Text.startsWith path "/" then .outside else .directory []
    (path.splitOn "/").foldlM (fun place part => tree.step part place) start

/-- Read a file. -/
def read (tree : FileTree) (path : String) : Except SystemError ByteArray :=
  match tree.locate path with
  | .ok (.file content) => .ok content
  | .ok _ => .error .isDirectory
  | .error e => .error e

/-- Why a command cannot be started. One without a slash is looked up in the directories of the
system, which hold no program. -/
def refusal (tree : FileTree) (command : String) : SystemError :=
  if command.isEmpty then .notFound
  else
    match tree.locate (if command.toList.contains '/' then command else "/" ++ command) with
    | .ok _ => .permissionDenied
    | .error e => e

end FileTree

end ContractFuzz.Sandbox
