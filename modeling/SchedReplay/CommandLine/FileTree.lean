import SchedReplay.CommandLine.File

/-! Files and folders in memory, and reading a file there by its path. A path is walked name by name
and refused at the first step that fails. -/
namespace SchedReplay

inductive FileTree where
  | file (content : List UInt8)
  | folder (entries : List (String × FileTree))

namespace FileTree

/-- What lies directly in a tree; nothing lies in a file. -/
def entries : FileTree → List (String × FileTree)
  | .file _ => []
  | .folder entries => entries

/-- Puts a file behind a list of names, with the folders that lead to it. -/
def insert (content : List UInt8) : List String → FileTree → FileTree
  | [], _ => .file content
  | name :: names, tree =>
    let inner := (tree.entries.lookup name).getD (.folder [])
    .folder ((name, insert content names inner) :: tree.entries.filter (·.1 != name))

/-- Splits a path at each slash; slashes at the ends or side by side leave nothing between them. -/
def splitSlashes : List Char → List (List Char)
  | [] => [[]]
  | c :: path =>
    if c = '/' then [] :: splitSlashes path
    else
      match splitSlashes path with
      | [] => [[c]]
      | name :: more => (c :: name) :: more

def names (path : String) : List String := (splitSlashes path.toList).map String.ofList

/-- The longest name of a file, in bytes. -/
def longestName : Nat := 255

/-- The longest path, in bytes. -/
def longestPath : Nat := 4095

/-- A place in a tree: what is there, and the folders around it from the inside out. -/
structure Place where
  here : FileTree
  around : List FileTree

namespace Place

/-- The folder around a place; the outermost folder is around itself. -/
def up : Place → Place
  | ⟨here, []⟩ => ⟨here, []⟩
  | ⟨_, outer :: around⟩ => ⟨outer, around⟩

def root (place : Place) : Place := ⟨place.around.getLast?.getD place.here, []⟩

/-- One name leads from a folder to a place in it. No name leads on from a file, not even an empty
one. -/
def step (place : Place) (name : String) : Except FileContent Place :=
  match place.here with
  | .file _ => .error .obstructed
  | .folder entries =>
    if name = "" ∨ name = "." then .ok place
    else if name = ".." then .ok place.up
    else if longestName < name.utf8ByteSize then .error .overlong
    else
      match entries.lookup name with
      | none => .error .missing
      | some inner => .ok ⟨inner, place.here :: place.around⟩

def content (place : Place) : FileContent :=
  match place.here with
  | .file content => .bytes content
  | .folder _ => .directory

/-- What is read behind a path: from here, or from the root if it starts with a slash. -/
def read (place : Place) (path : String) : FileContent :=
  if path = "" then .missing
  else if longestPath < path.utf8ByteSize then .overlong
  else
    let start := if path.toList.head? = some '/' then place.root else place
    match (names path).foldlM step start with
    | .error refusal => refusal
    | .ok place => place.content

end Place

example : splitSlashes ['a', '/', '/', 'b', '/'] = [['a'], [], ['b'], []] := by decide

end FileTree

end SchedReplay
