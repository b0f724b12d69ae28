import DocumentMapper.Association
import DocumentMapper.Config.Path

/-
  The files that a process can reach from its working
  directory.

  Paths are walked component by component: an empty component
  and `.` stay in a directory, `..` leads to its parent. A
  zero byte ends a path. Of the directories around the
  working directory nothing is known but that they exist;
  below the root there are `/dev/null` and `/tmp`.

  Key definitions include:
    * `Place`, `Place.step`
    * `FileNode`, `FileNode.descend?`, `FileNode.graft`
    * `FileTree`, `FileTree.nodeAt?`
    * `FileTree.locate?`
    * `FileTree.makeDirectories`
    * `FileTree.write`
    * `FileTree.exists?`
    * `FileTree.read`
-/

namespace DocumentMapper

------------------------------------------------------------
-- Places
------------------------------------------------------------

/- A directory whose place in the tree is known from the start. -/
inductive Origin where
  | root
  | above (levels : Nat)
  deriving DecidableEq, Repr

/- Where a path leads: the names on the way down from an origin. -/
structure Place where
  origin : Origin
  names : List Text
  deriving DecidableEq, Repr

namespace Place

/- The parent of a directory; the root is its own parent. -/
def up
    (place : Place) : Place :=
  match place.origin, place.names with
  | .root, [] => place
  | .above levels, [] => ⟨.above (levels + 1), []⟩
  | origin, names => ⟨origin, names.dropLast⟩

/- One component further from a directory. -/
def step
    (place : Place)
    (component : Text) : Place :=
  if component = [] ∨ component = Text.lit "." then
    place
  else if component = Text.lit ".." then
    place.up
  else
    { place with names := place.names ++ [component] }

/- Where the walk along a path begins. -/
def start
    (p : Path) : Place :=
  if Path.isAbsolute p then
    ⟨.root, []⟩
  else
    ⟨.above 0, []⟩

end Place

------------------------------------------------------------
-- Limits
------------------------------------------------------------

/- The greatest length of a name. -/
def nameLimit : Nat :=
  255

/- The length from which on a path leads nowhere. -/
def pathLimit : Nat :=
  4096

/- The greatest number of directories that are made for one path. -/
def makingLimit : Nat :=
  1000

/- The components of a path up to a zero byte, which ends it. -/
def Path.components
    (p : Path) : List Text :=
  Text.split 0x2F p.beforeZero

/- A path that is too long as a whole. -/
def Path.isTooLong
    (p : Path) : Bool :=
  pathLimit ≤ p.beforeZero.length

------------------------------------------------------------
-- Faults
------------------------------------------------------------

/- Why a directory cannot be made. -/
inductive DirectoryFault where
  | missing
  | notDirectory
  | alreadyFile
  | nameTooLong
  deriving DecidableEq, Repr

namespace DirectoryFault

/- The cause of a fault in words. -/
def cause : DirectoryFault → Text
  | .missing => Text.lit "No such file or directory"
  | .notDirectory => Text.lit "Not a directory"
  | .alreadyFile => Text.lit "File exists"
  | .nameTooLong => Text.lit "File name too long"

/- The wording of a fault at a path; a zero byte ends it. -/
def message
    (fault : DirectoryFault)
    (p : Path) : Text :=
  Text.beforeZero <|
    Text.lit "filesystem error: cannot create directories: " ++
      fault.cause ++ Text.lit " [" ++ p ++ Text.lit "]"

end DirectoryFault

------------------------------------------------------------
-- Nodes
------------------------------------------------------------

/- A file with its content, or a directory with its entries. -/
inductive FileNode where
  | file (content : Text)
  | directory (entries : List (Text × FileNode))
  deriving Repr, Inhabited

namespace FileNode

/- A directory without entries. -/
def empty : FileNode :=
  .directory []

/- The node is a directory. -/
def isDirectory : FileNode → Bool
  | .file _ => false
  | .directory _ => true

/- The node that names lead to. -/
def descend?
    (node : FileNode)
    (names : List Text) : Option FileNode :=
  match names with
  | [] => some node
  | name :: rest =>
      match node with
      | .file _ => none
      | .directory entries =>
          (Association.lookup? name entries).bind fun child =>
            child.descend? rest

/- Put a node where names lead to; below a file nothing changes. -/
def graft
    (node : FileNode)
    (names : List Text)
    (new : FileNode) : FileNode :=
  match names with
  | [] => new
  | name :: rest =>
      match node with
      | .file _ => node
      | .directory entries =>
          let child :=
            (Association.lookup? name entries).getD empty
          .directory
            (Association.assign name (child.graft rest new)
              entries)

/- What is known below the root of every system. -/
def systemRoot : FileNode :=
  .directory
    [(Text.lit "dev",
      .directory [(Text.lit "null", .file [])]),
     (Text.lit "tmp", empty)]

end FileNode

------------------------------------------------------------
-- Trees
------------------------------------------------------------

/- The directories that paths start from; one that is not listed is empty. -/
structure FileTree where
  origins : List (Origin × FileNode) :=
    [(.root, FileNode.systemRoot)]
  deriving Repr

namespace FileTree

/- The directory of an origin. -/
def originNode
    (tree : FileTree)
    (origin : Origin) : FileNode :=
  (Association.lookup? origin tree.origins).getD .empty

/- What stands at a place. -/
def nodeAt?
    (tree : FileTree)
    (place : Place) : Option FileNode :=
  (tree.originNode place.origin).descend? place.names

/- There is a directory at a place. -/
def hasDirectory
    (tree : FileTree)
    (place : Place) : Bool :=
  (tree.nodeAt? place).any FileNode.isDirectory

/- The tree with another node at a place. -/
def insert
    (tree : FileTree)
    (place : Place)
    (node : FileNode) : FileTree :=
  { tree with
    origins :=
      Association.assign place.origin
        ((tree.originNode place.origin).graft place.names node)
        tree.origins }

/-
  Follow components to a place, whether or not something
  stands there; only from a directory does a path go on.
-/
def follow?
    (tree : FileTree)
    (place : Place)
    (components : List Text) : Option Place :=
  match components with
  | [] => some place
  | c :: rest =>
      if nameLimit < c.length ∨ ¬tree.hasDirectory place then
        none
      else
        tree.follow? (place.step c) rest

/- The place of a path; an empty path leads nowhere. -/
def locate?
    (tree : FileTree)
    (p : Path) : Option Place :=
  if p.beforeZero = [] ∨ Path.isTooLong p then
    none
  else
    tree.follow? (Place.start p) (Path.components p)

------------------------------------------------------------
-- Making Directories
------------------------------------------------------------

/- A component that is a name and does not stay or go up. -/
def isName
    (component : Text) : Bool :=
  component ≠ [] ∧ component ≠ Text.lit "." ∧
    component ≠ Text.lit ".."

/- More names than directories are made for one path. -/
def tooMany
    (components : List Text) : Bool :=
  makingLimit < components.countP isName

/- Nothing behind a component is reached, as it has a zero byte. -/
def endsPath
    (component : Text) : Bool :=
  0 ∈ component

/-
  Make one directory after the other along components. What
  already is a directory is passed through.
-/
def makeEach
    (tree : FileTree)
    (place : Place)
    (components : List Text) :
    Except DirectoryFault FileTree :=
  match components with
  | [] => .ok tree
  | c :: rest =>
      let name := c.beforeZero
      let next := place.step name
      if nameLimit < name.length then
        .error .nameTooLong
      else
        match tree.nodeAt? next with
        | some (.file _) => .error .alreadyFile
        | some (.directory _) =>
            if endsPath c then .ok tree
            else tree.makeEach next rest
        | none =>
            let tree := tree.insert next .empty
            if endsPath c then .ok tree
            else tree.makeEach next rest

/-
  Make the directories that are missing along components.
  Where the first one is missing, the rest is made one by one;
  a file in a part of the path that exists is no directory.
-/
def makeMissing
    (tree : FileTree)
    (place : Place)
    (components : List Text) :
    Except DirectoryFault FileTree :=
  match components with
  | [] => .ok tree
  | c :: rest =>
      let name := c.beforeZero
      let next := place.step name
      if nameLimit < name.length then
        .error .nameTooLong
      else
        match tree.nodeAt? next with
        | some (.directory _) =>
            if endsPath c then .ok tree
            else tree.makeMissing next rest
        | some (.file _) =>
            if ¬endsPath c ∧ tooMany rest then
              .error .nameTooLong
            else
              .error .notDirectory
        | none =>
            if tooMany components then
              .error .nameTooLong
            else
              tree.makeEach place components

/- Make a directory and those on the way to it. -/
def makeDirectories
    (tree : FileTree)
    (p : Path) : Except DirectoryFault FileTree :=
  let components := Text.split 0x2F p
  if Path.isTooLong p then
    .error .nameTooLong
  else if p.beforeZero = [] then
    .error
      (if tooMany components then .nameTooLong else .missing)
  else
    tree.makeMissing (Place.start p) components

------------------------------------------------------------
-- Writing
------------------------------------------------------------

/-
  Put a file at a path. A later file takes the place of an
  earlier one; where no file can be, nothing happens.
-/
def put
    (tree : FileTree)
    (p : Path)
    (content : Text) : FileTree :=
  match tree.locate? p with
  | some place =>
      if tree.hasDirectory place then
        tree
      else
        tree.insert place (.file content)
  | none => tree

/-
  Write a file to a path, in a directory that is made if it is
  missing. The message says why it cannot be made.
-/
def write
    (tree : FileTree)
    (p : Path)
    (content : Text) : Except Text FileTree :=
  let parent := Path.parent p
  if parent = [] then
    .ok (tree.put p content)
  else
    match tree.makeDirectories parent with
    | .ok tree => .ok (tree.put p content)
    | .error fault => .error (fault.message parent)

/- The tree with the given files, written one after the other. -/
def ofList
    (files : List (Path × Text)) : Except Text FileTree :=
  files.foldlM
    (fun tree (path, content) => tree.write path content)
    {}

------------------------------------------------------------
-- Reading
------------------------------------------------------------

/- What a path leads to. -/
def resolve?
    (tree : FileTree)
    (p : Path) : Option FileNode :=
  (tree.locate? p).bind tree.nodeAt?

/- There is something at the path. -/
def exists?
    (tree : FileTree)
    (p : Path) : Bool :=
  (tree.resolve? p).isSome

/- The content of the file at a path; anything else reads as empty. -/
def read
    (tree : FileTree)
    (p : Path) : Text :=
  match tree.resolve? p with
  | some (.file content) => content
  | _ => []

end FileTree

end DocumentMapper
