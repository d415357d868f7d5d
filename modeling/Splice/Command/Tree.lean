/-
**File trees.**

A tree holds folders and files under paths, which are rows of file names. A path is named by a text
whose parts stand between slashes; it is looked up part by part, so every part but the last must be
a folder.

* `PathName.ofText`, `PathName.shown`: a path name read and shown; empty parts and single full stops
  vanish;
* `Tree.leadsSomewhere`: whether a path leads to something;
* `Tree.readFile`, `Tree.writeFile`: the octets of a file, and the tree with a file written;
* `FileFault`: why a file cannot be opened.
-/

import Splice.Command.FileName

namespace Splice

/-- The name of a path: how it is rooted, and its parts. -/
structure PathName where
  root : Text
  parts : List Text
  deriving DecidableEq

namespace PathName

/-- The parts between slashes. -/
def splitSlashes : Text → List Text
  | [] => [[]]
  | point :: rest =>
    if point = .scalar '/' then [] :: splitSlashes rest
    else match splitSlashes rest with
      | [] => [[point]]
      | part :: parts => (point :: part) :: parts

/-- The path name that a text spells. Two slashes in front, and not three, are a root of
their own. -/
def ofText (text : Text) : PathName :=
  let slashes := (text.takeWhile (· = .scalar '/')).length
  { root :=
      if slashes = 0 then [] else if slashes = 2 then Text.ofString "//" else Text.ofString "/"
    parts := (splitSlashes text).filter fun part => !part.isEmpty && part ≠ [.scalar '.'] }

/-- A path name as a text; one without parts is a full stop. -/
def shown (name : PathName) : Text :=
  if name.root.isEmpty && name.parts.isEmpty then [.scalar '.']
  else name.root ++ Text.joined [.scalar '/'] name.parts

end PathName

/-- Why a file cannot be opened: a fault of its path, or of its name. -/
inductive FileFault where
  | absent
  | isFolder
  | notFolder
  | longName
  | nul
  | surrogate (fault : Charset.Fault)
  deriving DecidableEq

namespace FileFault

/-- The text of a fault. -/
def message (fault : FileFault) (name : PathName) : Text :=
  let numbered (code words : String) : Text :=
    Text.concat ["[Errno ", code, "] ", words, ": ", name.shown.quoted]
  match fault with
  | .absent => numbered "2" "No such file or directory"
  | .notFolder => numbered "20" "Not a directory"
  | .isFolder => numbered "21" "Is a directory"
  | .longName => numbered "36" "File name too long"
  | .nul => "embedded null byte"
  | .surrogate fault => fault.message

/-- Whether the fault lies in the name and not in the tree. -/
def ofName : FileFault → Bool
  | .nul | .surrogate _ => true
  | _ => false

end FileFault

/-- What stands at a path. -/
inductive Node where
  | folder
  | file (octets : Bytes)
  deriving DecidableEq

/-- A path from the folder where a tree begins, or from the root, whose name is a slash. -/
abbrev Path := List FileName

/-- What stands where: the nodes of a tree by their paths. -/
abbrev Tree := List (Path × Node)

namespace Tree

/-- A single slash: the root. -/
def root : FileName := [.ofNat '/'.toNat]

/-- Two full stops: the folder above. -/
def above : FileName := [.ofNat '.'.toNat, .ofNat '.'.toNat]

/-- The file names in a path name; a part that names no octets counts as empty. -/
def fileNames (name : PathName) : List FileName :=
  name.parts.map fun part => (FileName.ofText part).toOption.getD []

/-- Where the way of a path name begins: the root, or the folder where a tree begins. -/
def base (name : PathName) : Path := if name.root.isEmpty then [] else [root]

/-- The path of a name that never leads back up. -/
def pathOf (name : PathName) : Path := base name ++ fileNames name

/-- A text that names a path. -/
def shownPath (path : Path) : Text :=
  match path with
  | [] => [.scalar '.']
  | first :: rest =>
    if first = root then .scalar '/' :: Text.joined [.scalar '/'] (rest.map FileName.shown)
    else Text.joined [.scalar '/'] (path.map FileName.shown)

/-- What stands at a path. The folder where the tree begins, those above it and those on the way to
something are folders. -/
def node? (tree : Tree) (path : Path) : Option Node :=
  match tree.lookup path with
  | some node => some node
  | none =>
    if path = [root] ∨ path.all (· = above) ∨ tree.any (path.isPrefixOf ·.1) then
      some .folder
    else none

/-- The path of the folder above. -/
def parent (path : Path) : Path :=
  if path.all (· = above) then path ++ [above]
  else if path = [root] then path
  else path.dropLast

/-- The longest name that a part may have, in octets. -/
def nameLimit : Nat := 255

/-- The path that file names lead to, one after another, from a folder. -/
def walk (tree : Tree) (here : Path) : List FileName → Except FileFault Path
  | [] => .ok here
  | part :: rest =>
    match tree.node? here with
    | none => .error .absent
    | some (.file _) => .error .notFolder
    | some .folder =>
      if nameLimit < part.length then .error .longName
      else if part = above then walk tree (parent here) rest
      else walk tree (here ++ [part]) rest

/-- The longest path, in octets. -/
def pathLimit : Nat := 4096

/-- The path that a name leads to. -/
def locate (tree : Tree) (name : PathName) : Except FileFault Path :=
  match FileName.ofText name.shown with
  | .error fault => .error (.surrogate fault)
  | .ok octets =>
    if octets.contains 0 then .error .nul
    else if pathLimit ≤ octets.length then .error .longName
    else walk tree (base name) (fileNames name)

/-- Whether a name leads to something. A name that no path can have leads nowhere; one that is too
long cannot be looked up. -/
def leadsSomewhere (tree : Tree) (name : PathName) : Except FileFault Bool :=
  match tree.locate name with
  | .ok path => .ok (tree.node? path).isSome
  | .error .longName => .error .longName
  | .error _ => .ok false

/-- The octets of a file. -/
def readFile (tree : Tree) (name : PathName) : Except FileFault Bytes :=
  match tree.locate name with
  | .error fault => .error fault
  | .ok path =>
    match tree.node? path with
    | none => .error .absent
    | some .folder => .error .isFolder
    | some (.file octets) => .ok octets

/-- The tree with a node at a path. -/
def put (tree : Tree) (path : Path) (node : Node) : Tree :=
  match tree with
  | [] => [(path, node)]
  | (other, old) :: rest =>
    if other = path then (path, node) :: rest else (other, old) :: put rest path node

/-- The tree with a file written, in place of the one that is there or as a new one. -/
def writeFile (tree : Tree) (name : PathName) (octets : Bytes) : Except FileFault Tree :=
  match tree.locate name with
  | .error fault => .error fault
  | .ok path =>
    match tree.node? path with
    | some .folder => .error .isFolder
    | _ => .ok (tree.put path (.file octets))

end Tree

end Splice
