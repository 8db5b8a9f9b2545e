/-
A tree of files.

A path is the list of names that lead to it from the root.  Names are followed one after the
other, and whatever has a name after it has to be a directory.
-/
import DeviceConfig.Shell.Files

namespace DeviceConfig

/-- What a path can lead to. -/
inductive FileTree.Item where
  | file (mode : Mode) (text : String)
  | directory (mode : Mode)
  deriving DecidableEq, Repr

/-- A tree, and the directory from which relative paths start. -/
structure FileTree where
  items : List (List String × FileTree.Item) := []
  here : List String := []

namespace FileTree

/-- What is at a path.  The root is always there. -/
def item? (t : FileTree) (path : List String) : Option Item :=
  if path.isEmpty then some (.directory 0o755) else t.items.lookup path

/-- The items with one of them put at a path. -/
def putItem (path : List String) (item : Item) :
    List (List String × Item) → List (List String × Item)
  | [] => [(path, item)]
  | (p, i) :: rest => if p = path then (path, item) :: rest else (p, i) :: putItem path item rest

/-- The tree with an item put at a path. -/
def put (path : List String) (item : Item) (t : FileTree) : FileTree :=
  { t with items := putItem path item t.items }

/-! ### Following a path -/

/-- The most bytes that a name may have. -/
def maxName : Nat := 255

/-- The bytes that are too many for a path. -/
def maxPath : Nat := 4096

/-- Follows a name from a place that has to be a directory. -/
def enter (t : FileTree) (place : List String) (name : String) :
    Except FileError (List String) :=
  match t.item? place with
  | none => .error .notFound
  | some (.file ..) => .error .notADirectory
  | some (.directory _) =>
    if name = "" ∨ name = "." then .ok place
    else if name = ".." then .ok place.dropLast
    else if maxName < name.utf8ByteSize then .error .nameTooLong
    else .ok (place ++ [name])

/-- Where a path starts. -/
def start (t : FileTree) (path : String) : List String :=
  if path.startsWith "/" then [] else t.here

/-- Refuses what cannot be a path. -/
def checkPath (path : String) : Except FileError Unit :=
  if path.contains '\x00' then .error .nulInName
  else if path.isEmpty then .error .notFound
  else if maxPath ≤ path.utf8ByteSize then .error .nameTooLong
  else .ok ()

/-- The place that a path leads to, at which there may be nothing. -/
def locate (t : FileTree) (path : String) : Except FileError (List String) := do
  checkPath path
  (path.splitOn "/").foldlM t.enter (t.start path)

/-! ### Doing things -/

/-- The text of a file. -/
def textAt (t : FileTree) (path : String) : Except FileError String := do
  match t.item? (← t.locate path) with
  | none => .error .notFound
  | some (.directory _) => .error .isADirectory
  | some (.file _ text) => .ok text

/-- There is a file or a directory. -/
def isPresent (t : FileTree) (path : String) : Bool :=
  match t.locate path with
  | .ok place => (t.item? place).isSome
  | .error _ => false

/-- The mode of what a path leads to. -/
def modeAt? (t : FileTree) (path : String) : Option Mode :=
  match t.locate path with
  | .error _ => none
  | .ok place => (t.item? place).map fun item => match item with
    | .file mode _ => mode
    | .directory mode => mode

/-- The mode of something new: others than its owner may not write to it. -/
def newMode (mode : Mode) : Mode := mode &&& 0o755

/-- The tree with a text at a path.  A path that ends in a slash can only be a directory. -/
def withText (path : String) (mode : Mode) (text : String) (t : FileTree) :
    Except FileError FileTree := do
  checkPath path
  let names := (path.splitOn "/").filter (· ≠ "")
  let place ← names.foldlM t.enter (t.start path)
  if path.endsWith "/" then .error .isADirectory
  match t.item? place with
  | some (.directory _) => .error .isADirectory
  | some (.file mode _) => .ok (t.put place (.file mode text))
  | none => .ok (t.put place (.file (newMode mode) text))

/-- The tree with all directories along some names. -/
def withDirectories : List String → List String → FileTree → Except FileError FileTree
  | [], _, t => .ok t
  | name :: names, place, t => do
    let place ← t.enter place name
    match t.item? place with
    | some (.directory _) => withDirectories names place t
    | some (.file ..) => .error (if names.isEmpty then .alreadyExists else .notADirectory)
    | none => withDirectories names place (t.put place (.directory (newMode 0o777)))

/-- The tree with another mode at a path. -/
def withMode (path : String) (mode : Mode) (t : FileTree) : Except FileError FileTree := do
  let place ← t.locate path
  match t.item? place with
  | none => .error .notFound
  | some (.directory _) => .ok (t.put place (.directory mode))
  | some (.file _ text) => .ok (t.put place (.file mode text))

/-- A change that may be refused, which leaves the tree as it was. -/
def attempt (t : FileTree) : Except FileError FileTree → Except FileError Unit × FileTree
  | .ok changed => (.ok (), changed)
  | .error e => (.error e, t)

instance : FileStore FileTree where
  present path t := (t.isPresent path, t)
  read path t := (t.textAt path, t)
  makeDirectory path t := t.attempt do
    checkPath path
    withDirectories (path.splitOn "/") (t.start path) t
  setMode path mode t := t.attempt (t.withMode path mode)
  write path mode text t := t.attempt (t.withText path mode text)

end FileTree

end DeviceConfig
