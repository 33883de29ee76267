import AccountView.Storage

namespace AccountView

/-! Trees of files, and the walk along a path that finds a file in one. -/

inductive FileTree where
  | file (contents : ByteArray)
  | directory (entries : List (String × FileTree))
  /-- Another name of what lies under these names, from the root on, none of them a link. -/
  | link (target : List String)

namespace FileTree

def child? (tree : FileTree) (name : String) : Option FileTree :=
  match tree with
  | directory entries => entries.lookup name
  | file _ | link _ => none

/-- A point of a tree: what stands there, and the directories above it, the nearest first. -/
structure Place where
  node : FileTree
  above : List FileTree

namespace Place

def top (place : Place) : Place := ⟨place.above.getLastD place.node, []⟩

/-- The directory above. The root is above itself. -/
def parent (place : Place) : Place :=
  match place.above with
  | [] => place
  | node :: above => ⟨node, above⟩

def below (place : Place) (node : FileTree) : Place := ⟨node, place.node :: place.above⟩

def descend? (place : Place) : List String → Option Place
  | [] => some place
  | name :: names =>
    match place.node.child? name with
    | none | some (.link _) => none
    | some node => (place.below node).descend? names

/-- The place of an entry. A link stands for the place that it leads to. -/
def entry? (place : Place) (name : String) : Option Place :=
  match place.node.child? name with
  | none => none
  | some (.link target) => place.top.descend? target
  | some node => some (place.below node)

def maxNameBytes : Nat := 255

def maxPathBytes : Nat := 4095

/-- One step of a walk. Only a directory can be left, by an empty component as well. -/
def enter (place : Place) (component : String) : Except SystemError Place :=
  match place.node with
  | .file _ | .link _ => .error .notDirectory
  | .directory _ =>
    if component = "" ∨ component = "." then .ok place
    else if component = ".." then .ok place.parent
    else if maxNameBytes < component.utf8ByteSize then .error .nameTooLong
    else
      match place.entry? component with
      | some entry => .ok entry
      | none => .error .notFound

/-- The place that a path leads to, which starts at the root or here. -/
def walk (place : Place) (path : String) : Except SystemError Place :=
  let start := if path.startsWith "/" then place.top else place
  (path.splitOn "/").foldlM enter start

def find (place : Place) (path : String) : Except SystemError ByteArray := do
  if path = "" then throw .notFound
  if maxPathBytes < path.utf8ByteSize then throw .nameTooLong
  match (← place.walk path).node with
  | .file contents => pure contents
  | .directory _ => throw .isDirectory
  | .link _ => throw .notFound

def read (place : Place) : Storage := fun path =>
  if path.contains '\x00' then .error .nulInPath else (place.find path).mapError .system

end Place

end FileTree

end AccountView
