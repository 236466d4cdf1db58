import MapAlgebra.Json.Decode

namespace MapAlgebra.Graph

-- The files of a directory by name. A name with a separator or a nul leads nowhere, and so does
-- one that is too long.
structure Directory where
  files : List (String × String)
deriving Repr

namespace Directory

def fileName (resource : String) : String := resource ++ ".json"

def isUsable (resource : String) : Bool :=
  resource.toList.all (fun c => c ≠ '/' ∧ c.toNat ≠ 0) && (fileName resource).utf8ByteSize ≤ 255

def file? (directory : Directory) (resource : String) : Option String :=
  if isUsable resource then directory.files.lookup (fileName resource) else none

def put (directory : Directory) (resource text : String) : Directory :=
  ⟨(fileName resource, text) :: directory.files.filter (·.1 ≠ fileName resource)⟩

end Directory

-- Named grids. A directory, if there is one, keeps them beyond the life of the graph.
structure Store where
  grids : List (String × Grid)
  locked : List String
  directory : Option Directory

-- How a write ended.
inductive WriteStatus where
  | done
  | locked
  | unwritable
deriving DecidableEq, Repr

def WriteStatus.code : WriteStatus → Int
  | done => 0
  | locked => 1
  | unwritable => 2

namespace Store

def empty (directory : Option Directory) : Store := ⟨[], [], directory⟩

def get? (store : Store) (name : String) : Option Grid := store.grids.lookup name

def insert (store : Store) (name : String) (grid : Grid) : Store :=
  { store with grids := (name, grid) :: store.grids.filter (·.1 ≠ name) }

-- Later writes to the name are refused.
def lock (store : Store) (name : String) : Store :=
  { store with locked := if name ∈ store.locked then store.locked else name :: store.locked }

-- A grid in memory comes before a file.
def load (store : Store) (name : String) : Except MapError Grid :=
  match store.get? name with
  | some grid => .ok grid
  | none =>
      match store.directory.bind (·.file? name) with
      | some text => readData Grid.ofJson? text
      | none => .error (.engine (.unknownResource name))

def save (store : Store) (name : String) (grid : Grid) : WriteStatus × Store :=
  if name ∈ store.locked then (.locked, store)
  else
    match store.directory with
    | none => (.done, store.insert name grid)
    | some directory =>
        if Directory.isUsable name then
          (.done, { store.insert name grid with
            directory := some (directory.put name grid.dataText) })
        else (.unwritable, store)

end Store

end MapAlgebra.Graph
