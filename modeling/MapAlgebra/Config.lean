import MapAlgebra.Json.Decode

namespace MapAlgebra

-- Where engine libraries are looked for, how long a loop may run, and where resources are kept.
structure Config where
  libraryPaths : List String
  maxLoopIterations : Nat
  resourceDir : Option String
deriving DecidableEq, Repr

-- Why no configuration could be made.
inductive ConfigProblem where
  | unreadable
  | invalid
deriving DecidableEq, Repr

namespace Config

def usual : Config :=
  ⟨["lib/libmap.so", "../lib/libmap.so", "/usr/local/lib/libmap.so"], 1000000, none⟩

def directory? : Json → Option (Option String)
  | .null => some none
  | json => json.text?.map some

-- Every field may be left out.
def ofJson? (json : Json) : Option Config := do
  match ← json.record? ["library_paths", "max_loop_iterations", "resource_dir"] with
  | [paths, limit, dir] =>
      let paths ← match paths with
        | some json => json.listOf Json.text?
        | none => some usual.libraryPaths
      let limit ← match limit with
        | some json => json.count?
        | none => some usual.maxLoopIterations
      let dir ← match dir with
        | some json => directory? json
        | none => some usual.resourceDir
      return ⟨paths, limit, dir⟩
  | _ => none

def read (text : String) : Except MapError Config := readData ofJson? text

def dataText (config : Config) : String :=
  Json.braces
    [("library_paths", Json.list (config.libraryPaths.map Json.quote)),
     ("max_loop_iterations", toString config.maxLoopIterations),
     ("resource_dir", (config.resourceDir.map Json.quote).getD "null")]

-- The configuration that the surroundings ask for: a file, if one is named, and a library that
-- is looked for first.
def ofSurroundings (file : Option (Option String)) (library : Option String) :
    Except ConfigProblem Config := do
  let config ← match file with
    | none => .ok usual
    | some none => .error .unreadable
    | some (some text) =>
        match read text with
        | .ok config => .ok config
        | .error _ => .error .invalid
  return { config with libraryPaths := library.toList ++ config.libraryPaths }

end Config

end MapAlgebra
