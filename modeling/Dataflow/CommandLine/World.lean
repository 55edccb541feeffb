import Dataflow.CommandLine.Session
import Dataflow.Text.Words

/-! A modelled world for sessions: a tree of files below the working directory,
and the text printed so far. Paths are resolved name by name. Every name before
the last has to be a directory, a slash at the end asks for a directory too, and
nothing outside the working directory can be seen. -/
namespace Dataflow.CommandLine

inductive Entry where
  | directory
  /-- A file whose bytes are not text has no content to show. -/
  | file (content : Option String)
deriving DecidableEq

/-- Files and directories by their names from the working directory on. -/
structure FileTree where
  entries : List (List String × Entry)
deriving DecidableEq

/-- Where a path has led so far. -/
inductive Place where
  | inside (names : List String)
  | outside
deriving DecidableEq

namespace FileTree

def empty : FileTree := ⟨[]⟩

def find? (tree : FileTree) : List String → Option Entry
  | [] => some .directory
  | names => tree.entries.lookup names

def put (tree : FileTree) (names : List String) (entry : Entry) : FileTree :=
  ⟨(names, entry) :: tree.entries.filter (·.1 != names)⟩

/-- Add an entry and all directories on the way to it. -/
def add (tree : FileTree) (names : List String) (entry : Entry) : FileTree :=
  let parents := (List.range names.length).map names.take
  (parents.foldl (fun tree names => if names.isEmpty then tree else tree.put names .directory)
    tree).put names entry

/-- Follow one name from a place. -/
def follow (tree : FileTree) (place : Place) (name : String) : Except FileError Place :=
  match place with
  | .outside => if name = "." ∨ name = ".." then .ok .outside else .error .notFound
  | .inside names =>
    match tree.find? names with
    | none => .error .notFound
    | some (.file _) => .error .notDirectory
    | some .directory =>
      if name = "." then .ok place
      else if name = ".." then
        if names.isEmpty then .ok .outside else .ok (.inside names.dropLast)
      else if (tree.find? (names ++ [name])).isSome then .ok (.inside (names ++ [name]))
      else .error .notFound

/-- The names on a path. A missing name means the directory itself. -/
def names (path : String) : List String :=
  (path.toList.splitOn '/').map fun name =>
    if name.isEmpty then "." else .ofList name

/-- A path that starts with a slash starts outside. -/
def origin (path : String) : Place :=
  match path.toList with
  | '/' :: _ => .outside
  | _ => .inside []

def read (tree : FileTree) (path : String) : Except FileError String :=
  if path.isEmpty then .error .notFound
  else
    match (names path).foldlM tree.follow (origin path) with
    | .error error => .error error
    | .ok .outside => .error .isDirectory
    | .ok (.inside names) =>
      match tree.find? names with
      | none => .error .notFound
      | some .directory => .error .isDirectory
      | some (.file none) => .error .notText
      | some (.file (some content)) => .ok content

/-- Write a file under a name in a place. -/
def writeAt (tree : FileTree) (place : Place) (name text : String) : Except FileError FileTree :=
  match place with
  | .outside => .error .notFound
  | .inside names =>
    match tree.find? names with
    | some .directory =>
      match tree.find? (names ++ [name]) with
      | some .directory => .error .isDirectory
      | _ => .ok (tree.put (names ++ [name]) (.file (some text)))
    | some (.file _) => .error .notDirectory
    | none => .error .notFound

/-- Write a file, replacing the one that is there. Its directory has to exist. -/
def write (tree : FileTree) (path text : String) : Except FileError FileTree :=
  if path.isEmpty then .error .notFound
  else
    let slashed := path.toList.getLast? == some '/'
    let all := (path.toList.splitOn '/').filter (!·.isEmpty) |>.map String.ofList
    match all.getLast? with
    | none => .error .isDirectory
    | some name =>
      match all.dropLast.foldlM tree.follow (origin path) with
      | .error error => .error error
      | .ok place =>
        if name = "." ∨ name = ".." then
          match tree.follow place name with
          | .error error => .error error
          | .ok _ => .error .isDirectory
        else if slashed then
          match tree.follow place "." with
          | .error error => .error error
          | .ok _ => .error .isDirectory
        else tree.writeAt place name text

end FileTree

structure World where
  files : FileTree
  out : String
  err : String
deriving DecidableEq

namespace World

/-- A world in which nothing has been printed. -/
def ofFiles (files : FileTree) : World := ⟨files, "", ""⟩

def print (world : World) (stream : Stream) (text : String) : World :=
  match stream with
  | .out => { world with out := world.out ++ text }
  | .err => { world with err := world.err ++ text }

/-- Let a session run its course. -/
def perform : Session α → World → α × World
  | .done result, world => (result, world)
  | .print stream text next, world => perform (next ()) (world.print stream text)
  | .read path next, world => perform (next (world.files.read path)) world
  | .write path text next, world =>
    match world.files.write path text with
    | .ok files => perform (next (.ok ())) { world with files := files }
    | .error error => perform (next (.error error)) world

end World

end Dataflow.CommandLine
