import ViewSchema.Config.Load

/-! Files held in memory under relative paths, read the way a directory tree is: by steps, of which `.`
stays, `..` goes up, and any other goes into a directory. -/

namespace ViewSchema.CommandLine

/-- What is kept under a path. -/
inductive Entry where
  | file (content : ByteArray)
  | directory

/-- Files by their paths, each path as its steps from the top. -/
structure FileSet where
  entries : List (List String × Entry)

namespace FileSet

/-- The steps of a path, empty ones left out. -/
def steps (path : String) : List String := (Text.cutAt (· == '/') path).filter (!·.isEmpty)

def ofList (files : List (String × Entry)) : FileSet :=
  ⟨files.map fun (path, entry) => (steps path, entry)⟩

/-- What is kept at a place. A place on the way to a file is a directory. -/
def entry? (files : FileSet) (place : List String) : Option Entry :=
  match files.entries.lookup place with
  | some entry => some entry
  | none =>
    if place.isEmpty || files.entries.any (fun (path, _) => place.isPrefixOf path) then some .directory
    else none

/-- The place that steps lead to from another place. -/
def walk (files : FileSet) (place : List String) : List String → Except ReadFailure (List String)
  | [] => .ok place
  | step :: rest =>
    match files.entry? place with
    | none => .error .notFound
    | some (.file _) => .error (.other "Not a directory (os error 20)")
    | some .directory =>
      if step == "." || step.isEmpty then files.walk place rest
      else if step == ".." then
        if place.isEmpty then .error .notFound else files.walk place.dropLast rest
      else
        match files.entry? (place ++ [step]) with
        | none => .error .notFound
        | some _ => files.walk (place ++ [step]) rest

/-- The text of the file at a path. A path that starts at the root of the system leads nowhere. -/
def read (files : FileSet) : FileReader := fun path =>
  if path.isEmpty || path.toList.head? == some '/' then .error .notFound
  else do
    let place ← files.walk [] (Text.cutAt (· == '/') path)
    match files.entry? place with
    | some (.file content) => decodeText content
    | some .directory => .error (.other "Is a directory (os error 21)")
    | none => .error .notFound

end FileSet

end ViewSchema.CommandLine
