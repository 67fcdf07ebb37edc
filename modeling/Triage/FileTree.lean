import Triage.OsError
import Triage.Path
import Triage.Text.Utf8

/-!
A tree of files, directories and symbolic links.  A directory is known by its location, the names
that lead to it from the root without any link.
-/

namespace Triage

abbrev Location := List String

inductive Device
  /-- Takes everything and holds nothing. -/
  | null
  /-- Has no room. -/
  | full
  deriving DecidableEq, Repr

inductive Tool
  | shell
  | cat
  | sleep
  | rm
  | tail
  | printf
  | echo
  | true
  | false
  deriving DecidableEq, Repr

inductive Entry
  | file (content : Bytes)
  | dir
  | link (target : String)
  | device (d : Device)
  | program (t : Tool)
  deriving DecidableEq, Repr

def Entry.isFile : Entry → Bool
  | file _ | program _ => true
  | _ => false

structure FileTree where
  entries : List (Location × Entry) := []
  deriving DecidableEq, Repr

/-- Where a path leads: to an entry, or to a name that its directory does not have. -/
inductive Place
  | found (at_ : Location) (e : Entry)
  | vacant (at_ : Location)
  deriving DecidableEq, Repr

namespace FileTree

def get? (t : FileTree) (l : Location) : Option Entry :=
  if l = [] then some .dir else t.entries.lookup l

def set (t : FileTree) (l : Location) (e : Entry) : FileTree :=
  ⟨(l, e) :: t.entries.filter (·.1 ≠ l)⟩

/-- Without `l` and all that lies below it. -/
def erase (t : FileTree) (l : Location) : FileTree :=
  ⟨t.entries.filter fun (k, _) => !l.isPrefixOf k⟩

def names (t : FileTree) (l : Location) : List String :=
  t.entries.filterMap fun (k, _) =>
    match k.getLast? with
    | some name => if k.dropLast = l then some name else none
    | none => none

/-- The longest name and the longest path, in bytes. -/
def nameLimit : Nat := 255

def pathLimit : Nat := 4096

def linkLimit : Nat := 40

/-- The parts of a path; a slash at the end asks for a directory, as a dot would. -/
def parts (path : String) : List String :=
  let parts := (Text.splitAt '/' path.toList).filter (!·.isEmpty)
  parts.map String.ofList ++ if path.toList.getLast? = some '/' then ["."] else []

/-- Goes from the directory `l` through `parts`.  A link in front of the last part is always
followed, and a link at the end only if `follow`; `onLink` goes on from there. -/
def walkParts (t : FileTree) (follow : Bool)
    (onLink : Location → List String → Except OsError Place) (l : Location) :
    List String → Except OsError Place
  | [] => .ok (.found l .dir)
  | part :: rest =>
    if part = "." then walkParts t follow onLink l rest
    else if part = ".." then walkParts t follow onLink l.dropLast rest
    else if nameLimit < part.utf8ByteSize then .error .nameTooLong
    else
      let l := l ++ [part]
      match t.get? l with
      | none => if rest.isEmpty then .ok (.vacant l) else .error .notFound
      | some .dir => walkParts t follow onLink l rest
      | some (.link target) =>
        if rest.isEmpty && !follow then .ok (.found l (.link target))
        else
          onLink (if Path.isAbsolute target then [] else l.dropLast) (parts target ++ rest)
      | some e => if rest.isEmpty then .ok (.found l e) else .error .notDirectory

def walk (t : FileTree) (follow : Bool) : (links : Nat) → Location → List String →
    Except OsError Place
  | 0 => walkParts t follow fun _ _ => .error .tooManyLinks
  | links + 1 => walkParts t follow (walk t follow links)

def resolve (t : FileTree) (here : Location) (path : String) (follow : Bool := true) :
    Except OsError Place :=
  if path.toList.contains '\x00' then .error .nulInName
  else if path.isEmpty then .error .notFound
  else if pathLimit ≤ path.utf8ByteSize then .error .nameTooLong
  else t.walk follow linkLimit (if Path.isAbsolute path then [] else here) (parts path)

def find (t : FileTree) (here : Location) (path : String) (follow : Bool := true) :
    Except OsError (Location × Entry) :=
  match t.resolve here path follow with
  | .error e => .error e
  | .ok (.vacant _) => .error .notFound
  | .ok (.found l e) => .ok (l, e)

def dirAt? (t : FileTree) (here : Location) (path : String) : Option Location :=
  match t.find here path with
  | .ok (l, .dir) => some l
  | _ => none

def pathExists (t : FileTree) (here : Location) (path : String) : Bool :=
  (t.find here path).toBool

def isDir (t : FileTree) (here : Location) (path : String) : Bool := (t.dirAt? here path).isSome

def read (t : FileTree) (here : Location) (path : String) : Except OsError Bytes :=
  match t.find here path with
  | .error e => .error e
  | .ok (_, .file content) => .ok content
  | .ok (_, .dir) => .error .isDirectory
  | .ok _ => .ok []

inductive Target
  | file (at_ : Location)
  | device (d : Device)
  deriving DecidableEq, Repr

def dropSlashes (path : String) : String :=
  String.ofList (path.toList.reverse.dropWhile (· = '/')).reverse

def openPlace (t : FileTree) (fresh : Bool) : Place → Except OsError (Target × FileTree)
  | .vacant l => .ok (.file l, t.set l (.file []))
  | .found l (.file _) => .ok (.file l, if fresh then t.set l (.file []) else t)
  | .found _ (.device d) => .ok (.device d, t)
  | .found _ (.program _) => .error .permissionDenied
  | .found _ _ => .error .isDirectory

/-- Opens the file that `path` leads to for writing.  With a slash at its end, `path` can only be
that of a directory. -/
def openForWriting (t : FileTree) (here : Location) (path : String) (fresh : Bool) :
    Except OsError (Target × FileTree) :=
  if path.toList.getLast? = some '/' then
    let bare := dropSlashes path
    if bare.isEmpty then .error .isDirectory
    else match t.resolve here bare false with
      | .error e => .error e
      | .ok _ => .error .isDirectory
  else match t.resolve here path with
    | .error e => .error e
    | .ok place => t.openPlace fresh place

def append (t : FileTree) (target : Target) (bytes : Bytes) : Except OsError Unit × FileTree :=
  match target with
  | .device .null => (.ok (), t)
  | .device .full => (if bytes.isEmpty then .ok () else .error .noSpace, t)
  | .file l =>
    match t.get? l with
    | some (.file content) => (.ok (), t.set l (.file (content ++ bytes)))
    | _ => (.ok (), t)

def makeDirs (t : FileTree) (here : Location) : List String → FileTree
  | [] => t
  | part :: rest =>
    match t.resolve here part with
    | .ok (.found l .dir) => t.makeDirs l rest
    | .ok (.vacant l) => (t.set l .dir).makeDirs l rest
    | _ => t

/-- Puts `e` where `path` leads to from `here`, with every directory on the way. -/
def put (t : FileTree) (here : Location) (path : String) (e : Entry) : FileTree :=
  let names := parts path
  let start : Location := if Path.isAbsolute path then [] else here
  match e with
  | .dir => t.makeDirs start names
  | e =>
    let t := t.makeDirs start names.dropLast
    match t.resolve here path (match e with | .link _ => false | _ => true) with
    | .ok (.vacant l) => t.set l e
    | .ok (.found l (.file _)) => t.set l e
    | _ => t

end FileTree
end Triage
