import PrattFrontEnd.Text.Quoted

/-!
Where sources are read from and outputs are written to: any disk, described by what it answers, any
storage, described by its disks and by what writing does to it, and a small tree of files in memory.
-/
namespace PrattFrontEnd.CommandLine

inductive AccessFault where
  | notFound | notFolder | isFolder | denied | nameTooLong | badName
  deriving DecidableEq, Repr

def AccessFault.message (path : String) : AccessFault → String
  | notFound => "[Errno 2] No such file or directory: " ++ Text.quoted path
  | denied => "[Errno 13] Permission denied: " ++ Text.quoted path
  | notFolder => "[Errno 20] Not a directory: " ++ Text.quoted path
  | isFolder => "[Errno 21] Is a directory: " ++ Text.quoted path
  | nameTooLong => "[Errno 36] File name too long: " ++ Text.quoted path
  | badName => "embedded null byte"

/-- A disk as far as the command needs it: the bytes of a file, and what would go wrong if a file
were opened for writing. -/
structure Disk where
  read : String → Except AccessFault (List UInt8)
  obstacle : String → Option AccessFault

/-- Where files are kept: the disk that is seen in a state, and the state after bytes have been written
under a name. -/
structure Storage (σ : Type) where
  disk : σ → Disk
  write : σ → String → List UInt8 → σ

def Storage.Keeps {σ : Type} (storage : Storage σ) (s : σ) (name : String) : Prop :=
  ∀ bytes, (storage.disk (storage.write s name bytes)).read name = .ok bytes

/-- Files and empty folders in memory, by their paths from the top without a leading slash. -/
structure FileTree where
  files : List (String × List UInt8)
  folders : List String

namespace FileTree

def path (steps : List String) : String := "/".intercalate steps

def isFile (t : FileTree) (steps : List String) : Bool := (t.files.lookup (path steps)).isSome

def isFolder (t : FileTree) (steps : List String) : Bool :=
  steps = [] || t.folders.contains (path steps) ||
    (t.folders ++ t.files.map (·.1)).any fun p =>
      (path steps ++ "/").toList.isPrefixOf p.toList

/-- Goes down a path from a folder. The last step need not exist. -/
def walk (t : FileTree) (folder : List String) : List String → Except AccessFault (List String)
  | [] => .ok folder
  | step :: steps =>
    if step = "" || step = "." then walk t folder steps
    else if step = ".." then
      if folder = [] then .error .notFound else walk t folder.dropLast steps
    else if 255 < step.utf8ByteSize then .error .nameTooLong
    else if steps = [] || t.isFolder (folder ++ [step]) then walk t (folder ++ [step]) steps
    else if t.isFile (folder ++ [step]) then .error .notFolder
    else .error .notFound

def locate (t : FileTree) (name : String) : Except AccessFault (List String) :=
  if name.toList.contains (Char.ofNat 0) then .error .badName
  else if name = "" || name.toList.head? = some '/' then .error .notFound
  else t.walk [] (name.splitOn "/")

def read (t : FileTree) (name : String) : Except AccessFault (List UInt8) :=
  match t.locate name with
  | .error fault => .error fault
  | .ok steps =>
    match t.files.lookup (path steps) with
    | some bytes => .ok bytes
    | none => .error (if t.isFolder steps then .isFolder else .notFound)

def obstacle (t : FileTree) (name : String) : Option AccessFault :=
  match t.locate name with
  | .error fault => some fault
  | .ok steps => if t.isFolder steps || name.toList.getLast? = some '/' then some .isFolder else none

def disk (t : FileTree) : Disk := ⟨t.read, t.obstacle⟩

def write (t : FileTree) (name : String) (bytes : List UInt8) : FileTree :=
  match t.obstacle name, t.locate name with
  | none, .ok steps =>
    { t with files := (path steps, bytes) :: t.files.filter (·.1 ≠ path steps) }
  | _, _ => t

def storage : Storage FileTree := ⟨disk, write⟩

def changedSince (t old : FileTree) : List (String × List UInt8) :=
  t.files.filter fun (name, bytes) =>
    !name.toList.contains '/' && old.files.lookup name ≠ some bytes

end FileTree

end PrattFrontEnd.CommandLine
