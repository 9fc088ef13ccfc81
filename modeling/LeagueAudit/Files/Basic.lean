import LeagueAudit.Fault
import LeagueAudit.Files.Path

/-!
Files in folders, as far as they are known: a tree of files and folders by path. A folder is there
when it is listed or when something is in it.
-/
namespace LeagueAudit

/-- What stands at a path. -/
inductive FileNode where
  | file (bytes : List UInt8)
  | folder
  deriving Inhabited

/-- Files and folders by their paths, which have no double dots except at the start. -/
structure Files where
  entries : List (Path × FileNode) := []

/-- Why a file cannot be read. -/
inductive FileFault where
  | missing | isFolder | inFile | longName
  | unreadable (fault : Text.ByteFault)

/-- The text of a fault at a path. -/
def FileFault.message (path : Path) : FileFault → String
  | missing => s!"[Errno 2] No such file or directory: '{path.text}'"
  | isFolder => s!"[Errno 21] Is a directory: '{path.text}'"
  | inFile => s!"[Errno 20] Not a directory: '{path.text}'"
  | longName => s!"[Errno 36] File name too long: '{path.text}'"
  | unreadable fault => fault.message

namespace Files

/-- A path leads into a folder. -/
def isInside (folder p : Path) : Bool :=
  folder.absolute == p.absolute && folder.parts.length < p.parts.length &&
    folder.parts.isPrefixOf p.parts

/-- What stands at a path without double dots. -/
def nodeAt (files : Files) (p : Path) : Option FileNode :=
  match files.entries.lookup p with
  | some node => some node
  | none =>
    if p.parts.isEmpty || files.entries.any fun (q, _) => isInside p q then some .folder else none

/-- One step further from a folder. -/
def step (files : Files) (place : Path) (part : String) : Except FileFault Path :=
  match files.nodeAt place with
  | some .folder =>
    if Path.isLongStep part then .error .longName
    else if part == ".." && !place.parts.isEmpty && place.name != ".." then .ok place.parent
    else if part == ".." && place.absolute then .ok place
    else .ok (place.child part)
  | some (.file _) => .error .inFile
  | none => .error .missing

/-- The place that a path leads to. -/
def place (files : Files) (p : Path) : Except FileFault Path :=
  p.parts.foldlM files.step ⟨p.root, []⟩

/-- What a path leads to. -/
def find (files : Files) (p : Path) : Except FileFault FileNode := do
  match files.nodeAt (← files.place p) with
  | some node => .ok node
  | none => .error .missing

/-- What a path leads to, if anything; a name that is too long is a fault. -/
def find? (files : Files) (p : Path) : Except Fault (Option FileNode) :=
  match files.find p with
  | .ok node => .ok (some node)
  | .error .longName => .error (.longName p.text)
  | .error _ => .ok none

def exists? (files : Files) (p : Path) : Except Fault Bool := (files.find? p).map (·.isSome)

def isFile (files : Files) (p : Path) : Except Fault Bool :=
  (files.find? p).map fun
    | some (.file _) => true
    | _ => false

def isFolder (files : Files) (p : Path) : Except Fault Bool :=
  (files.find? p).map fun
    | some .folder => true
    | _ => false

/-- The text of a file, all line ends being line feeds. -/
def read (files : Files) (p : Path) : Except FileFault (List Char) := do
  match ← files.find p with
  | .folder => .error .isFolder
  | .file bytes =>
    match Text.decodeUtf8 bytes with
    | .ok cs => .ok (Text.unifyLineEnds cs)
    | .error fault => .error (.unreadable fault)

/-- The steps that lead from a folder to all that is below it. -/
def stepsBelow (files : Files) (place : Path) : List (List String) :=
  ((files.entries.filter fun (p, _) => isInside place p).flatMap fun (p, _) =>
    let steps := p.parts.drop place.parts.length
    (List.range steps.length).map fun i => steps.take (i + 1)).eraseDups

/-- The steps that lead from a folder to all that is below it, in order; none lead from anything
else. -/
def below (files : Files) (folder : Path) : List (List String) :=
  match files.place folder with
  | .ok place => (files.stepsBelow place).mergeSort Path.stepsNotAfter
  | .error _ => []

/-- The names in a folder, in order. -/
def children (files : Files) (folder : Path) : List String :=
  (files.below folder).filterMap fun
    | [name] => some name
    | _ => none

/-- The place to write to: folders that are missing will be made. -/
def placeToWrite (files : Files) (p : Path) : Except FileFault Path :=
  match files.place p with
  | .error .missing => .ok p
  | place => place

/-- Writes a text to a file. -/
def write (files : Files) (p : Path) (text : String) : Except FileFault Files := do
  let place ← files.placeToWrite p
  match files.nodeAt place with
  | some .folder => .error .isFolder
  | _ =>
    let node := FileNode.file text.toUTF8.toList
    .ok ⟨(files.entries.filter fun (q, _) => q != place) ++ [(place, node)]⟩

/-- The files that are new or have other contents. -/
def changes (before after : Files) : List (Path × List UInt8) :=
  after.entries.filterMap fun (p, node) =>
    match node, before.entries.lookup p with
    | .file bytes, some (.file old) => if bytes == old then none else some (p, bytes)
    | .file bytes, _ => some (p, bytes)
    | .folder, _ => none

end Files
end LeagueAudit
