import CallTrace.Path

namespace CallTrace

/-- What lies at a place: a file with its text, perhaps packed, or a directory. -/
inductive FileEntry where
  | file (text : Text) (packed : Bool)
  | directory
deriving DecidableEq

/-- The names on the way from the top to a place. -/
abbrev Place := List Text

/-- The order of places: name by name, a place before those below it. -/
def Place.comesFirst : Place → Place → Bool
  | [], _ => true
  | _ :: _, [] => false
  | a :: as, b :: bs => if a = b then comesFirst as bs else a.atMost b

/-- Entries by place. The top is a directory and is not listed. -/
structure FileTree where
  entries : List (Place × FileEntry)

namespace FileTree

def empty : FileTree := ⟨[]⟩

def find? (t : FileTree) (p : Place) : Option FileEntry :=
  if p.isEmpty then some .directory else t.entries.lookup p

def putEntry (p : Place) (e : FileEntry) : List (Place × FileEntry) → List (Place × FileEntry)
  | [] => [(p, e)]
  | (q, f) :: entries => if q = p then (p, e) :: entries else (q, f) :: putEntry p e entries

def put (t : FileTree) (p : Place) (e : FileEntry) : FileTree := ⟨putEntry p e t.entries⟩

/-- Makes a directory where nothing lies yet. -/
def ensure (t : FileTree) (p : Place) : FileTree :=
  if (t.find? p).isSome then t else t.put p .directory

/-- The beginnings of a list, shortest first, itself among them and the empty one not. -/
def heads (names : List Text) : List (List Text) :=
  (List.range' 1 names.length).map names.take

/-- Puts a file, with the directories on the way to it. -/
def putFile (t : FileTree) (p : Place) (text : Text) (packed : Bool) : FileTree :=
  ((heads p.dropLast).foldl ensure t).put p (.file text packed)

/-- A name has so many octets at most. -/
def maxName : Nat := 255

/-- The octets that a name takes. -/
def nameLength (name : Text) : Nat := ((name.fileOctets?).getD []).length

/-- The place that names lead to, from another one. All but the last of them have to be directories. -/
def follow (t : FileTree) (path : Text) (p : Place) : List Text → Except FileFault Place
  | [] => .ok p
  | name :: names =>
    match t.find? p with
    | none => .error (.missing path)
    | some (.file ..) => .error (.notDirectory path)
    | some .directory =>
      if !Path.counts name then follow t path p names
      else if name = ".." then follow t path p.dropLast names
      else if maxName < nameLength name then .error (.tooLong path)
      else follow t path (p ++ [name]) names

/-- The entries below a place, by the names from there on. -/
def below (t : FileTree) (p : Place) : List (Place × FileEntry) :=
  (t.entries.filter fun e => p.isPrefixOf e.1 && p.length < e.1.length).map fun e =>
    (e.1.drop p.length, e.2)

theorem lookup_putEntry_self (p : Place) (e : FileEntry) (es : List (Place × FileEntry)) :
    (putEntry p e es).lookup p = some e := by
  induction es with
  | nil => simp [putEntry]
  | cons f es ih =>
    obtain ⟨q, f⟩ := f
    by_cases h : q = p
    · simp [putEntry, h]
    · simp [putEntry, h, List.lookup_cons, beq_false_of_ne (Ne.symm h), ih]

theorem lookup_putEntry_ne {p q : Place} (h : q ≠ p) (e : FileEntry) (es : List (Place × FileEntry)) :
    (putEntry p e es).lookup q = es.lookup q := by
  induction es with
  | nil => simp [putEntry, List.lookup_cons, beq_false_of_ne h]
  | cons f es ih =>
    obtain ⟨r, f⟩ := f
    by_cases hr : r = p
    · subst hr; simp [putEntry, List.lookup_cons, beq_false_of_ne h]
    · simp [putEntry, hr, List.lookup_cons, ih]

end FileTree

/-- A tree seen from a directory in it. -/
structure Files where
  tree : FileTree
  here : Place

namespace Files

/-- A path has fewer octets than this. -/
def maxPath : Nat := 4096

/-- The place that a path leads to. -/
def place (fs : Files) (path : Text) : Except FileFault Place :=
  if path.isEmpty then .error (.missing path)
  else fs.tree.follow path (if Path.isAbsolute path then [] else fs.here) (Path.names path)

def locate (fs : Files) (path : Text) : Except Fault Place := do
  let bs ← Path.octets path
  if maxPath ≤ bs.length then throw (.file (.tooLong path))
  (fs.place path).mapError .file

def find? (fs : Files) (path : Text) : Option FileEntry :=
  match fs.locate path with
  | .ok p => fs.tree.find? p
  | .error _ => none

def holds (fs : Files) (path : Text) : Bool := (fs.find? path).isSome

def isDirectory (fs : Files) (path : Text) : Bool := fs.find? path = some .directory

/-- The text of a file, and whether it is packed. -/
def contents (fs : Files) (path : Text) : Except Fault (Text × Bool) := do
  match fs.tree.find? (← fs.locate path) with
  | some (.file text packed) => return (text, packed)
  | some .directory => throw (.file (.isDirectory path))
  | none => throw (.file (.missing path))

/-- The text of a file that is not packed. -/
def readPlain (fs : Files) (path : Text) : Except Fault Text := do
  let (text, packed) ← fs.contents path
  if packed then throw (.file (.unreadable path))
  return text

/-- The text of a packed file. An empty file passes for one. -/
def readPacked (fs : Files) (path : Text) : Except Fault Text := do
  let (text, packed) ← fs.contents path
  if packed || text.isEmpty then return text
  throw (.file (.notPacked ((text.utf8?.getD []).take 2)))

/-- Puts a text in the place of what a file held. -/
def write (fs : Files) (path text : Text) (packed : Bool) : Except Fault Files := do
  let p ← fs.locate path
  match fs.tree.find? p with
  | some .directory => throw (.file (.isDirectory path))
  | _ => return { fs with tree := fs.tree.put p (.file text packed) }

def makeDirectory (fs : Files) (path : Text) : Except Fault Files := do
  let p ← fs.locate path
  if (fs.tree.find? p).isSome then throw (.file (.present path))
  return { fs with tree := fs.tree.put p .directory }

/-- Makes a directory unless it is there. -/
def ensureDirectory (fs : Files) (path : Text) : Except Fault Files :=
  match fs.makeDirectory path with
  | .ok fs => .ok fs
  | .error f => if fs.isDirectory path then .ok fs else .error f

/-- The paths of the directories on the way to a path, and its own. -/
def way (path : Text) : List Text :=
  ((FileTree.heads (Path.names path)).filter fun names => names.getLast? ≠ some []).map Path.ofNames

/-- Makes a directory with those on the way to it. Ones before the last that are there are left alone,
whatever they are. If one cannot be made, those made before it stay. -/
def ensureWay (fs : Files) : List Text → Except Fault Unit × Files
  | [] => (.ok (), fs)
  | path :: paths =>
    if fs.holds path && !paths.isEmpty then fs.ensureWay paths
    else match fs.ensureDirectory path with
      | .ok fs => fs.ensureWay paths
      | .error f => (.error f, fs)

end Files

end CallTrace
