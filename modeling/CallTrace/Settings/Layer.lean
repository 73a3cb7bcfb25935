import CallTrace.Fault

namespace CallTrace

structure Layer where
  name : Text
  /-- The layer in full, as messages show it. -/
  shown : Text
  /-- The parts that this layer or one below it sets. -/
  set : Fields

namespace Layer

/-- The parts that are the adapter's own. -/
def ownParts : List Text := [
  "logger", "binary", "timeout", "stack_size", "keep_workdir", "configure", "build_command", "write_inputs",
  "run_transaction", "_find_rejection", "_find_trace_file", "version"]

/-- The parts that every adapter has for being what it is. -/
def commonParts : List Text := Text.split ' ' <|
  "__annotations__ __base__ __bases__ __basicsize__ __call__ __class__ __delattr__ __dict__ __dictoffset__ " ++
  "__dir__ __doc__ __eq__ __flags__ __format__ __ge__ __getattribute__ __getstate__ __gt__ __hash__ " ++
  "__init__ __init_subclass__ __instancecheck__ __itemsize__ __le__ __lt__ __module__ __mro__ __name__ " ++
  "__ne__ __new__ __or__ __prepare__ __qualname__ __reduce__ __reduce_ex__ __repr__ __ror__ __setattr__ " ++
  "__sizeof__ __str__ __subclasscheck__ __subclasses__ __subclasshook__ __text_signature__ __weakref__ " ++
  "__weakrefoffset__ mro"

def isPart (key : Text) : Bool := key.isOneOf ownParts || key.isOneOf commonParts

/-- The key that names the new layer; it sets no part. -/
def nameKey : Text := "__name__"

def home : Text := "evmtrace.tools.t8n"

/-- A layer in full: the module that it says it is from, and the name that it says it has there. -/
def inFull (name : Text) (parts : Fields) : Text :=
  let full := match parts.value? "__qualname__" with
    | some (.text s) => s
    | _ => name
  let shown := match parts.value? "__module__" with
    | none => home ++ "." ++ full
    | some (.text s) => if s = "builtins" then name else s ++ "." ++ full
    | some _ => name
  "<class '" ++ shown ++ "'>"

def base : Layer := ⟨"GethT8n", inFull "GethT8n" [], []⟩

def sets (l : Layer) (part : Text) : Bool := l.set.has part

/-- A text that can serve as a name or a description. -/
def checkEncodable (t : Text) : Except Fault Unit :=
  if t.chars?.isNone then .error .unencodable else .ok ()

/-- The name of a layer on top of another one, which it has by default. -/
def newName (l : Layer) (parts : Fields) : Except Fault Text :=
  match (parts.value? nameKey).bind Json.present? with
  | none => .ok l.name
  | some (.text s) => do
    checkEncodable s
    if s.contains '\x00' then throw .zeroInName
    return s
  | some _ => .error .unsuited

/-- Whether the parts that describe a layer can do so. -/
def checkDescription (parts : Fields) : Except Fault Unit := do
  match parts.value? "__qualname__" with
  | none | some (.text _) => pure ()
  | some _ => throw .unsuited
  match parts.value? "__doc__" with
  | some (.text s) => checkEncodable s
  | _ => pure ()

/-- Whether a value may be given under a key. -/
def checkKey (l : Layer) (key : Text) : Except Fault Unit :=
  if key = nameKey || isPart key then .ok () else .error (.unknownSetting l.name key l.shown)

/-- A layer on top of another one, by the parts that it sets. -/
def configure (l : Layer) (j : Json) : Except Fault Layer := do
  if l.sets "configure" then throw .unsuited
  match j with
  | .object parts =>
    if Fields.has parts "cls" then throw .unsuited
    parts.forM fun f => checkKey l f.1
    let name ← newName l parts
    checkDescription parts
    if l.sets "__init_subclass__" then throw .unsuited
    let parts := parts.filter fun f => f.1 ≠ nameKey
    return ⟨name, inFull name parts, parts.foldl (fun set f => set.put f.1 f.2) l.set⟩
  | _ => throw .unsuited

/-- Layers put on the base one after the other. -/
def ofList (layers : List Json) : Except Fault Layer := layers.foldlM configure base

end Layer

end CallTrace
