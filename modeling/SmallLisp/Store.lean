import SmallLisp.Fault

namespace SmallLisp

/-- Bindings are kept newest first, and the newest binding of a name counts. -/
structure Frame where
  bindings : List (String × Value)
  parent : Option FrameId
  deriving Inhabited

def nameBytes (name : String) : List UInt8 := name.toUTF8.data.toList

def insertName (name : String) : List String → List String
  | [] => [name]
  | n :: ns =>
      if name = n then n :: ns
      else if nameBytes name < nameBytes n then name :: n :: ns
      else n :: insertName name ns

def sortNames (names : List String) : List String := names.foldr insertName []

namespace Frame

def find? (f : Frame) (name : String) : Option Value := f.bindings.lookup name

def binds (f : Frame) (name : String) : Bool := (f.find? name).isSome

def names (f : Frame) : List String := f.bindings.map (·.1)

def bind (f : Frame) (name : String) (v : Value) : Frame :=
  { f with bindings := (name, v) :: f.bindings }

end Frame

structure Store where
  frames : Array Frame := #[]
  closures : Nat := 0
  deriving Inhabited

namespace Store

def outward (s : Store) : Nat → FrameId → List Frame
  | 0, _ => []
  | steps + 1, id =>
      match s.frames[id]? with
      | none => []
      | some f =>
          f ::
            match f.parent with
            | none => []
            | some p => s.outward steps p

/-- The frames from `env` outward. A parent is older than its children, so its number is smaller
and a frame has at most as many ancestors as its number says. -/
def chain (s : Store) (env : FrameId) : List Frame := s.outward (env + 1) env

def find? (s : Store) (env : FrameId) (name : String) : Option Value :=
  (s.chain env).findSome? (·.find? name)

def lookup (s : Store) (env : FrameId) (name : String) : Except Fault Value :=
  match s.find? env name with
  | some v => .ok v
  | none => .error (.unboundSymbol name)

def binds (s : Store) (env : FrameId) (name : String) : Bool :=
  match s.frames[env]? with
  | some f => f.binds name
  | none => false

def parent? (s : Store) (env : FrameId) : Option FrameId := s.frames[env]?.bind (·.parent)

def depth (s : Store) (env : FrameId) : Nat := (s.chain env).length

def names (s : Store) (env : FrameId) : List String :=
  sortNames ((s.chain env).flatMap Frame.names)

def ownNames (s : Store) (env : FrameId) : List String :=
  match s.frames[env]? with
  | some f => sortNames f.names
  | none => []

def push (s : Store) (f : Frame) : FrameId × Store :=
  (s.frames.size, { s with frames := s.frames.push f })

def newRoot (s : Store) : FrameId × Store := s.push ⟨[], none⟩

/-- Adds a frame inside `env`. Of two pairs for one name the later counts. -/
def extend (s : Store) (env : FrameId) (pairs : List (String × Value)) : FrameId × Store :=
  s.push ⟨pairs.reverse, some env⟩

/-- Binds a name in the frame `env`, unless that frame binds it already. -/
def define (s : Store) (env : FrameId) (name : String) (v : Value) : Except Fault Unit × Store :=
  if s.binds env name then (.error (.duplicateDefinition name), s)
  else (.ok (), { s with frames := s.frames.modify env (·.bind name v) })

def close (s : Store) (env : FrameId) (params : List String) (body : Node) : Closure × Store :=
  (⟨s.closures, params, body, env⟩, { s with closures := s.closures + 1 })

end Store

end SmallLisp
