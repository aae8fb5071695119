import SmallLisp.Eval

namespace SmallLisp

structure Logged where
  store : Store
  notices : Array Notice := #[]

namespace Logged

def change {α : Type} (f : Store → α × Store) (l : Logged) : α × Logged :=
  match f l.store with
  | (a, store) => (a, { l with store })

def note (notices : List Notice) (l : Logged) : Logged :=
  { l with notices := l.notices ++ notices }

instance : RunState Logged := ⟨store, change, id, id, note⟩

end Logged

end SmallLisp
