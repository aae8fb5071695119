import SmallLisp.Eval

namespace SmallLisp

structure Gauge where
  store : Store
  active : Nat := 0
  peak : Nat := 0
  deriving Inhabited

namespace Gauge

def change {α : Type} (f : Store → α × Store) (g : Gauge) : α × Gauge :=
  match f g.store with
  | (a, store) => (a, { g with store })

def enter (g : Gauge) : Gauge :=
  { g with active := g.active + 1, peak := max g.peak (g.active + 1) }

def leave (g : Gauge) : Gauge := { g with active := g.active - 1 }

instance : RunState Gauge := ⟨store, change, enter, leave, fun _ g => g⟩

instance : RunState.Quiet Gauge := ⟨fun _ _ => rfl⟩

theorem peak_le_enter (g : Gauge) : g.peak ≤ g.enter.peak := Nat.le_max_left ..

theorem active_enter_le_peak (g : Gauge) : g.enter.active ≤ g.enter.peak := Nat.le_max_right ..

end Gauge

/-- The most closure bodies that are evaluated at once when `n` is evaluated in `env`. -/
def peak (limit : Nat) (s : Store) (env : FrameId) (n : Node) : Nat :=
  match evaluate limit env n ({ store := s } : Gauge) with
  | .ok _ g | .error _ g => g.peak

end SmallLisp
