import KotlinDecl.Error

namespace KotlinDecl

abbrev Edit (σ : Type) := EStateM Error σ

namespace Edit

variable {σ τ : Type}

/-- Goes on with a checked value, or fails and changes nothing. -/
def require {α : Type} (r : Except Error α) : Edit σ α := fun s =>
  match r with
  | .ok a => .ok a s
  | .error e => .error e s

def forEach {α : Type} (f : α → Edit σ Unit) : List α → Edit σ Unit
  | [] => pure ()
  | a :: rest => do f a; forEach f rest

def on (get : σ → τ) (set : τ → σ → σ) (e : Edit τ Unit) : Edit σ Unit := fun s =>
  match e (get s) with
  | .ok _ t => .ok () (set t s)
  | .error err t => .error err (set t s)

def outcome (e : Edit σ Unit) (s : σ) : σ × Option Error :=
  match e s with
  | .ok _ t => (t, none)
  | .error err t => (t, some err)

end Edit

end KotlinDecl
