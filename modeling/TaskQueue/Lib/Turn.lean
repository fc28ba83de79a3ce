/-!
# Turns of an event loop

Between two awaits JavaScript runs without interruption: a turn threads a state
through, and returns or throws.  What was written before an exception stays
written.
-/

/-- A computation over a state `σ` that returns an `α` or throws an `ε`. -/
structure Turn (ε σ α : Type) where
  run : σ → Except ε α × σ

namespace Turn

variable {ε σ α β : Type}

instance : Monad (Turn ε σ) where
  pure a := ⟨fun s => (.ok a, s)⟩
  bind x f := ⟨fun s =>
    match x.run s with
    | (.ok a, t) => (f a).run t
    | (.error e, t) => (.error e, t)⟩

def throw (e : ε) : Turn ε σ α := ⟨fun s => (.error e, s)⟩

/-- `try { x } catch (e) { handler(e) }`. -/
def tryCatch (x : Turn ε σ α) (handler : ε → Turn ε σ α) : Turn ε σ α := ⟨fun s =>
  match x.run s with
  | (.ok a, t) => (.ok a, t)
  | (.error e, t) => (handler e).run t⟩

def get : Turn ε σ σ := ⟨fun s => (.ok s, s)⟩

def modify (f : σ → σ) : Turn ε σ Unit := ⟨fun s => (.ok (), f s)⟩

def failing : Option ε → Turn ε σ Unit
  | some e => throw e
  | none => pure ()

@[simp] theorem run_pure (a : α) (s : σ) : (pure a : Turn ε σ α).run s = (.ok a, s) := rfl

theorem bind_of_ok {x : Turn ε σ α} {f : α → Turn ε σ β} {s t : σ} {a : α}
    (h : x.run s = (.ok a, t)) : (x >>= f).run s = (f a).run t := by
  change (match x.run s with
    | (.ok a, t) => (f a).run t
    | (.error e, t) => (.error e, t)) = (f a).run t
  rw [h]

theorem bind_of_error {x : Turn ε σ α} {f : α → Turn ε σ β} {s t : σ} {e : ε}
    (h : x.run s = (.error e, t)) : (x >>= f).run s = (.error e, t) := by
  change (match x.run s with
    | (.ok a, t) => (f a).run t
    | (.error e, t) => (.error e, t)) = (.error e, t)
  rw [h]

end Turn
