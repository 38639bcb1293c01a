import MicroFrontends.Log

/-!
# Steps that write

`Writing α` is a step that may fail, what it noted, and what it wrote to the output. What was
written stays written where a later step fails.

* `Writing.silently` : a step that writes nothing;
* `Writing.write`, `Writing.writeLines` : text, and lines of text one after another;
* `Writing.written` : all that was written, if no step failed.
-/

namespace MicroFrontends

/-- A step, and what it wrote. -/
structure Writing (α : Type) where
  step : Logged α
  output : String

namespace Writing

variable {α β : Type}

/-- A step that writes nothing. -/
def silently (step : Logged α) : Writing α := ⟨step, ""⟩

/-- Writes a text. -/
def write (text : String) : Writing Unit := ⟨pure (), text⟩

/-- One step and then another that depends on its result. -/
def andThen (x : Writing α) (f : α → Writing β) : Writing β :=
  match x.step.result with
  | .ok a => ⟨⟨(f a).step.result, x.step.log ++ (f a).step.log⟩, x.output ++ (f a).output⟩
  | .error e => ⟨⟨.error e, x.step.log⟩, x.output⟩

instance : Monad Writing where
  pure a := silently (pure a)
  bind := andThen

/-- Writes lines of text. -/
def writeLines (texts : List String) : Writing Unit := texts.forM fun text => write (text ++ "\n")

/-- All that was written, if no step failed. -/
def written (x : Writing Unit) : Logged String := ⟨x.step.result.map fun _ => x.output, x.step.log⟩

end Writing

end MicroFrontends
