import MicroFrontends.Writing

/-!
# Steps one after another

What a step does that depends on the result of another, for steps that note what they do (`Logged`)
and for steps that write (`Writing`).
-/

namespace MicroFrontends

/-! ## Steps that note what they do -/

namespace Logged

variable {α β : Type} {x : Logged α} {f : α → Logged β}

theorem bind_of_ok {a : α} (h : x.result = .ok a) :
    x >>= f = ⟨(f a).result, x.log ++ (f a).log⟩ := by
  show x.andThen f = _
  rw [andThen, h]

theorem bind_of_error {e : ProgramError} (h : x.result = .error e) :
    x >>= f = ⟨.error e, x.log⟩ := by
  show x.andThen f = _
  rw [andThen, h]

theorem bind_pure_bind {γ : Type} (x : Logged α) (g : α → β) (k : β → Logged γ) :
    ((x >>= fun a => pure (g a)) >>= k) = (x >>= fun a => k (g a)) := by
  cases h : x.result with
  | ok a =>
    rw [bind_of_ok h, bind_of_ok h, bind_of_ok rfl]
    show (⟨_, (x.log ++ []) ++ _⟩ : Logged γ) = _
    rw [List.append_nil]
  | error e => rw [bind_of_error h, bind_of_error h, bind_of_error rfl]

end Logged

/-! ## Steps that write -/

namespace Writing

variable {α β : Type} {x : Writing α} {f : α → Writing β}

theorem bind_of_ok {a : α} (h : x.step.result = .ok a) :
    x >>= f = ⟨⟨(f a).step.result, x.step.log ++ (f a).step.log⟩, x.output ++ (f a).output⟩ := by
  show x.andThen f = _
  rw [andThen, h]

theorem bind_of_error {e : ProgramError} (h : x.step.result = .error e) :
    x >>= f = ⟨⟨.error e, x.step.log⟩, x.output⟩ := by
  show x.andThen f = _
  rw [andThen, h]

/-- A step that writes nothing leaves the output to what comes after it. -/
theorem silently_bind {step : Logged α} {a : α} (h : step.result = .ok a) :
    silently step >>= f = ⟨⟨(f a).step.result, step.log ++ (f a).step.log⟩, (f a).output⟩ := by
  have hok : (silently step).step.result = .ok a := h
  rw [bind_of_ok hok]
  show (⟨_, "" ++ _⟩ : Writing β) = _
  rw [String.empty_append]
  rfl

/-- The step succeeds, whatever it writes. -/
def Succeeds (x : Writing Unit) : Prop := x.step.result = .ok ()

theorem Succeeds.bind {x : Writing Unit} {f : Unit → Writing Unit} (hx : x.Succeeds)
    (hf : (f ()).Succeeds) : (x >>= f).Succeeds := by
  rw [Succeeds, bind_of_ok hx]
  exact hf

theorem succeeds_write (text : String) : (write text).Succeeds := rfl

theorem succeeds_writeLines (texts : List String) : (writeLines texts).Succeeds := by
  induction texts with
  | nil => rfl
  | cons text texts ih => exact .bind (succeeds_write _) ih

end Writing

end MicroFrontends
