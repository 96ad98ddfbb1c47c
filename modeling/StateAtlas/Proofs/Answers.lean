import StateAtlas.Graph.Exploration
/-!
What holds whatever the backend answers.

A backend answers in an environment, on which each answer may depend and which each answer may
change.  Of a computation that asks it, `Always` says what holds of the result in every environment.
-/

namespace StateAtlas

variable {σ α β : Type} {P : α → Prop} {Q : β → Prop}

/-- Whatever the environment, the result has a property. -/
def Always (P : α → Prop) (x : StateM σ α) : Prop := ∀ env, P (x env).1

theorem always_pure {a : α} (h : P a) : Always P (pure a : StateM σ α) := fun _ => h

theorem Always.bind {x : StateM σ α} {f : α → StateM σ β} (hx : Always P x)
    (hf : ∀ a, P a → Always Q (f a)) : Always Q (x >>= f) := fun env =>
  hf (x env).1 (hx env) (x env).2

/-- About an answer nothing need be known. -/
theorem always_bind {x : StateM σ α} {f : α → StateM σ β} (hf : ∀ a, Always Q (f a)) :
    Always Q (x >>= f) := fun env => hf (x env).1 (x env).2

end StateAtlas
