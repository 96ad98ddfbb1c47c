import StateAtlas.Proofs.Answers
import StateAtlas.Proofs.Session.Commands
/-!
What comes into a session from outside.

Nodes come in with the fragments that the backend answers with, that tickets are finished with and
that were held back, and with documents.  States of brushes come in with documents alone.  A feed says
which of these may come in.
-/

namespace StateAtlas

/-- What may come into a session from outside. -/
structure Feed where
  node : Node → Prop
  state : BrushState Float → Prop

namespace Feed

/-- Anything may come in. -/
def any : Feed := ⟨fun _ => True, fun _ => True⟩

variable (F : Feed)

def AdmitsFragment (g : Fragment) : Prop := ∀ n ∈ g.nodes, F.node n

def AdmitsAnswer (r : Except ExploreError Fragment) : Prop := ∀ g, r = .ok g → F.AdmitsFragment g

structure AdmitsDocument (d : PaneDocument) : Prop where
  nodes : ∀ n ∈ d.nodes, F.node n
  brush : F.state d.brush

/-- Whether what a command brings may come in. -/
def Admits : SessionCommand → Prop
  | .openDocuments docs => ∀ d ∈ docs, F.AdmitsDocument d
  | .finish _ fetched | .advance _ _ fetched => F.AdmitsAnswer fetched
  | .resolve _ pending _ => F.AdmitsFragment pending.fetched
  | _ => True

/-- Whether a backend answers only with what may come in. -/
structure Supplies {σ : Type} (backend : Backend (StateM σ)) : Prop where
  initial : Always F.AdmitsAnswer backend.initial
  outgoing : ∀ ids, Always F.AdmitsAnswer (backend.outgoing ids)
  reset : ∀ opened closed, Always F.AdmitsAnswer (backend.reset opened closed)

variable {F} {σ : Type} {backend : Backend (StateM σ)}

theorem Supplies.fetch (h : F.Supplies backend) (planned : List NodeId) :
    Always F.AdmitsAnswer (backend.fetch planned) := by
  unfold Backend.fetch
  split
  · refine always_pure fun g hg => ?_
    obtain rfl := Except.ok.inj hg
    exact nofun
  · exact h.outgoing planned

theorem admits_any (c : SessionCommand) : any.Admits c := by
  cases c with
  | openDocuments docs => exact fun _ _ => ⟨fun _ _ => trivial, trivial⟩
  | finish t fetched => exact fun _ _ _ _ => trivial
  | advance run t fetched => exact fun _ _ _ _ => trivial
  | resolve pane pending decision => exact fun _ _ => trivial
  | _ => trivial

theorem supplies_any (backend : Backend (StateM σ)) : any.Supplies backend :=
  ⟨fun _ _ _ _ _ => trivial, fun _ _ _ _ _ _ => trivial, fun _ _ _ _ _ _ _ => trivial⟩

end Feed

end StateAtlas
