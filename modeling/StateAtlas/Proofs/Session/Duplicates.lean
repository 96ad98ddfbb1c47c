import StateAtlas.Proofs.Pane.Counterparts
import StateAtlas.Proofs.Session.Merges
/-!
Copying panes of a session together.

Panes that are copied together are copied with their lineage, whatever was asked of the session before
and however many other panes must be evicted for the copies.  The order in which they are named decides
on names, colours and places, and on which copy becomes active.

Main statement: `duplicates_in_any_order`.
-/

namespace StateAtlas

open PaneTable Session

/-- **Copying panes together copies their lineage.**  Whatever was asked of a session and past it of
its table, and whatever the backend answers: live panes can always be copied together.  Each is copied
once, and the copies are linked to each other as their sources are, and to the panes outside that are
not evicted as these are.  If the same panes are named in another order, or repeatedly, all is the same
but for the copies' names, colours, places and order. -/
theorem duplicates_in_any_order {σ : Type} (backend : Backend (StateM σ)) (env : σ)
    (options : SessionOptions) (bus : Bus) (requests : List Request) :
    let t := ((Session.vacant options bus).serveAll backend requests env).1.table
    ∀ sources, (∀ s ∈ sources, t.contains s = true) →
      ∃ u copies, t.duplicateMany sources = .ok (u, copies.map Prod.snd) ∧
        t.Duplicates sources copies u ∧
        ∀ sources', (∀ s, s ∈ sources' ↔ s ∈ sources) →
          ∃ u' copies', t.duplicateMany sources' = .ok (u', copies'.map Prod.snd) ∧
            t.Duplicates sources' copies' u' ∧ SameButCopies copies copies' u u' := by
  intro t sources hsources
  have hsound : t.Sound := (Session.sound_vacant options bus).serveAll requests env
  obtain ⟨v, copies, hduplicate, hbatch⟩ := hsound.exists_batch hsources
  refine ⟨_, copies, hduplicate, hbatch.duplicates, fun sources' hsame => ?_⟩
  have hsources' : ∀ s ∈ sources', t.contains s = true := fun s hs => hsources s ((hsame s).1 hs)
  obtain ⟨v', copies', hduplicate', hbatch'⟩ := hsound.exists_batch hsources'
  exact ⟨_, copies', hduplicate', hbatch'.duplicates, hbatch.sameButCopies hbatch' hsame⟩

/-! ## Two panes from one -/

namespace Session

/-- A first pane is opened, and two others from it. -/
def openSiblings : List Request :=
  [.table (.spawn {}), .table (.spawn { spawner := some original }),
    .table (.spawn { spawner := some original })]

/-- The names of the two others. -/
def elder : PaneId := ⟨"pane-1"⟩

@[inherit_doc elder]
def younger : PaneId := ⟨"pane-2"⟩

/-- The table with the three panes. -/
def siblings : PaneTable :=
  (((vacant ({} : Config).options {}).serveAll (.constant deadlock) openSiblings) ()).1.table

end Session

/-- One of them is copied together with the pane that it was opened from. -/
theorem duplicates_in_any_order_siblings :
    (∀ s ∈ [younger, original, younger], siblings.contains s = true) ∧
      ∃ u copies, siblings.duplicateMany [younger, original, younger] =
          .ok (u, copies.map Prod.snd) ∧
        siblings.Duplicates [younger, original, younger] copies u ∧
        ∃ u' copies', siblings.duplicateMany [original, younger] = .ok (u', copies'.map Prod.snd) ∧
          siblings.Duplicates [original, younger] copies' u' ∧ SameButCopies copies copies' u u' := by
  have hlive : ∀ s ∈ [younger, original, younger], siblings.contains s = true := by decide +kernel
  obtain ⟨u, copies, hduplicate, hduplicates, hany⟩ :=
    duplicates_in_any_order (.constant deadlock) () ({} : Config).options {} openSiblings _ hlive
  exact ⟨hlive, u, copies, hduplicate, hduplicates, hany [original, younger] (by simp)⟩

/-- What copying panes together gives can be computed. -/
theorem exists_duplicateMany_of_toOption {t : PaneTable} {sources ids : List PaneId}
    {active : Option PaneId}
    (h : (t.duplicateMany sources).toOption.map (fun r => (r.2, r.1.active)) = some (ids, active)) :
    ∃ u, t.duplicateMany sources = .ok (u, ids) ∧ u.active = active := by
  cases hduplicate : t.duplicateMany sources with
  | error e =>
    rw [hduplicate] at h
    nomatch h
  | ok r =>
    rw [hduplicate] at h
    obtain ⟨rfl, rfl⟩ := Prod.mk.inj (Option.some.inj h)
    exact ⟨r.1, rfl, rfl⟩

/-- **The order decides which copy becomes active**: that of the pane named last. -/
theorem active_duplicate_of_order :
    ∃ u u', siblings.duplicateMany [elder, younger] =
        .ok (u, [⟨"DUPLICATE-pane-1-1"⟩, ⟨"DUPLICATE-pane-2-2"⟩]) ∧
      u.active = some ⟨"DUPLICATE-pane-2-2"⟩ ∧
      siblings.duplicateMany [younger, elder] =
        .ok (u', [⟨"DUPLICATE-pane-2-1"⟩, ⟨"DUPLICATE-pane-1-2"⟩]) ∧
      u'.active = some ⟨"DUPLICATE-pane-1-2"⟩ := by
  obtain ⟨u, hduplicate, hactive⟩ : ∃ u, siblings.duplicateMany [elder, younger] =
      .ok (u, [⟨"DUPLICATE-pane-1-1"⟩, ⟨"DUPLICATE-pane-2-2"⟩]) ∧
      u.active = some ⟨"DUPLICATE-pane-2-2"⟩ :=
    exists_duplicateMany_of_toOption (by decide +kernel)
  obtain ⟨u', hduplicate', hactive'⟩ : ∃ u', siblings.duplicateMany [younger, elder] =
      .ok (u', [⟨"DUPLICATE-pane-2-1"⟩, ⟨"DUPLICATE-pane-1-2"⟩]) ∧
      u'.active = some ⟨"DUPLICATE-pane-1-2"⟩ :=
    exists_duplicateMany_of_toOption (by decide +kernel)
  exact ⟨u, u', hduplicate, hactive, hduplicate', hactive'⟩

end StateAtlas
