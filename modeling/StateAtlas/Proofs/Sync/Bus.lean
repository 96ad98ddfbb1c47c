import Mathlib.Data.List.Basic
import Mathlib.Data.List.Induction
import StateAtlas.Sync.Bus
/-!
What a subscriber hears.

Whoever holds a registered subscription hears every event published since, in order, as far as it is
on a topic that was asked for.
-/

namespace StateAtlas.Bus

variable {b : Bus} {number : Nat} {topics : List Topic} {heard : List Event}

/-- Whether an event is on one of some topics; none of them means all. -/
def asked (topics : List Topic) (e : Event) : Bool := topics.isEmpty || topics.contains e.topic

/-- The only subscription of a number is registered and held, asks for some topics, and was delivered
what is told. -/
def Hears (b : Bus) (number : Nat) (topics : List Topic) (heard : List Event) : Prop :=
  (b.subscriptions.filter fun s => s.id = number) = [{ id := number, topics, inbox := heard }]

theorem Hears.drain (h : b.Hears number topics heard) : (b.drain number).2 = heard := by
  rw [Bus.drain, h, List.flatMap_singleton]

/-! ## Publishing -/

theorem id_deliver (s : Subscription) (e : Event) : (s.deliver e).id = s.id := by
  unfold Subscription.deliver
  split
  · split <;> rfl
  · rfl

/-- Someone who is registered and still there is delivered what is asked for. -/
theorem deliver_attentive (number : Nat) (topics : List Topic) (heard : List Event) (e : Event) :
    ({ id := number, topics, inbox := heard } : Subscription).deliver e =
      { id := number, topics, inbox := heard ++ [e].filter (asked topics) } := by
  have hwants : ({ id := number, topics, inbox := heard } : Subscription).wants e.topic =
      asked topics e := rfl
  unfold Subscription.deliver
  rw [hwants]
  cases hasked : asked topics e <;> simp [hasked]

theorem Hears.publish (h : b.Hears number topics heard) (e : Event) :
    (b.publish e).Hears number topics (heard ++ [e].filter (asked topics)) := by
  have hsame : ((fun s : Subscription => decide (s.id = number)) ∘
      fun s : Subscription => s.deliver e) = fun s : Subscription => decide (s.id = number) := by
    funext s
    rw [Function.comp, id_deliver]
  unfold Hears Bus.publish at *
  rw [List.filter_map, hsame, h, List.map_singleton, deliver_attentive]

/-- **A subscriber hears what is asked for, in order.** -/
theorem Hears.publishAll (h : b.Hears number topics heard) (events : List Event) :
    (events.foldl Bus.publish b).Hears number topics (heard ++ events.filter (asked topics)) := by
  induction events generalizing b heard with
  | nil => rwa [List.filter_nil, List.append_nil]
  | cons e events ih =>
    rw [← List.singleton_append, List.filter_append, ← List.append_assoc]
    exact ih (h.publish e)

/-- What an event that is not asked for counts nothing for can be found out from the others. -/
theorem filterMap_filter_asked {β : Type} {f : Event → Option β}
    (hf : ∀ e, asked topics e = false → f e = none) (events : List Event) :
    (events.filter (asked topics)).filterMap f = events.filterMap f := by
  rw [List.filterMap_filter]
  refine List.filterMap_congr fun e _ => ?_
  split
  · rfl
  next hnot => exact (hf e (Bool.not_eq_true _ ▸ hnot)).symm

theorem foldl_filter_asked {β : Type} {f : β → Event → β}
    (hf : ∀ b e, asked topics e = false → f b e = b) (events : List Event) (b : β) :
    (events.filter (asked topics)).foldl f b = events.foldl f b := by
  rw [List.foldl_filter]
  congr 1
  funext b e
  split
  · rfl
  next hnot => exact (hf b e (Bool.not_eq_true _ ▸ hnot)).symm

/-! ## Subscribing -/

/-- Every subscription has a number that was given out. -/
def Numbered (b : Bus) : Prop := ∀ s ∈ b.subscriptions, s.id < b.next

theorem Numbered.subscribe (h : b.Numbered) (topics : List Topic) :
    (b.subscribe topics).1.Numbered := by
  intro s hs
  rcases List.mem_append.1 hs with hs | hs
  · exact Nat.lt_succ_of_lt (h s hs)
  · obtain rfl := List.mem_singleton.1 hs
    exact Nat.lt_succ_self b.next

theorem Numbered.publishAll (h : b.Numbered) (events : List Event) :
    (events.foldl Bus.publish b).Numbered := by
  induction events generalizing b with
  | nil => exact h
  | cons e events ih =>
    refine ih fun s hs => ?_
    obtain ⟨s', hs', rfl⟩ := List.mem_map.1 hs
    exact id_deliver s' e ▸ h s' hs'

/-- **Who subscribes hears nothing of what was published before.** -/
theorem Numbered.hears_subscribe (h : b.Numbered) (topics : List Topic) :
    (b.subscribe topics).1.Hears b.next topics [] := by
  have hnone : (b.subscriptions.filter fun s => s.id = b.next) = [] :=
    List.filter_eq_nil_iff.2 fun s hs => by simpa using Nat.ne_of_lt (h s hs)
  rw [Hears, Bus.subscribe, List.filter_append, hnone]
  simp

/-- The bus once subscribers have registered one after the other, each for topics of its own. -/
def attended (topics : List (List Topic)) : Bus :=
  topics.foldl (fun b topics => (b.subscribe topics).1) {}

/-- Those who register later change nothing of what is heard. -/
theorem Hears.subscribeAll (h : b.Hears number topics heard) (hnumber : number < b.next)
    (later : List (List Topic)) :
    (later.foldl (fun b topics => (b.subscribe topics).1) b).Hears number topics heard := by
  induction later generalizing b with
  | nil => exact h
  | cons asks later ih =>
    refine ih ?_ (Nat.lt_succ_of_lt hnumber)
    unfold Hears Bus.subscribe at *
    rw [List.filter_append, h]
    simp [Nat.ne_of_gt hnumber]

/-- Subscriptions are numbered in the order in which they are made. -/
theorem numbered_attended (topics : List (List Topic)) :
    (attended topics).next = topics.length ∧ (attended topics).Numbered := by
  induction topics using List.reverseRecOn with
  | nil => exact ⟨rfl, List.forall_mem_nil _⟩
  | append_singleton topics asks ih =>
    obtain ⟨hnext, hnumbered⟩ := ih
    have hlast : attended (topics ++ [asks]) = ((attended topics).subscribe asks).1 := by
      rw [attended, List.foldl_append]
      rfl
    rw [hlast, List.length_append, List.length_singleton]
    exact ⟨congrArg (· + 1) hnext, hnumbered.subscribe asks⟩

/-- **A subscriber is among those who registered, under its place in their order.** -/
theorem hears_attended (before : List (List Topic)) (topics : List Topic)
    (after : List (List Topic)) :
    (attended (before ++ topics :: after)).Hears before.length topics [] := by
  obtain ⟨hnext, hnumbered⟩ := numbered_attended before
  rw [attended, List.foldl_append, List.foldl_cons, ← hnext]
  exact (hnumbered.hears_subscribe topics).subscribeAll (Nat.lt_succ_self _) after

end StateAtlas.Bus
