import StateAtlas.Proofs.Sync.Bus
/-!
Histories of a bus.

Subscribers come and go between events, and the bus finds out that one is gone only when it has
something for it.  Every command acts on each subscription by itself (`Subscription.next`), so a
history is followed for one subscription at a time, from when it was made.  Main statement:
`numbered_eq_foldl`.
-/

namespace StateAtlas

/-- What is asked of a bus, or of the end of a subscription that its owner holds. -/
inductive BusCommand
  | subscribe (topics : List Topic)
  | publish (e : Event)
  | unsubscribe (number : Nat)
  | clear
  | drop (number : Nat)
  | drain (number : Nat)

namespace BusCommand

/-- The bus after a command. -/
def perform (b : Bus) : BusCommand → Bus
  | .subscribe topics => (b.subscribe topics).1
  | .publish e => b.publish e
  | .unsubscribe number => b.unsubscribe number
  | .clear => b.clear
  | .drop number => b.drop number
  | .drain number => (b.drain number).1

/-- The event that a command publishes. -/
def event? : BusCommand → Option Event
  | .publish e => some e
  | _ => none

def isSubscribe : BusCommand → Bool
  | .subscribe _ => true
  | _ => false

/-- Whether a subscription is over with a command. -/
def ends (number : Nat) : BusCommand → Bool
  | .unsubscribe n | .drop n => number = n
  | .clear => true
  | _ => false

end BusCommand

namespace Bus

/-- The bus after a history. -/
def performAll (b : Bus) (history : List BusCommand) : Bus := history.foldl BusCommand.perform b

/-- What draining a subscription would give now. -/
def queued (b : Bus) (number : Nat) : List Event := (b.drain number).2

/-- The subscriptions of a number. -/
def numbered (b : Bus) (number : Nat) : List Subscription :=
  b.subscriptions.filter fun s => s.id = number

/-- The number of the next subscription after a history. -/
def numberAfter (history : List BusCommand) : Nat := history.countP BusCommand.isSubscribe

end Bus

open Bus BusCommand

/-! ## One subscription -/

namespace Subscription

/-- What a command makes of a subscription that was made before. -/
def next (s : Subscription) : BusCommand → Subscription
  | .subscribe _ => s
  | .publish e => s.deliver e
  | .unsubscribe number => if s.id = number then { s with registered := false } else s
  | .clear => { s with registered := false }
  | .drop number => if s.id = number then { s with held := false, inbox := [] } else s
  | .drain number => if s.id = number then { s with inbox := [] } else s

/-- The bus knows the subscription and its owner holds it. -/
def live (s : Subscription) : Bool := s.registered && s.held

variable (s : Subscription) (c : BusCommand)

@[simp] theorem id_next : (s.next c).id = s.id := by
  cases c with
  | publish e => exact id_deliver s e
  | subscribe | clear => rfl
  | unsubscribe | drop | drain => simp only [next]; split <;> rfl

theorem topics_deliver (e : Event) : (s.deliver e).topics = s.topics := by
  unfold deliver
  split
  · split <;> rfl
  · rfl

@[simp] theorem topics_next : (s.next c).topics = s.topics := by
  cases c with
  | publish e => exact topics_deliver s e
  | subscribe | clear => rfl
  | unsubscribe | drop | drain => simp only [next]; split <;> rfl

/-- Delivering is all about those who are there: nobody else is put anything into the queue. -/
theorem inbox_deliver (e : Event) :
    (s.deliver e).inbox = s.inbox ++ if s.live then [e].filter (asked s.topics) else [] := by
  have hwants : s.wants e.topic = asked s.topics e := rfl
  unfold deliver live
  rw [hwants]
  cases hregistered : s.registered <;> cases hheld : s.held <;>
    cases hasked : asked s.topics e <;> simp [hasked]

/-- Publishing neither ends a subscription nor revives one. -/
theorem live_deliver (e : Event) : (s.deliver e).live = s.live := by
  unfold deliver live
  cases hregistered : s.registered <;> cases hheld : s.held <;> cases hwants : s.wants e.topic <;>
    simp [hregistered, hheld]

/-- A subscription lasts until a command ends it. -/
theorem live_next : (s.next c).live = (s.live && !c.ends s.id) := by
  cases c with
  | publish e => simp [next, live_deliver, ends]
  | subscribe | clear => simp [next, live, ends]
  | unsubscribe number | drop number | drain number =>
    by_cases h : s.id = number <;> simp [next, live, ends, h]

end Subscription

namespace Bus

variable {b : Bus} {s : Subscription} {number : Nat} {topics : List Topic}
  {history : List BusCommand}

/-! ## All subscriptions -/

/-- The subscription that a command makes. -/
def made (b : Bus) : BusCommand → List Subscription
  | .subscribe topics => [{ id := b.next, topics }]
  | _ => []

/-- Subscriptions are numbered in the order in which they were made. -/
def InOrder (b : Bus) : Prop := b.subscriptions.map Subscription.id = List.range b.next

theorem subscriptions_perform (b : Bus) (c : BusCommand) :
    (c.perform b).subscriptions = b.subscriptions.map (Subscription.next · c) ++ b.made c := by
  cases c <;>
    simp [perform, Bus.subscribe, Bus.publish, Bus.unsubscribe, Bus.clear, Bus.drop, Bus.drain,
      Bus.modify, made, Subscription.next]

theorem next_perform (b : Bus) (c : BusCommand) :
    (c.perform b).next = b.next + numberAfter [c] := by
  cases c <;> rfl

theorem InOrder.perform (h : b.InOrder) (c : BusCommand) : (c.perform b).InOrder := by
  have hids : (Subscription.id ∘ fun s : Subscription => s.next c) = Subscription.id :=
    funext fun s => s.id_next c
  unfold InOrder at *
  rw [subscriptions_perform, List.map_append, List.map_map, hids, h, next_perform]
  cases c <;> simp [made, numberAfter, isSubscribe, List.range_succ]

theorem InOrder.performAll (h : b.InOrder) (history : List BusCommand) :
    (b.performAll history).InOrder := by
  induction history generalizing b with
  | nil => exact h
  | cons c history ih => exact ih (h.perform c)

theorem numberAfter_append (before after : List BusCommand) :
    numberAfter (before ++ after) = numberAfter before + numberAfter after :=
  List.countP_append

theorem next_performAll (b : Bus) (history : List BusCommand) :
    (b.performAll history).next = b.next + numberAfter history := by
  induction history generalizing b with
  | nil => rfl
  | cons c history ih =>
    rw [performAll, List.foldl_cons, ← performAll, ih, next_perform, Nat.add_assoc,
      ← numberAfter_append, List.singleton_append]

/-- A command acts on each subscription as on it alone. -/
theorem numbered_perform (b : Bus) (c : BusCommand) (number : Nat) :
    (c.perform b).numbered number = (b.numbered number).map (Subscription.next · c) ++
      (b.made c).filter fun s => s.id = number := by
  have hsame : ((fun s : Subscription => decide (s.id = number)) ∘
      fun s : Subscription => s.next c) = fun s : Subscription => decide (s.id = number) := by
    funext s
    rw [Function.comp, s.id_next]
  unfold numbered
  rw [subscriptions_perform, List.filter_append, List.filter_map, hsame]

theorem numbered_perform_of_lt (h : number < b.next) (c : BusCommand) :
    (c.perform b).numbered number = (b.numbered number).map (Subscription.next · c) := by
  have hmade : (b.made c).filter (fun s => decide (s.id = number)) = [] := by
    cases c with
    | subscribe => simp [made, Nat.ne_of_gt h]
    | publish | unsubscribe | clear | drop | drain => rfl
  rw [numbered_perform, hmade, List.append_nil]

theorem numbered_performAll_of_lt (h : number < b.next) (history : List BusCommand) :
    (b.performAll history).numbered number =
      (b.numbered number).map fun s => history.foldl Subscription.next s := by
  induction history generalizing b with
  | nil => exact (List.map_id _).symm
  | cons c history ih =>
    change ((c.perform b).performAll history).numbered number = _
    rw [ih (by rw [next_perform]; omega), numbered_perform_of_lt h, List.map_map]
    rfl

theorem mem_numbered : s ∈ b.numbered number ↔ s ∈ b.subscriptions ∧ s.id = number := by
  simp [numbered]

theorem InOrder.numbered_eq_nil (h : b.InOrder) (hnumber : b.next ≤ number) :
    b.numbered number = [] := by
  refine List.filter_eq_nil_iff.2 fun s hs => ?_
  have hid : s.id ∈ List.range b.next := h ▸ List.mem_map_of_mem hs
  simpa using Nat.ne_of_lt (Nat.lt_of_lt_of_le (List.mem_range.1 hid) hnumber)

/-- A new subscription is the only one of its number. -/
theorem InOrder.numbered_subscribe (h : b.InOrder) (topics : List Topic) :
    (b.subscribe topics).1.numbered b.next = [{ id := b.next, topics }] := by
  change (BusCommand.perform b (.subscribe topics)).numbered b.next = _
  rw [numbered_perform, h.numbered_eq_nil (Nat.le_refl _)]
  simp [made]

theorem InOrder.numbered_eq (h : b.InOrder) (hs : s ∈ b.subscriptions) :
    b.numbered s.id = [s] := by
  have hnodup : (b.subscriptions.map Subscription.id).Nodup := by
    rw [show b.subscriptions.map Subscription.id = List.range b.next from h]
    exact List.nodup_range
  obtain ⟨before, after, hsplit⟩ := List.append_of_mem hs
  rw [hsplit, List.map_append, List.map_cons, List.nodup_append, List.nodup_cons] at hnodup
  obtain ⟨-, ⟨hafter, -⟩, hbefore⟩ := hnodup
  have hnone : ∀ others : List Subscription, (∀ t ∈ others, t.id ≠ s.id) →
      others.filter (fun t => decide (t.id = s.id)) = [] := fun others hothers =>
    List.filter_eq_nil_iff.2 fun t ht => by simpa using hothers t ht
  rw [numbered, hsplit, List.filter_append,
    List.filter_cons_of_pos (by exact decide_eq_true rfl),
    hnone before fun t ht => hbefore t.id (List.mem_map_of_mem ht) s.id List.mem_cons_self,
    hnone after fun t ht hid => hafter (hid ▸ List.mem_map_of_mem ht), List.nil_append]

theorem queued_eq (h : b.numbered number = [s]) : b.queued number = s.inbox := by
  change (b.numbered number).flatMap Subscription.inbox = s.inbox
  rw [h, List.flatMap_singleton]

/-! ## From the beginning -/

theorem inOrder_empty : ({} : Bus).InOrder := rfl

theorem inOrder_performAll (history : List BusCommand) : (({} : Bus).performAll history).InOrder :=
  inOrder_empty.performAll history

theorem next_eq (history : List BusCommand) :
    (({} : Bus).performAll history).next = numberAfter history := by
  rw [next_performAll]
  exact Nat.zero_add _

/-- Every number that was given out belongs to a place of the history. -/
theorem exists_split_of_lt (history : List BusCommand) (h : number < numberAfter history) :
    ∃ before topics after, history = before ++ .subscribe topics :: after ∧
      number = numberAfter before := by
  induction history using List.reverseRecOn with
  | nil => exact absurd h (Nat.not_lt_zero _)
  | append_singleton history c ih =>
    by_cases hearlier : number < numberAfter history
    · obtain ⟨before, topics, after, rfl, hnumber⟩ := ih hearlier
      exact ⟨before, topics, after ++ [c], by simp, hnumber⟩
    · rw [numberAfter_append] at h
      cases c with
      | subscribe topics =>
        have hone : numberAfter [.subscribe topics] = 1 := rfl
        exact ⟨history, topics, [], rfl, by omega⟩
      | publish | unsubscribe | clear | drop | drain => exact absurd h hearlier

theorem topics_foldl (s : Subscription) (history : List BusCommand) :
    (history.foldl Subscription.next s).topics = s.topics := by
  induction history generalizing s with
  | nil => rfl
  | cons c history ih => rw [List.foldl_cons, ih, s.topics_next]

theorem live_foldl (s : Subscription) (history : List BusCommand) :
    (history.foldl Subscription.next s).live = (s.live && history.all fun c => !c.ends s.id) := by
  induction history generalizing s with
  | nil => simp
  | cons c history ih =>
    rw [List.foldl_cons, ih, s.live_next, s.id_next, List.all_cons, Bool.and_assoc]

/-- What becomes of a subscription. -/
theorem numbered_eq_foldl (before : List BusCommand) (topics : List Topic)
    (after : List BusCommand) :
    (({} : Bus).performAll (before ++ .subscribe topics :: after)).numbered (numberAfter before) =
      [after.foldl Subscription.next { id := numberAfter before, topics }] := by
  have hmade := (inOrder_performAll before).numbered_subscribe topics
  have hrun := numbered_performAll_of_lt
    (b := ((({} : Bus).performAll before).subscribe topics).1) (Nat.lt_succ_self _) after
  rw [hmade, next_eq] at hrun
  rw [performAll, List.foldl_append]
  exact hrun

end Bus

end StateAtlas
