import StateAtlas.Proofs.Sync.Commands
/-!
What reaches the subscribers of a bus over a whole history.

Main statement: `delivers`, everything that a subscriber took or still finds is what was published
and asked for while the subscription lasted, publishing counts those who receive, and nobody hears
more or less because of what becomes of somebody else.
-/

namespace StateAtlas

namespace BusCommand

/-- What a command hands over to the owner of a subscription. -/
def drained (number : Nat) (b : Bus) : BusCommand → List Event
  | .drain n => if number = n then (b.drain n).2 else []
  | _ => []

/-- What was delivered to a subscription and is thrown away with it by a command. -/
def discarded (number : Nat) (b : Bus) : BusCommand → List Event
  | .drop n => if number = n then (b.drain n).2 else []
  | _ => []

/-- Whether a command is about a single subscription, the one of a number. -/
def concerns (number : Nat) : BusCommand → Bool
  | .unsubscribe n | .drop n | .drain n => number = n
  | _ => false

end BusCommand

open BusCommand

namespace Bus

variable {b : Bus} {s : Subscription} {number : Nat} {topics : List Topic}
  {history : List BusCommand}

/-- What the commands of a history yield, one after the other. -/
def collect (yield : Bus → BusCommand → List Event) : Bus → List BusCommand → List Event
  | _, [] => []
  | b, c :: history => yield b c ++ collect yield (c.perform b) history

/-- What is published before a subscription is over, as far as it is asked for. -/
def heard (number : Nat) (topics : List Topic) (history : List BusCommand) : List Event :=
  ((history.takeWhile fun c => !c.ends number).filterMap BusCommand.event?).filter (asked topics)

/-- By a history, the subscription of a number was made for some topics and is not over. -/
def Attends (history : List BusCommand) (number : Nat) (topics : List Topic) : Prop :=
  ∃ before after,
    history = before ++ .subscribe topics :: after ∧ number = numberAfter before ∧
    ∀ c ∈ after, c.ends number = false

/-! ## Delivery -/

theorem collect_append (yield : Bus → BusCommand → List Event) (b : Bus)
    (before after : List BusCommand) :
    b.collect yield (before ++ after) =
      b.collect yield before ++ (b.performAll before).collect yield after := by
  induction before generalizing b with
  | nil => rfl
  | cons c before ih =>
    rw [List.cons_append, collect, collect, ih, List.append_assoc]
    rfl

theorem heard_cons (number : Nat) (topics : List Topic) (c : BusCommand)
    (history : List BusCommand) :
    heard number topics (c :: history) =
      if c.ends number then [] else
        c.event?.toList.filter (asked topics) ++ heard number topics history := by
  unfold heard
  cases hends : c.ends number with
  | true => simp [hends]
  | false =>
    cases hevent : c.event? with
    | none => simp [hends, hevent]
    | some e => by_cases hasked : asked topics e <;> simp [hends, hevent, hasked]

/-- What ends a subscription is no event. -/
theorem event?_of_ends {c : BusCommand} (h : c.ends number = true) : c.event? = none := by
  cases c with
  | publish => exact absurd h Bool.false_ne_true
  | subscribe | unsubscribe | clear | drop | drain => rfl

theorem eq_drop_of_discarded {c : BusCommand} (h : c.discarded number b ≠ []) :
    c = .drop number := by
  cases c with
  | drop n =>
    by_cases hn : number = n
    · rw [hn]
    · simp [discarded, hn] at h
  | subscribe | publish | unsubscribe | clear | drain => exact absurd rfl h

/-- What a command takes from the queue of a subscription and what it leaves there is what it found
there and what it adds. -/
theorem drained_append_inbox (h : b.numbered s.id = [s]) (c : BusCommand)
    (hkept : c.discarded s.id b = []) :
    c.drained s.id b ++ (s.next c).inbox =
      s.inbox ++ if s.live then c.event?.toList.filter (asked s.topics) else [] := by
  have hqueued := queued_eq h
  cases c with
  | publish e => exact s.inbox_deliver e
  | subscribe | clear => simp [drained, Subscription.next, event?]
  | unsubscribe number =>
    by_cases hnumber : s.id = number <;> simp [drained, Subscription.next, event?, hnumber]
  | drop number =>
    by_cases hnumber : s.id = number
    · subst hnumber
      have hinbox : s.inbox = [] := by simpa [discarded, ← hqueued, queued] using hkept
      simp [drained, Subscription.next, event?, hinbox]
    · simp [drained, Subscription.next, event?, hnumber]
  | drain number =>
    by_cases hnumber : s.id = number
    · subst hnumber
      simpa [drained, Subscription.next, event?, queued] using hqueued
    · simp [drained, Subscription.next, event?, hnumber]

/-- **Whoever has a subscription takes, loses with it or still finds what was there and what was
published for as long as it lasted, in order.** -/
theorem collect_eq_heard (h : b.numbered s.id = [s]) (hnumber : s.id < b.next)
    (history : List BusCommand) :
    b.collect (drained s.id) history ++ b.collect (discarded s.id) history ++
        (b.performAll history).queued s.id =
      s.inbox ++ if s.live then heard s.id s.topics history else [] := by
  -- The induction goes over the commands, whatever the queue holds by then.
  induction history generalizing b s with
  | nil => simp [collect, performAll, queued_eq h, heard]
  | cons c history ih =>
    have hnext : (c.perform b).numbered (s.next c).id = [s.next c] := by
      rw [s.id_next, numbered_perform_of_lt hnumber, h, List.map_singleton]
    have hlater := ih hnext (by rw [s.id_next, next_perform]; omega)
    rw [s.id_next, s.topics_next, s.live_next] at hlater
    rw [collect, collect, heard_cons]
    change _ ++ ((c.perform b).performAll history).queued s.id = _
    by_cases hkept : c.discarded s.id b = []
    · rw [hkept, List.nil_append, List.append_assoc, List.append_assoc,
        ← List.append_assoc (collect ..), hlater, ← List.append_assoc,
        drained_append_inbox h c hkept,
        List.append_assoc]
      congr 1
      cases hends : c.ends s.id with
      | true => simp [event?_of_ends hends]
      | false => cases s.live <;> simp
    · -- the queue is dropped with the subscription, and nothing comes after
      obtain rfl := eq_drop_of_discarded hkept
      have hlost : discarded s.id b (.drop s.id) = s.inbox := by
        rw [discarded, if_pos rfl]
        exact queued_eq h
      simp only [Subscription.next, ends, if_pos, decide_true, Bool.not_true, Bool.and_false,
        Bool.false_eq_true, if_false, List.append_nil, List.append_eq_nil_iff] at hlater
      obtain ⟨⟨hdrained, hdiscarded⟩, hqueued⟩ := hlater
      rw [hdrained, hdiscarded, hqueued, hlost]
      simp [drained, ends]

/-- Nothing is taken from a subscription before it is made. -/
theorem InOrder.collect_eq_nil (h : b.InOrder) {yield : Bus → BusCommand → List Event}
    (hyield : ∀ b c, b.queued number = [] → yield b c = []) (history : List BusCommand)
    (hnumber : b.next + numberAfter history ≤ number) : b.collect yield history = [] := by
  induction history generalizing b with
  | nil => rfl
  | cons c history ih =>
    have hcount : numberAfter (c :: history) = numberAfter [c] + numberAfter history :=
      numberAfter_append [c] history
    have hqueued : b.queued number = [] := by
      change (b.numbered number).flatMap Subscription.inbox = []
      rw [h.numbered_eq_nil (by omega), List.flatMap_nil]
    rw [collect, hyield b c hqueued, ih (h.perform c) (by rw [next_perform]; omega),
      List.append_nil]

theorem drained_eq_nil {c : BusCommand} (h : b.queued number = []) : c.drained number b = [] := by
  cases c with
  | drain n =>
    by_cases hn : number = n
    · rwa [drained, if_pos hn, ← hn]
    · rw [drained, if_neg hn]
  | subscribe | publish | unsubscribe | clear | drop => rfl

theorem discarded_eq_nil {c : BusCommand} (h : b.queued number = []) :
    c.discarded number b = [] := by
  cases c with
  | drop n =>
    by_cases hn : number = n
    · rwa [discarded, if_pos hn, ← hn]
    · rw [discarded, if_neg hn]
  | subscribe | publish | unsubscribe | clear | drain => rfl

/-- **What a subscriber took, lost or still finds is what was published and asked for while the
subscription lasted.** -/
theorem collected_eq_heard (before : List BusCommand) (topics : List Topic)
    (after : List BusCommand) :
    let history := before ++ .subscribe topics :: after
    ({} : Bus).collect (drained (numberAfter before)) history ++
        ({} : Bus).collect (discarded (numberAfter before)) history ++
        (({} : Bus).performAll history).queued (numberAfter before) =
      heard (numberAfter before) topics after := by
  intro history
  have hearlier : ∀ yield : Bus → BusCommand → List Event,
      (∀ b c, b.queued (numberAfter before) = [] → yield b c = []) →
      ({} : Bus).collect yield before = [] := fun yield hyield =>
    inOrder_empty.collect_eq_nil hyield before (Nat.le_of_eq (Nat.zero_add _))
  have hnext := next_eq before
  have hmade := (inOrder_performAll before).numbered_subscribe topics
  have hrun : ({} : Bus).performAll history =
      ((({} : Bus).performAll before).subscribe topics).1.performAll after := by
    rw [performAll, List.foldl_append]
    rfl
  have hlater := collect_eq_heard (s := { id := (({} : Bus).performAll before).next, topics })
    hmade (Nat.lt_succ_self _) after
  rw [hnext] at hlater
  rw [collect_append, collect_append, hearlier _ fun b c => drained_eq_nil,
    hearlier _ fun b c => discarded_eq_nil, hrun]
  exact hlater

/-! ## Who receives -/

/-- Those whom an event reaches, in the order in which they subscribed. -/
def receivers (b : Bus) (e : Event) : List Nat :=
  (b.subscriptions.filter fun s => s.receives e.topic).map Subscription.id

theorem nodup_receivers (h : b.InOrder) (e : Event) : (b.receivers e).Nodup := by
  have hsublist : (b.receivers e).Sublist (b.subscriptions.map Subscription.id) :=
    List.filter_sublist.map _
  rw [show b.subscriptions.map Subscription.id = List.range b.next from h] at hsublist
  exact List.nodup_range.sublist hsublist

theorem reach_eq_length (b : Bus) (e : Event) : b.reach e = (b.receivers e).length := by
  rw [receivers, List.length_map]
  exact List.countP_eq_length_filter

theorem receives_eq (s : Subscription) (e : Event) :
    s.receives e.topic = (s.live && asked s.topics e) := by
  unfold Subscription.receives Subscription.live
  rw [Bool.and_right_comm]
  rfl

/-- Whether a number that was given out is among the receivers is up to its subscription alone. -/
theorem InOrder.mem_receivers (h : b.InOrder) (hs : s ∈ b.subscriptions) (e : Event) :
    s.id ∈ b.receivers e ↔ (s.live && asked s.topics e) = true := by
  rw [← receives_eq]
  constructor
  · intro hmem
    obtain ⟨t, ht, hid⟩ := List.mem_map.1 hmem
    obtain ⟨ht, hreceives⟩ := List.mem_filter.1 ht
    have hone := h.numbered_eq hs
    rw [← hid, h.numbered_eq ht] at hone
    exact (List.cons.inj hone).1 ▸ hreceives
  · exact fun hreceives => List.mem_map_of_mem (List.mem_filter.2 ⟨hs, hreceives⟩)

theorem exists_mem_of_lt (h : b.InOrder) (hnumber : number < b.next) :
    ∃ s ∈ b.subscriptions, s.id = number := by
  have hmem : number ∈ b.subscriptions.map Subscription.id := by
    rw [show b.subscriptions.map Subscription.id = List.range b.next from h]
    exact List.mem_range.2 hnumber
  exact List.mem_map.1 hmem

/-- An event is put into the queues of its receivers and into no others. -/
theorem InOrder.queued_publish (h : b.InOrder) (e : Event) (number : Nat) :
    (b.publish e).queued number =
      b.queued number ++ if number ∈ b.receivers e then [e] else [] := by
  have hpublish : (b.publish e).numbered number =
      (b.numbered number).map (Subscription.deliver · e) := by
    change (BusCommand.perform b (.publish e)).numbered number = _
    rw [numbered_perform]
    exact List.append_nil _
  rcases Nat.lt_or_ge number b.next with hlt | hge
  · obtain ⟨s, hs, rfl⟩ := exists_mem_of_lt h hlt
    rw [h.numbered_eq hs, List.map_singleton] at hpublish
    rw [queued_eq hpublish, queued_eq (h.numbered_eq hs), s.inbox_deliver]
    congr 1
    cases hlive : s.live <;> cases hasked : asked s.topics e <;>
      simp [h.mem_receivers hs e, hlive, hasked]
  · have hnone := h.numbered_eq_nil hge
    have hnot : number ∉ b.receivers e := by
      intro hmem
      obtain ⟨s, hs, hid⟩ := List.mem_map.1 hmem
      have hs : s ∈ b.numbered number := mem_numbered.2 ⟨(List.mem_filter.1 hs).1, hid⟩
      rw [hnone] at hs
      exact absurd hs List.not_mem_nil
    rw [hnone] at hpublish
    rw [if_neg hnot, List.append_nil]
    change ((b.publish e).numbered number).flatMap _ = (b.numbered number).flatMap _
    rw [hpublish, hnone, List.map_nil]

/-- **An event reaches those who subscribed to its topic and are still there.** -/
theorem mem_receivers_iff (history : List BusCommand) (e : Event) (number : Nat) :
    number ∈ (({} : Bus).performAll history).receivers e ↔
      ∃ topics, Attends history number topics ∧ asked topics e = true := by
  have horder := inOrder_performAll history
  -- what a place of the history says about the receivers
  have hplace : ∀ before topics after, history = before ++ .subscribe topics :: after →
      (numberAfter before ∈ (({} : Bus).performAll history).receivers e ↔
        (∀ c ∈ after, c.ends (numberAfter before) = false) ∧ asked topics e = true) := by
    rintro before topics after rfl
    obtain ⟨hs, hid⟩ := mem_numbered.1 <|
      (numbered_eq_foldl before topics after).symm ▸ List.mem_singleton_self _
    have hmem := horder.mem_receivers hs e
    rw [hid, live_foldl, topics_foldl] at hmem
    simpa [Subscription.live] using hmem
  constructor
  · intro hmem
    have hlt : number < numberAfter history := by
      obtain ⟨s, hs, rfl⟩ := List.mem_map.1 hmem
      have hid := List.mem_map_of_mem (f := Subscription.id) (List.mem_filter.1 hs).1
      rw [show _ = List.range _ from horder, next_eq] at hid
      exact List.mem_range.1 hid
    obtain ⟨before, topics, after, hsplit, rfl⟩ := exists_split_of_lt history hlt
    obtain ⟨hlasts, hasked⟩ := (hplace before topics after hsplit).1 hmem
    exact ⟨topics, ⟨before, after, hsplit, rfl, hlasts⟩, hasked⟩
  · rintro ⟨topics, ⟨before, after, hsplit, rfl, hlasts⟩, hasked⟩
    exact (hplace before topics after hsplit).2 ⟨hlasts, hasked⟩

/-! ## Subscribers among themselves -/

/-- What is about one subscription leaves every other one. -/
theorem next_of_concerns {other : Nat} {c : BusCommand} (hc : c.concerns other = true)
    (hs : s.id ≠ other) : s.next c = s := by
  cases c with
  | unsubscribe n | drop n | drain n =>
    obtain rfl : other = n := of_decide_eq_true hc
    exact if_neg hs
  | subscribe | publish | clear => exact absurd hc Bool.false_ne_true

theorem perform_of_concerns {other : Nat} {c : BusCommand} (hc : c.concerns other = true)
    (hnumber : number ≠ other) (b : Bus) :
    (c.perform b).numbered number = b.numbered number ∧ (c.perform b).next = b.next ∧
      c.drained number b = [] := by
  have hsame : (b.numbered number).map (Subscription.next · c) = b.numbered number := by
    rw [List.map_congr_left fun s hs => ?_, List.map_id]
    exact next_of_concerns hc ((mem_numbered.1 hs).2.symm ▸ hnumber)
  cases c with
  | unsubscribe n | drop n | drain n =>
    obtain rfl : other = n := of_decide_eq_true hc
    refine ⟨?_, rfl, by simp [drained, hnumber]⟩
    rw [numbered_perform, hsame]
    exact List.append_nil _
  | subscribe | publish | clear => exact absurd hc Bool.false_ne_true

theorem drained_congr {b₁ b₂ : Bus} (h : b₁.numbered number = b₂.numbered number)
    (c : BusCommand) : c.drained number b₁ = c.drained number b₂ := by
  cases c with
  | drain n =>
    by_cases hn : number = n
    · subst hn
      rw [drained, drained, if_pos rfl, if_pos rfl]
      exact congrArg (List.flatMap Subscription.inbox) h
    · rw [drained, drained, if_neg hn, if_neg hn]
  | subscribe | publish | unsubscribe | clear | drop => rfl

/-- **Nobody hears more or less because of what becomes of somebody else.** -/
theorem performAll_without {other : Nat} (hnumber : number ≠ other) {b₁ b₂ : Bus}
    (hnumbered : b₁.numbered number = b₂.numbered number) (hnext : b₁.next = b₂.next)
    (history : List BusCommand) :
    let others := history.filter fun c => !c.concerns other
    (b₁.performAll history).numbered number = (b₂.performAll others).numbered number ∧
      b₁.collect (drained number) history = b₂.collect (drained number) others := by
  -- A command that concerns the other one leaves this row alone, so that it can be left out.
  induction history generalizing b₁ b₂ with
  | nil => exact ⟨hnumbered, rfl⟩
  | cons c history ih =>
    cases hc : c.concerns other with
    | true =>
      obtain ⟨hkept, hnextKept, hnothing⟩ := perform_of_concerns hc hnumber b₁
      simp only [List.filter_cons, hc, Bool.not_true, Bool.false_eq_true, if_false, collect,
        hnothing, List.nil_append]
      exact ih (hkept.trans hnumbered) (hnextKept.trans hnext)
    | false =>
      have hmade : b₁.made c = b₂.made c := by
        cases c with
        | subscribe topics => rw [made, made, hnext]
        | publish | unsubscribe | clear | drop | drain => rfl
      have hkept : (c.perform b₁).numbered number = (c.perform b₂).numbered number := by
        rw [numbered_perform, numbered_perform, hnumbered, hmade]
      have hnextKept : (c.perform b₁).next = (c.perform b₂).next := by
        rw [next_perform, next_perform, hnext]
      simp only [List.filter_cons, hc, Bool.not_false, if_true, collect,
        drained_congr hnumbered c]
      obtain ⟨hrow, hdrained⟩ := ih hkept hnextKept
      exact ⟨hrow, congrArg _ hdrained⟩

/-! ## Exactly once, in order, without replay -/

/-- What a history means for those who subscribed. -/
structure Delivers (history : List BusCommand) : Prop where
  /-- What a subscriber drained, then what was thrown away with the subscription when it was
  dropped, then what is queued still, is what was published and asked for from when the subscription
  was made until it was over. -/
  once : ∀ before topics after, history = before ++ .subscribe topics :: after →
    ({} : Bus).collect (drained (numberAfter before)) history ++
        ({} : Bus).collect (discarded (numberAfter before)) history ++
        (({} : Bus).performAll history).queued (numberAfter before) =
      heard (numberAfter before) topics after
  /-- Publishing returns how many there are who subscribed to the topic and are still there, and
  these are the ones that find the event in their queues. -/
  counted : ∀ e, ∃ numbers : List Nat, numbers.Nodup ∧
    (({} : Bus).performAll history).reach e = numbers.length ∧
    (∀ number, number ∈ numbers ↔
      ∃ topics, Attends history number topics ∧ asked topics e = true) ∧
    ∀ number, ((({} : Bus).performAll history).publish e).queued number =
      (({} : Bus).performAll history).queued number ++ if number ∈ numbers then [e] else []
  /-- Had nothing been done to one subscription, any other would be the same and would have been
  handed the same. -/
  apart : ∀ number other, number ≠ other →
    let others := history.filter fun c => !c.concerns other
    (({} : Bus).performAll history).numbered number =
        (({} : Bus).performAll others).numbered number ∧
      ({} : Bus).collect (drained number) history = ({} : Bus).collect (drained number) others

/-- **Delivery is exactly once, in order and without replay.**  Of what is published, every
subscriber is given what was asked for while the subscription lasts and nothing else, whatever
becomes of the others. -/
theorem delivers (history : List BusCommand) : Delivers history where
  once := by
    rintro before topics after rfl
    exact collected_eq_heard before topics after
  counted e :=
    have horder := inOrder_performAll history
    ⟨_, nodup_receivers horder e, reach_eq_length _ e, mem_receivers_iff history e,
      horder.queued_publish e⟩
  apart _ _ hnumber := performAll_without hnumber rfl rfl history

end Bus

end StateAtlas
