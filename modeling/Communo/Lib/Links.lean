import Mathlib

/-! First-in first-out links. A link remembers what went into it and what has
come out; the rest is on its way. -/

namespace Communo.Lib.Links

structure Link (α : Type) where
  sent : List α
  received : List α
  inFlight : List α
  fifo : sent = received ++ inFlight

namespace Link
variable {α : Type}

def idle : Link α where
  sent := []
  received := []
  inFlight := []
  fifo := rfl

def send (link : Link α) (items : List α) : Link α where
  sent := link.sent ++ items
  received := link.received
  inFlight := link.inFlight ++ items
  fifo := by rw [link.fifo, List.append_assoc]

def deliver (link : Link α) (count : Nat) : Link α where
  sent := link.sent
  received := link.received ++ link.inFlight.take count
  inFlight := link.inFlight.drop count
  fifo := by rw [List.append_assoc, List.take_append_drop, link.fifo]

section Fields
variable (link : Link α) (items : List α) (count : Nat)

@[simp] theorem send_sent : (link.send items).sent = link.sent ++ items := rfl

@[simp] theorem send_received : (link.send items).received = link.received := rfl

@[simp] theorem deliver_sent : (link.deliver count).sent = link.sent := rfl

end Fields

theorem deliver_received {link : Link α} {items : List α} (next : items <+: link.inFlight) :
    (link.deliver items.length).received = link.received ++ items := by
  show link.received ++ link.inFlight.take items.length = link.received ++ items
  rw [← List.prefix_iff_eq_take.mp next]

theorem split {β : Type} {related : β → α → Prop} {link : Link α} {entries : List β}
    (paired : List.Forall₂ related entries link.sent) :
    ∃ early late, entries = early ++ late ∧ List.Forall₂ related early link.received ∧
      List.Forall₂ related late link.inFlight := by
  rw [link.fifo] at paired
  exact ⟨_, _, (List.take_append_drop link.received.length entries).symm, List.forall₂_take_append _ _ _ paired,
    List.forall₂_drop_append _ _ _ paired⟩

end Link

end Communo.Lib.Links
