import Mathlib.Logic.Relation

namespace StreamDockSdk.Traversal

/-! # Traversals that remember what they have seen

A traversal looks at what it can reach from a root.  What it has found and not looked at
yet is its frontier.
-/

variable {Node : Type u} {edge : Node → Node → Prop} {root node : Node}
variable {seen pending nowSeen nowPending : Node → Prop}

/-- Nothing that was seen leads beyond what is seen or pending. -/
structure Frontier (edge : Node → Node → Prop) (root : Node) (seen pending : Node → Prop) :
    Prop where
  begins : seen root ∨ pending root
  closed : ∀ {node next}, seen node → edge node next → seen next ∨ pending next
  reached : ∀ {node}, seen node ∨ pending node → Relation.ReflTransGen edge root node

namespace Frontier

theorem start (empty : ∀ node, ¬seen node) (only : ∀ node, pending node ↔ node = root) :
    Frontier edge root seen pending where
  begins := .inr ((only root).mpr rfl)
  closed was := absurd was (empty _)
  reached := by
    rintro node (was | waits)
    · exact absurd was (empty node)
    · rw [(only node).mp waits]

/-- A pending node is looked at, and what it leads to is put with the pending ones. -/
theorem visit (frontier : Frontier edge root seen pending) (waits : pending node)
    (keeps : ∀ other, seen other ∨ pending other → nowSeen other ∨ nowPending other)
    (follows : ∀ next, edge node next → nowSeen next ∨ nowPending next)
    (marks : ∀ other, nowSeen other → seen other ∨ other = node)
    (adds : ∀ other, nowPending other → pending other ∨ edge node other) :
    Frontier edge root nowSeen nowPending where
  begins := keeps root frontier.begins
  closed {other next} was leads := by
    rcases marks other was with before | rfl
    · exact keeps next (frontier.closed before leads)
    · exact follows next leads
  reached {other} found := by
    rcases found with was | now
    · rcases marks other was with before | rfl
      · exact frontier.reached (.inl before)
      · exact frontier.reached (.inr waits)
    · rcases adds other now with before | leads
      · exact frontier.reached (.inr before)
      · exact (frontier.reached (.inr waits)).tail leads

/-- A pending node is left out that was seen before. -/
theorem skip (frontier : Frontier edge root seen pending)
    (keeps : ∀ other, pending other → seen other ∨ nowPending other)
    (adds : ∀ other, nowPending other → pending other) :
    Frontier edge root seen nowPending where
  begins := frontier.begins.elim .inl (keeps root)
  closed was leads := (frontier.closed was leads).elim .inl (keeps _)
  reached found := frontier.reached (found.imp_right (adds _))

theorem seen_of_reached (frontier : Frontier edge root seen pending)
    (drained : ∀ node, ¬pending node) (reached : Relation.ReflTransGen edge root node) :
    seen node := by
  induction reached with
  | refl => exact frontier.begins.resolve_right (drained root)
  | tail _ leads ih => exact (frontier.closed ih leads).resolve_right (drained _)

/-- A traversal whose pending nodes lead nowhere has come to whatever can be reached. -/
theorem seen_or_pending (frontier : Frontier edge root seen pending)
    (ends : ∀ node next, pending node → ¬edge node next)
    (reached : Relation.ReflTransGen edge root node) : seen node ∨ pending node := by
  induction reached with
  | refl => exact frontier.begins
  | @tail node next _ leads ih =>
      rcases ih with was | waits
      · exact frontier.closed was leads
      · exact absurd leads (ends node next waits)

/-- A traversal with nothing pending has seen what can be reached. -/
theorem seen_iff (frontier : Frontier edge root seen pending)
    (drained : ∀ node, ¬pending node) : seen node ↔ Relation.ReflTransGen edge root node :=
  ⟨fun was => frontier.reached (.inl was), frontier.seen_of_reached drained⟩

end Frontier

end StreamDockSdk.Traversal
