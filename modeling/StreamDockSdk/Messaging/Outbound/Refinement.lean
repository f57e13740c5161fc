import StreamDockSdk.Messaging.Outbound.Coalescing

namespace StreamDockSdk.Messaging

open Automaton

variable {Command Key : Type} [Inhabited Command] [BEq Key]
variable {config : OutboundConfig Command Key}

/-- What `receive` hands out, followed by what is queued, are the accepted
submissions without those that were superseded or removed. -/
structure CommandState.Refines (config : OutboundConfig Command Key)
    (state : CommandState Command) : Prop where
  order : state.kept config = (state.handedOut ++ state.waiting).map (·.number)
  increasing : ((state.handedOut ++ state.waiting).map (·.number)).Pairwise (· < ·)
  carries : ∀ queued ∈ state.handedOut ++ state.waiting, state.Carries queued
  merged : ∀ number acceptance, state.accepted[number]? = some acceptance →
    state.Merged config number acceptance
  apart : ∀ number acceptance earlier, state.accepted[number]? = some acceptance →
    acceptance.supersedes config = some earlier →
    ∀ between, earlier < between → between < number → between ∉ state.kept config
  finished : ∀ departure ∈ state.departures, departure.kind = .finished →
    (state.future departure.queued.completion).future.isSome = true

namespace OutboundWorld

variable {world : OutboundWorld Command}

theorem reachable_sequenced (reachable : (outboundSystem config).Reachable world) :
    world.commands.Sequenced config := by
  apply reachable.invariant_given (Accounted config) fun _ reached => reachable_accounted reached
  · rintro first rfl
    exact ⟨rfl, by simp, by simp, by simp, by simp⟩
  · intro before label after accounted sequenced stepped
    have callOn {completion : Nat} {op : CommandOp}
        (called : before.callOn completion op = some after) : after.commands.Sequenced config := by
      unfold OutboundWorld.callOn at called
      split at called <;> cases called
      exact sequenced
    cases label with
    | tick =>
        cases stepped
        exact sequenced.carry rfl rfl (fun _ _ => rfl) rfl
    | sendAsync command deadline starts =>
        cases stepped
        have sends : before.commands.Sends config command deadline before.threads.length _ :=
          CommandState.sendAsync_cases config command deadline starts before.threads.length
        exact sequenced.sendAsync accounted.represents accounted.departs sends
    | receive =>
        simp only [outboundSystem, OutboundWorld.step, Option.map_eq_some_iff] at stepped
        obtain ⟨⟨commands, submission⟩, received, rfl⟩ := stepped
        exact sequenced.receive received
    | cancel completion => exact callOn stepped
    | startSend completion => exact callOn stepped
    | finish completion error => exact callOn stepped
    | stopAccepting | shutdown =>
        cases stepped
        exact sequenced
    | run thread choice =>
        rcases run_cases stepped with ⟨_, _, _, _, rfl⟩ | ⟨_, _, _, _, _, moves, _, rfl⟩
        · exact sequenced
        · exact sequenced.moves accounted.represents moves

/-- Whatever producers, `cancel`, deadlines and `shutdown` do meanwhile, coalescing
only leaves out submissions that the next one with their key replaced. -/
theorem coalescing_refines_queue (reachable : (outboundSystem config).Reachable world) :
    world.commands.Refines config := by
  have sequenced := reachable_sequenced reachable
  refine ⟨sequenced.order, sequenced.increasing, fun queued member => ?_, sequenced.merged,
    sequenced.apart, (reachable_accounted reachable).cleared.left⟩
  rcases List.mem_append.mp member with handed | waits
  · obtain ⟨departure, within, rfl⟩ := List.mem_map.mp handed
    exact sequenced.departed departure (List.mem_of_mem_filter within)
  · obtain ⟨identity, within, rfl⟩ := List.mem_map.mp waits
    exact sequenced.queued identity within

end OutboundWorld

open OutboundWorld

/-- The second submission joins the first, the third has a deadline. -/
def mergingWorld : OutboundWorld (Nat × Nat) :=
  ((outboundSystem pairConfig).exec {}
    [.sendAsync (1, 3) none true, .sendAsync (1, 4) none true, .sendAsync (1, 2) (some 5) true,
      .receive, .receive]).get (by decide +kernel)

theorem mergingWorld_reachable : (outboundSystem pairConfig).Reachable mergingWorld :=
  System.Reachable.exec (.initial rfl) (Option.some_get _).symm

theorem coalescing_refines_queue_run :
    mergingWorld.commands.handedOut.map (·.command) = [(1, 4), (1, 2)] ∧
      mergingWorld.commands.kept pairConfig = [1, 2] ∧
      (∃ first second, mergingWorld.commands.accepted[0]? = some first ∧
        mergingWorld.commands.accepted[1]? = some second ∧ first.completion = second.completion) := by
  have refines := coalescing_refines_queue mergingWorld_reachable
  have numbers : (mergingWorld.commands.handedOut ++ mergingWorld.commands.waiting).map (·.number) =
      [1, 2] := by decide +kernel
  refine ⟨by decide +kernel, refines.order.trans numbers, ?_⟩
  obtain ⟨second, at_second, supersedes⟩ : ∃ second, mergingWorld.commands.accepted[1]? = some second ∧
      second.supersedes pairConfig = some 0 := by
    refine ⟨mergingWorld.commands.accepted.get ⟨1, by decide +kernel⟩, ?_, by decide +kernel⟩
    exact List.getElem?_eq_getElem _
  cases refines.merged 1 second at_second with
  | alone first =>
      rw [first] at supersedes
      contradiction
  | joined earlier other _ same found shared =>
      rw [supersedes] at same
      cases same
      exact ⟨other, second, found, at_second, shared⟩

/-- The only submission is cancelled while it is queued. -/
def cancelledWorld : OutboundWorld (Nat × Nat) :=
  ((outboundSystem pairConfig).exec {}
    [.sendAsync (1, 3) none true, .cancel 0, .run 0 .proceed, .run 0 .proceed, .run 0 .proceed,
      .run 0 .proceed]).get (by decide +kernel)

/-- Coalescing is not all that keeps an accepted command from `receive`. -/
theorem removal_by_coalescing_alone_fails :
    ¬ ∀ world, (outboundSystem pairConfig).Reachable world → world.commands.queue.queue = [] →
      (∀ stack ∈ world.threads, stack = []) →
      world.commands.handedOut.map (·.number) = (List.range world.commands.accepted.length).filter
        fun number => !(world.commands.superseded pairConfig).contains number := by
  intro claimed
  have equal := claimed cancelledWorld (System.Reachable.exec (.initial rfl) (Option.some_get _).symm)
    (by decide +kernel) (by decide +kernel)
  have nothing : cancelledWorld.commands.handedOut.map (·.number) = [] := by decide +kernel
  have one : ((List.range cancelledWorld.commands.accepted.length).filter
    fun number => !(cancelledWorld.commands.superseded pairConfig).contains number) = [0] := by
    decide +kernel
  rw [nothing, one] at equal
  contradiction

end StreamDockSdk.Messaging
