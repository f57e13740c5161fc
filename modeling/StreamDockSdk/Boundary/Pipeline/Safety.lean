import StreamDockSdk.Boundary.Pipeline.Sends
import StreamDockSdk.Messaging.Outbound.Accounting

namespace StreamDockSdk.Boundary

open Automaton Messaging Transport

variable {Command Key Payload : Type} [Inhabited Command]

/-- What was passed to `send`, against what was accepted, cancelled and completed. -/
structure PipelineState.SendsSafely (config : PipelineConfig Command Key Payload)
    (state : PipelineState Command Payload) (entries : List (QueuedCommand Command)) : Prop where
  passed : state.passed =
    entries.map fun queued => PipelineState.frameOf config ⟨queued.command, queued.completion⟩
  inOrder : (entries.map (·.number)).Pairwise (· < ·)
  once : (entries.map (·.completion)).Nodup
  accepted : ∀ queued ∈ entries, state.commands.Carries queued
  uncancelled : ∀ queued ∈ entries, queued.completion ∉ state.commands.cancelled
  successes : ∀ completion, (state.commands.future completion).future = some none →
    completion ∈ state.returned ∧ ∃ queued ∈ entries, queued.completion = completion

variable [BEq Key] {config : PipelineConfig Command Key Payload}

namespace PipelineWorld

variable {world : PipelineWorld Command Payload}
variable {allowed : PipelineWorld Command Payload → PipelineLabel Command → Prop}

theorem reachable_excludes (reachable : (pipelineSystem config).ReachableBy allowed world) :
    world.state.Excludes (Running world.threads) := by
  refine reachableBy_invariant reachable
    (fun world => world.state.commands.Sound config.outbound ∧ world.state.Lined config)
    (fun _ reached => ⟨reachable_sound reached, reachable_lined reached⟩) ?_ ?_
  · intro running idle
    exact ⟨by simp, by simp, by simp, fun _ => by simp [CommandState.future],
      fun op completion run => absurd run (idle op)⟩
  · intro before label gone state pushed later known _ changes called shifts excludes
    exact excludes.changes known.1 known.2 changes called shifts

theorem reachable_truthful (reachable : (pipelineSystem config).ReachableBy allowed world) :
    world.state.Truthful (Running world.threads) := by
  refine reachableBy_invariant reachable
    (fun world => world.state.commands.Sound config.outbound) (fun _ => reachable_sound) ?_ ?_
  · intro running idle
    exact ⟨by simp, by simp, by simp, fun op completion run => absurd run (idle op),
      by simp [CommandState.future], by simp [CommandState.future], by simp⟩
  · intro before label gone state pushed later sound _ changes called shifts truthful
    exact truthful.changes sound changes called shifts

/-- However producers, cancellations, deadlines, the two workers and the shutdown of
the stages interleave, `send` is called with accepted commands in their order, each
at most once, with none that was cancelled, and a command ends without an exception
only after its `send` returned. -/
theorem pipeline_sends_safely (reachable : (pipelineSystem config).Reachable world) :
    ∃ entries, world.state.SendsSafely config entries := by
  have sound := reachable_sound reachable
  have excludes := reachable_excludes reachable
  have truthful := reachable_truthful reachable
  have before : world.state.passed.Sublist (world.state.handed config) :=
    (List.sublist_append_left _ _).trans (reachable_lined reachable)
  obtain ⟨entries, within, passed⟩ := List.sublist_map_iff.mp before
  refine ⟨entries, passed, ?_, ?_, ?_, ?_, ?_⟩
  · exact sound.handedOut_increasing.sublist (within.map _)
  · exact sound.handedOut_nodup.sublist (within.map _)
  · exact fun queued member => sound.handedOut_carries (within.subset member)
  · intro queued member cancelled
    have sent := excludes.passed (PipelineState.frameOf config ⟨queued.command, queued.completion⟩)
      (passed ▸ List.mem_map_of_mem member)
    rw [show (PipelineState.frameOf config ⟨queued.command, queued.completion⟩).completion =
      queued.completion from rfl, (excludes.cancelled _ cancelled).2] at sent
    contradiction
  · intro completion success
    have returned := truthful.published completion success
    obtain ⟨frame, member, rfl⟩ := truthful.returned completion returned
    rw [passed] at member
    obtain ⟨queued, queued_member, rfl⟩ := List.mem_map.mp member
    exact ⟨returned, queued, queued_member, rfl⟩

end PipelineWorld

open PipelineWorld

/-- A command is its coalescing key and its size, and is its own payload. -/
def pairPipeline : PipelineConfig (Nat × Nat) Nat (Nat × Nat) where
  outbound := pairConfig
  encode := id
  raw := {
    queueLimit := 2
    byteLimit := 20
    maxMessageBytes := 20
    itemSize := fun frame _ => frame.payload.2 }

def writes (count : Nat) : List (PipelineLabel (Nat × Nat)) :=
  List.replicate count (.writer .proceed)

def sends (count : Nat) : List (PipelineLabel (Nat × Nat)) :=
  List.replicate count (.sender .proceed)

def runs (thread count : Nat) : List (PipelineLabel (Nat × Nat)) :=
  List.replicate count (.run thread .proceed)

/-- The second command is cancelled between the two queues. -/
def sentWorld : PipelineWorld (Nat × Nat) (Nat × Nat) :=
  ((pipelineSystem pairPipeline).exec {}
    (([.startWriter, .startSender, .opened, .sendAsync (1, 3) none true, .sendAsync (2, 4) none true] : List (PipelineLabel (Nat × Nat))) ++
      writes 14 ++ ([.cancel 1] : List (PipelineLabel (Nat × Nat))) ++ runs 2 4 ++ writes 2 ++ sends 8 ++ runs 1 8)).get
    (by decide +kernel)

theorem sentWorld_reachable : (pipelineSystem pairPipeline).Reachable sentWorld :=
  System.Reachable.exec (.initial rfl) (Option.some_get _).symm

theorem pipeline_sends_safely_run :
    (∃ entries, sentWorld.state.SendsSafely pairPipeline entries) ∧
      sentWorld.state.passed = [⟨(1, 3), 0⟩] ∧ sentWorld.state.commands.cancelled = [1] ∧
      (sentWorld.state.commands.future 0).future = some none :=
  ⟨pipeline_sends_safely sentWorld_reachable, by decide +kernel, by decide +kernel,
    by decide +kernel⟩

end StreamDockSdk.Boundary
