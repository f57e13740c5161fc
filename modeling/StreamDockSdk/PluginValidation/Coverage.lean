import Mathlib.Algebra.BigOperators.Group.Finset.Basic
import Mathlib.Algebra.Order.BigOperators.Group.Finset
import StreamDockSdk.PluginValidation.Checks
import StreamDockSdk.Traversal

namespace StreamDockSdk.PluginValidation

open Filesystem

theorem splitOn_text {names : List PathText} (below : names ≠ []) :
    (normalize ([slash].intercalate names)).splitOn slash =
      names.flatMap fun name => (normalize name).splitOn slash := by
  induction names with
  | nil => exact absurd rfl below
  | cons name rest ih =>
      cases rest with
      | nil => simp
      | cons next others =>
          have joined : normalize ([slash].intercalate (name :: next :: others)) =
              normalize name ++ slash :: normalize ([slash].intercalate (next :: others)) := by
            rw [List.intercalate_cons_cons]
            simp [normalize]
          rw [joined, List.splitOn_append_cons_self, ih (List.cons_ne_nil _ _)]
          rfl

theorem textOf_eq {names : List PathText} (below : names ≠ []) :
    textOf names = [slash].intercalate names := by
  cases names with
  | nil => exact absurd rfl below
  | cons name rest => rfl

theorem partsOf_text {names : List PathText} (below : names ≠ []) :
    partsOf (normalize (textOf names)) =
      names.flatMap fun name => ((normalize name).splitOn slash).filterMap partOf := by
  rw [textOf_eq below, partsOf, splitOn_text below, List.filterMap_flatMap]

theorem nameOf_client {source : List PathText} {directory : Place}
    (client : source.getLast? = some clientFilename) :
    nameOf directory (partsOf (normalize (textOf source))) = clientFilename := by
  obtain ⟨above, rfl⟩ := List.getLast?_eq_some_iff.mp client
  have last : ((normalize clientFilename).splitOn slash).filterMap partOf =
      [.name clientFilename] := by
    decide +kernel
  rw [partsOf_text (by simp), List.flatMap_append]
  simp [last, nameOf, partText]

variable {Content : Type} {bundle : Bundle Content}

namespace Bundle

/-- Where a path below the root leads. -/
def Reaches (bundle : Bundle Content) (source : List PathText) (place : Place) : Prop :=
  bundle.resolve source = .ok { doubled := false, names := place }

/-- The text of the path leads to the file that the path leads to. -/
def Straight (bundle : Bundle Content) (source : List PathText) : Prop :=
  ∀ target found, bundle.Reaches source target →
    bundle.find bundle.root (some (textOf source)) = .ok found → found = target

/-- A directory of the bundle. -/
def Scannable (bundle : Bundle Content) (place : Place) : Prop :=
  bundle.root <+: place ∧ bundle.files.isDirectory place = .ok true

/-- From a directory to one that an entry of it leads to. -/
def Leads (bundle : Bundle Content) (place next : Place) : Prop :=
  ∃ names, bundle.files.list place = .ok names ∧ ∃ name ∈ names,
    bundle.files.resolve true ((place ++ [name]).map .name) =
      .ok { doubled := false, names := next } ∧ bundle.Scannable next

/-- The file of the client was compared, or an issue was reported for the entry or for the file
that it leads to. -/
def Accounted (bundle : Bundle Content) (validator : PluginValidator)
    (source : List PathText) : Prop :=
  (∃ issue ∈ validator.issues, issue.path = textOf source) ∨
    ∃ target, bundle.Reaches source target ∧ validator.Covered target

/-- What a turn has to settle for the path that it visits. -/
def Handled (bundle : Bundle Content) (validator : PluginValidator)
    (source : List PathText) : Prop :=
  source.getLast? = some clientFilename → bundle.Straight source →
    bundle.Accounted validator source

variable {source : List PathText} {place : Place} {name : PathText}

theorem Accounted.grows {before after : PluginValidator}
    (accounted : bundle.Accounted before source) (grows : Grows before after) :
    bundle.Accounted after source := by
  rcases accounted with ⟨issue, reported, path⟩ | ⟨target, reaches, covered⟩
  · exact .inl ⟨issue, grows.issues issue reported, path⟩
  · exact .inr ⟨target, reaches, grows.covered covered⟩

theorem Reaches.canonical (reaches : bundle.Reaches source place) :
    bundle.files.Canonical place :=
  Tree.resolve_canonical reaches

theorem Reaches.entry (reaches : bundle.Reaches source place) {next : Place} :
    bundle.Reaches (source ++ [name]) next ↔
      bundle.files.resolve true ((place ++ [name]).map .name) =
        .ok { doubled := false, names := next } := by
  unfold Reaches resolve
  rw [← List.append_assoc, List.map_append]
  exact Tree.resolve_entry reaches

/-- A path whose entries can be listed is listed as the place that it leads to. -/
theorem Reaches.lists (reaches : bundle.Reaches source place) {names : List PathText}
    (lists : bundle.files.list (bundle.root ++ source) = .ok names) :
    bundle.files.list place = .ok names ∧ names = bundle.files.entries place := by
  obtain ⟨found, stat, rfl⟩ := Tree.list_eq_ok lists
  obtain rfl : found = place := Tree.stat_resolve reaches stat
  exact ⟨(Tree.list_congr (reaches.canonical.stat.trans stat.symm)).trans lists, rfl⟩

/-- How a path in the bundle was looked at. -/
inductive Scanned (bundle : Bundle Content) (traversal : BundleTraversal) (place : Place) : Prop
  | listed (source names : List PathText) (reaches : bundle.Reaches source place)
      (entered : source ∈ traversal.entered)
      (lists : bundle.files.list (bundle.root ++ source) = .ok names)
  | refused (source : List PathText) (failure : Failure) (reaches : bundle.Reaches source place)
      (entered : source ∈ traversal.entered)
      (refuses : bundle.files.list (bundle.root ++ source) = .error failure) (issue : Issue)
      (reported : issue ∈ traversal.validator.issues) (path : issue.path = textOf source)

def Pending (bundle : Bundle Content) (traversal : BundleTraversal) (place : Place) : Prop :=
  ∃ source ∈ traversal.pending, bundle.Reaches source place ∧ bundle.Scannable place

/-- The entries of the place are known. -/
def Listed (bundle : Bundle Content) (traversal : BundleTraversal) (place : Place) : Prop :=
  ∃ source ∈ traversal.entered, bundle.Reaches source place ∧
    ∃ names, bundle.files.list (bundle.root ++ source) = .ok names

/-- The entries of the place were asked for in vain. -/
def Refused (bundle : Bundle Content) (traversal : BundleTraversal) (place : Place) : Prop :=
  ∃ source ∈ traversal.entered, bundle.Reaches source place ∧
    ∃ failure, bundle.files.list (bundle.root ++ source) = .error failure

variable {before traversal after : BundleTraversal}

theorem Scanned.later (scanned : bundle.Scanned before place)
    (sources : ∀ source ∈ before.entered, source ∈ after.entered)
    (grows : Grows before.validator after.validator) : bundle.Scanned after place := by
  cases scanned with
  | listed source names reaches entered lists =>
      exact .listed source names reaches (sources source entered) lists
  | refused source failure reaches entered refuses issue reported path =>
      exact .refused source failure reaches (sources source entered) refuses issue
        (grows.issues issue reported) path

theorem Scanned.listed_or_refused (scanned : bundle.Scanned traversal place) :
    bundle.Listed traversal place ∨ bundle.Refused traversal place := by
  cases scanned with
  | listed source names reaches entered lists =>
      exact .inl ⟨source, entered, reaches, names, lists⟩
  | refused source failure reaches entered refuses issue reported path =>
      exact .inr ⟨source, entered, reaches, failure, refuses⟩

/-- What the traversal has settled so far. -/
structure Covers (bundle : Bundle Content) (traversal : BundleTraversal) : Prop where
  sound : bundle.Sound none traversal.validator
  frontier : Traversal.Frontier bundle.Leads bundle.root (bundle.Listed traversal)
    fun place => bundle.Pending traversal place ∨ bundle.Refused traversal place
  distinct : traversal.checkedDirectories.Nodup
  scanned : ∀ place ∈ traversal.checkedDirectories, bundle.Scanned traversal place
  checked : ∀ source ∈ traversal.entered, ∀ place, bundle.Reaches source place →
    place ∈ traversal.checkedDirectories
  entries : ∀ source ∈ traversal.entered, ∀ names,
    bundle.files.list (bundle.root ++ source) = .ok names → ∀ name ∈ names,
      source ++ [name] ∈ traversal.pending ∨ bundle.Handled traversal.validator (source ++ [name])

/-- What a turn does after the checks of the path that it visits. -/
inductive Turn (bundle : Bundle Content) (source : List PathText)
    (before after : BundleTraversal) : Prop
  | passed (pending : after.pending = before.pending)
      (checked : after.checkedDirectories = before.checkedDirectories)
      (entered : after.entered = before.entered)
      (known : ∀ place, bundle.Reaches source place → bundle.Scannable place →
        place ∈ before.checkedDirectories)
  | refused (place : Place) (failure : Failure) (reaches : bundle.Reaches source place)
      (scannable : bundle.Scannable place) (new : place ∉ before.checkedDirectories)
      (refuses : bundle.files.list (bundle.root ++ source) = .error failure)
      (reported : ∃ issue ∈ after.validator.issues, issue.path = textOf source)
      (pending : after.pending = before.pending)
      (checked : after.checkedDirectories = place :: before.checkedDirectories)
      (entered : after.entered = source :: before.entered)
  | listed (place : Place) (names sorted : List PathText) (reaches : bundle.Reaches source place)
      (scannable : bundle.Scannable place) (new : place ∉ before.checkedDirectories)
      (lists : bundle.files.list (bundle.root ++ source) = .ok names) (order : sorted.Perm names)
      (pending : after.pending = sorted.map (source ++ [·]) ++ before.pending)
      (checked : after.checkedDirectories = place :: before.checkedDirectories)
      (entered : after.entered = source :: before.entered)

section Visit

variable [DecidableEq Content] {html : Place → PluginValidator → Option Checked} {bound : Nat}

/-- The checks of a path that leads to a place in the bundle. -/
theorem checkEntry_ends {validator : PluginValidator} (settles : bundle.Settles html bound)
    (sound : bundle.Sound none validator)
    (few : bundle.files.others validator.checkedHtml < bound)
    (reaches : bundle.Reaches source place) :
    ∃ after raised, bundle.checkEntry html source validator = some (after, raised) ∧
      bundle.Ends none validator after raised ∧
      (raised = none ∨ raised = some .assertionError) ∧
      (raised = none → bundle.Handled after source) := by
  unfold checkEntry
  split
  · next client =>
    obtain ⟨after, raised, checked, ends, kind, found⟩ :=
      file_ends (some (textOf source)) (textOf source) bundle.root settles sound few
    refine ⟨after, raised, checked, ends, kind, fun ended _ straight => ?_⟩
    rcases found ended with reported | ⟨target, finds, marks⟩
    · exact .inl reported
    · have same := straight place target reaches finds
      have covered := (ends.sound (by simp [ended])).covered target (marks (nameOf_client client))
      exact .inr ⟨place, reaches, same ▸ covered.resolve_left (by simp)⟩
  · next other =>
    exact ⟨validator, none, rfl, .refl sound, .inl rfl, fun _ client => absurd client other⟩

omit [DecidableEq Content] in
/-- The entries of a new directory are put with what is pending, or an issue is reported. -/
theorem extend_turn {validator : PluginValidator} (reaches : bundle.Reaches source place)
    (scannable : bundle.Scannable place) (new : place ∉ traversal.checkedDirectories)
    (sound : bundle.Sound none validator) (handled : bundle.Handled validator source)
    (extended : bundle.extend source { traversal with
      checkedDirectories := place :: traversal.checkedDirectories, validator } = after) :
    Grows validator after.validator ∧ bundle.Sound none after.validator ∧
      bundle.Handled after.validator source ∧ bundle.Turn source traversal after := by
  subst extended
  unfold extend
  dsimp only
  split
  · next failure refuses =>
    exact ⟨.error, sound.weaken.error, fun client straight => (handled client straight).grows .error,
      .refused place failure reaches scannable new refuses
        ⟨_, PluginValidator.error_reported, rfl⟩ rfl rfl rfl⟩
  · next names lists =>
    exact ⟨.refl, sound, handled, .listed place names _ reaches scannable new lists
      (List.perm_insertionSort _ names) rfl rfl rfl⟩

theorem visit_ends (source : List PathText) (traversal : BundleTraversal)
    (settles : bundle.Settles html bound) (sound : bundle.Sound none traversal.validator)
    (few : bundle.files.others traversal.validator.checkedHtml < bound) :
    ∃ after raised, bundle.visit html source traversal = some (after, raised) ∧
      Grows traversal.validator after.validator ∧ bundle.Confined after.validator ∧
      (raised ≠ none → bundle.Asserts after.validator) ∧
      (raised = none → bundle.Sound none after.validator ∧
        bundle.Handled after.validator source ∧ bundle.Turn source traversal after) := by
  -- An error of its own ends the turn of a path that leads to no new directory.
  have reports {validator : PluginValidator} {complaint : Complaint}
      (grows : Grows traversal.validator validator) (sound : bundle.Sound none validator)
      (known : ∀ place, bundle.Reaches source place → bundle.Scannable place →
        place ∈ traversal.checkedDirectories) :
      ∃ after raised, some ({ traversal with
          validator := validator.error (textOf source) complaint none }, none) =
            some (after, raised) ∧
        Grows traversal.validator after.validator ∧ bundle.Confined after.validator ∧
        (raised ≠ none → bundle.Asserts after.validator) ∧
        (raised = (none : Option Raised) → bundle.Sound none after.validator ∧
          bundle.Handled after.validator source ∧ bundle.Turn source traversal after) := by
    refine ⟨_, none, rfl, grows.trans .error, sound.weaken.error.toConfined, by simp,
      fun _ => ⟨sound.weaken.error, fun _ _ => .inl ⟨_, PluginValidator.error_reported, rfl⟩,
        .passed rfl rfl rfl known⟩⟩
  unfold visit
  dsimp only
  cases resolved : bundle.resolve source with
  | error failure =>
      refine reports .refl sound fun place reaches => ?_
      rw [Reaches, resolved] at reaches
      contradiction
  | ok target =>
      dsimp only
      split
      · next outside =>
        refine reports .refl sound fun place reaches scannable => ?_
        rw [Reaches, resolved] at reaches
        cases reaches
        rw [inside, List.isPrefixOf_iff_prefix.mpr scannable.1] at outside
        contradiction
      · next within =>
        obtain ⟨doubled, place⟩ := target
        simp only [inside, Bool.not_eq_true, Bool.not_eq_false', Bool.and_eq_true,
          List.isPrefixOf_iff_prefix] at within
        obtain rfl : doubled = false := by simpa using within.1
        obtain ⟨validator, raised, checked, ends, kind, handled⟩ :=
          checkEntry_ends settles sound few resolved
        simp only [checked]
        rcases kind with rfl | rfl
        · have fine := ends.sound (by simp)
          cases directory : bundle.files.isDirectory place with
          | error failure =>
              refine reports ends.grows fine fun other reaches scannable => ?_
              rw [Reaches, resolved] at reaches
              cases reaches
              rw [scannable.2] at directory
              contradiction
          | ok isDirectory =>
              dsimp only
              split
              · next enters =>
                have scannable : bundle.Scannable place := ⟨within.2, directory.trans (by rw [enters.1])⟩
                obtain ⟨grows, after, handles, turn⟩ :=
                  extend_turn resolved scannable enters.2 fine (handled rfl) rfl
                exact ⟨_, none, rfl, ends.grows.trans grows, after.toConfined, by simp,
                  fun _ => ⟨after, handles, turn⟩⟩
              · next known =>
                refine ⟨_, none, rfl, ends.grows, fine.toConfined, by simp,
                  fun _ => ⟨fine, handled rfl, .passed rfl rfl rfl ?_⟩⟩
                intro other reaches scannable
                rw [Reaches, resolved] at reaches
                cases reaches
                by_contra new
                exact known ⟨Except.ok.inj (directory.symm.trans scannable.2), new⟩
        · exact ⟨_, _, rfl, ends.grows, ends.confined, fun _ => ends.asserts rfl, by simp⟩

end Visit

/-- Paths to visit, and entries of the directories that were not checked. -/
def remaining (bundle : Bundle Content) (traversal : BundleTraversal) : Nat :=
  traversal.pending.length +
    ∑ place ∈ (bundle.files.nodes.map (·.1)).toFinset \ traversal.checkedDirectories.toFinset,
      (bundle.files.entries place).length

theorem entries_checked {checked : List Place} (reaches : bundle.Reaches source place)
    (scannable : bundle.Scannable place) (new : place ∉ checked) :
    ∑ other ∈ (bundle.files.nodes.map (·.1)).toFinset \ checked.toFinset,
        (bundle.files.entries other).length =
      (bundle.files.entries place).length +
        ∑ other ∈ (bundle.files.nodes.map (·.1)).toFinset \ (place :: checked).toFinset,
          (bundle.files.entries other).length := by
  obtain ⟨found, node, stat, here, _⟩ := Tree.stat_of_isKind scannable.2
  obtain rfl : place = found := Except.ok.inj (reaches.canonical.stat.symm.trans stat)
  have listed : place ∈ (bundle.files.nodes.map (·.1)).toFinset \ checked.toFinset := by
    rw [Finset.mem_sdiff, List.mem_toFinset, List.mem_toFinset]
    exact ⟨Tree.mem_places here, new⟩
  rw [List.toFinset_cons, Finset.sdiff_insert, ← Finset.add_sum_erase _ _ listed]

namespace Turn

theorem fewer (turn : bundle.Turn source traversal after) :
    bundle.remaining after ≤ bundle.remaining traversal := by
  unfold remaining
  cases turn with
  | passed pending checked entered known => rw [pending, checked]
  | refused place failure reaches scannable new refuses reported pending checked entered =>
      have split := entries_checked reaches scannable new
      rw [pending, checked]
      omega
  | listed place names sorted reaches scannable new lists order pending checked entered =>
      have split := entries_checked reaches scannable new
      have all := (reaches.lists lists).2
      have length := order.length_eq
      rw [pending, checked, List.length_append, List.length_map]
      rw [← all] at split
      omega

theorem enters (turn : bundle.Turn source traversal after) :
    ∀ other ∈ traversal.entered, other ∈ after.entered := by
  intro other was
  cases turn with
  | passed pending checked entered known => exact entered ▸ was
  | refused place failure reaches scannable new refuses reported pending checked entered =>
      exact entered ▸ List.mem_cons_of_mem _ was
  | listed place names sorted reaches scannable new lists order pending checked entered =>
      exact entered ▸ List.mem_cons_of_mem _ was

/-- A path whose entries were asked for in vain waits for nothing more. -/
theorem refused_frontier {failure : Failure} (reaches : bundle.Reaches source place)
    (scannable : bundle.Scannable place)
    (refuses : bundle.files.list (bundle.root ++ source) = .error failure)
    (pending : after.pending = traversal.pending)
    (entered : after.entered = source :: traversal.entered)
    (frontier : Traversal.Frontier bundle.Leads bundle.root (bundle.Listed traversal)
      fun place => (bundle.Reaches source place ∧ bundle.Scannable place) ∨
        bundle.Pending traversal place ∨ bundle.Refused traversal place) :
    Traversal.Frontier bundle.Leads bundle.root (bundle.Listed after)
      fun place => bundle.Pending after place ∨ bundle.Refused after place := by
  have enters (path : List PathText) (was : path ∈ traversal.entered) : path ∈ after.entered :=
    entered ▸ List.mem_cons_of_mem _ was
  have refused : bundle.Refused after place :=
    ⟨source, entered ▸ List.mem_cons_self, reaches, failure, refuses⟩
  have listed : bundle.Listed after = bundle.Listed traversal := by
    funext place
    refine propext ⟨fun ⟨path, was, leads, names, lists⟩ => ?_,
      fun ⟨path, was, leads⟩ => ⟨path, enters path was, leads⟩⟩
    rw [entered] at was
    rcases List.mem_cons.mp was with rfl | was
    · rw [refuses] at lists
      contradiction
    · exact ⟨path, was, leads, names, lists⟩
  rw [listed]
  refine frontier.skip ?_ ?_
  · rintro place (⟨leads, _⟩ | ⟨path, member, leads⟩ | ⟨path, was, vain⟩)
    · cases reaches.symm.trans leads
      exact .inr (.inr refused)
    · exact .inr (.inl ⟨path, pending ▸ member, leads⟩)
    · exact .inr (.inr ⟨path, enters path was, vain⟩)
  · rintro place (⟨path, member, leads⟩ | ⟨path, was, leads, vain⟩)
    · exact .inr (.inl ⟨path, pending ▸ member, leads⟩)
    · rw [entered] at was
      rcases List.mem_cons.mp was with rfl | was
      · cases reaches.symm.trans leads
        exact .inl ⟨reaches, scannable⟩
      · exact .inr (.inr ⟨path, was, leads, vain⟩)

/-- The entries of a place are put in front of what is pending. -/
theorem listed_frontier {names sorted : List PathText} (reaches : bundle.Reaches source place)
    (scannable : bundle.Scannable place)
    (lists : bundle.files.list (bundle.root ++ source) = .ok names) (order : sorted.Perm names)
    (pending : after.pending = sorted.map (source ++ [·]) ++ traversal.pending)
    (entered : after.entered = source :: traversal.entered)
    (frontier : Traversal.Frontier bundle.Leads bundle.root (bundle.Listed traversal)
      fun place => (bundle.Reaches source place ∧ bundle.Scannable place) ∨
        bundle.Pending traversal place ∨ bundle.Refused traversal place) :
    Traversal.Frontier bundle.Leads bundle.root (bundle.Listed after)
      fun place => bundle.Pending after place ∨ bundle.Refused after place := by
  have enters (path : List PathText) (was : path ∈ traversal.entered) : path ∈ after.entered :=
    entered ▸ List.mem_cons_of_mem _ was
  have known := reaches.lists lists
  have now : bundle.Listed after place :=
    ⟨source, entered ▸ List.mem_cons_self, reaches, names, lists⟩
  refine frontier.visit (.inl ⟨reaches, scannable⟩) ?_ ?_ ?_ ?_
  · rintro other (⟨path, was, leads⟩ | ⟨leads, _⟩ | ⟨path, member, leads⟩ | ⟨path, was, vain⟩)
    · exact .inl ⟨path, enters path was, leads⟩
    · cases reaches.symm.trans leads
      exact .inl now
    · exact .inr (.inl ⟨path, pending ▸ List.mem_append_right _ member, leads⟩)
    · exact .inr (.inr ⟨path, enters path was, vain⟩)
  · rintro next ⟨others, all, name, member, leads, into⟩
    cases known.1.symm.trans all
    refine .inr (.inl ⟨source ++ [name], ?_, reaches.entry.mpr leads, into⟩)
    rw [pending]
    exact List.mem_append_left _ (List.mem_map_of_mem (order.mem_iff.mpr member))
  · rintro other ⟨path, was, leads, names, lists⟩
    rw [entered] at was
    rcases List.mem_cons.mp was with rfl | was
    · cases reaches.symm.trans leads
      exact .inr rfl
    · exact .inl ⟨path, was, leads, names, lists⟩
  · rintro other (⟨path, member, leads, into⟩ | ⟨path, was, leads, failure, vain⟩)
    · rw [pending] at member
      rcases List.mem_append.mp member with entry | waits
      · obtain ⟨name, listed, rfl⟩ := List.mem_map.mp entry
        exact .inr ⟨names, known.1, name, order.mem_iff.mp listed, reaches.entry.mp leads, into⟩
      · exact .inl (.inr (.inl ⟨path, waits, leads, into⟩))
    · rw [entered] at was
      rcases List.mem_cons.mp was with rfl | was
      · rw [lists] at vain
        contradiction
      · exact .inl (.inr (.inr ⟨path, was, leads, failure, vain⟩))

theorem frontier (turn : bundle.Turn source traversal after)
    (scanned : ∀ place ∈ traversal.checkedDirectories, bundle.Scanned traversal place)
    (frontier : Traversal.Frontier bundle.Leads bundle.root (bundle.Listed traversal)
      fun place => (bundle.Reaches source place ∧ bundle.Scannable place) ∨
        bundle.Pending traversal place ∨ bundle.Refused traversal place) :
    Traversal.Frontier bundle.Leads bundle.root (bundle.Listed after)
      fun place => bundle.Pending after place ∨ bundle.Refused after place := by
  cases turn with
  | passed pending checked entered known =>
      have listed : bundle.Listed after = bundle.Listed traversal := by
        funext place
        rw [Listed, Listed, entered]
      have refused : bundle.Refused after = bundle.Refused traversal := by
        funext place
        rw [Refused, Refused, entered]
      rw [listed, refused]
      refine frontier.skip ?_ ?_
      · rintro place (⟨reaches, scannable⟩ | ⟨other, member, leads⟩ | refused)
        · exact (scanned place (known place reaches scannable)).listed_or_refused.imp_right .inr
        · exact .inr (.inl ⟨other, pending ▸ member, leads⟩)
        · exact .inr (.inr refused)
      · rintro place (⟨other, member, leads⟩ | refused)
        · exact .inr (.inl ⟨other, pending ▸ member, leads⟩)
        · exact .inr (.inr refused)
  | refused visited failure reaches scannable new refuses reported pending checked entered =>
      exact refused_frontier reaches scannable refuses pending entered frontier
  | listed visited names sorted reaches scannable new lists order pending checked entered =>
      exact listed_frontier reaches scannable lists order pending entered frontier

theorem scanned_later (turn : bundle.Turn source traversal after)
    (grows : Grows traversal.validator after.validator)
    (before : ∀ place ∈ traversal.checkedDirectories, bundle.Scanned traversal place) :
    ∀ place ∈ after.checkedDirectories, bundle.Scanned after place := by
  intro place member
  have earlier (was : place ∈ traversal.checkedDirectories) : bundle.Scanned after place :=
    (before place was).later turn.enters grows
  cases turn with
  | passed pending checked entered known => exact earlier (checked ▸ member)
  | refused visited failure reaches scannable new refuses reported pending checked entered =>
      rw [checked] at member
      rcases List.mem_cons.mp member with rfl | was
      · obtain ⟨issue, reported, path⟩ := reported
        exact .refused source failure reaches (entered ▸ List.mem_cons_self) refuses issue reported path
      · exact earlier was
  | listed visited names sorted reaches scannable new lists order pending checked entered =>
      rw [checked] at member
      rcases List.mem_cons.mp member with rfl | was
      · exact .listed source names reaches (entered ▸ List.mem_cons_self) lists
      · exact earlier was

theorem distinct (turn : bundle.Turn source traversal after)
    (before : traversal.checkedDirectories.Nodup) : after.checkedDirectories.Nodup := by
  cases turn with
  | passed pending checked entered known => exact checked ▸ before
  | refused place failure reaches scannable new refuses reported pending checked entered =>
      exact checked ▸ List.nodup_cons.mpr ⟨new, before⟩
  | listed place names sorted reaches scannable new lists order pending checked entered =>
      exact checked ▸ List.nodup_cons.mpr ⟨new, before⟩

/-- What is entered counts as checked. -/
theorem checked (turn : bundle.Turn source traversal after)
    (before : ∀ path ∈ traversal.entered, ∀ place, bundle.Reaches path place →
      place ∈ traversal.checkedDirectories) :
    ∀ path ∈ after.entered, ∀ place, bundle.Reaches path place →
      place ∈ after.checkedDirectories := by
  intro path member place leads
  cases turn with
  | passed pending checked entered known => exact checked ▸ before path (entered ▸ member) place leads
  | refused visited failure reaches scannable new refuses reported pending checked entered =>
      rw [entered] at member
      rcases List.mem_cons.mp member with rfl | was
      · cases reaches.symm.trans leads
        exact checked ▸ List.mem_cons_self
      · exact checked ▸ List.mem_cons_of_mem _ (before path was place leads)
  | listed visited names sorted reaches scannable new lists order pending checked entered =>
      rw [entered] at member
      rcases List.mem_cons.mp member with rfl | was
      · cases reaches.symm.trans leads
        exact checked ▸ List.mem_cons_self
      · exact checked ▸ List.mem_cons_of_mem _ (before path was place leads)

theorem entries (turn : bundle.Turn source traversal after)
    (grows : Grows traversal.validator after.validator)
    (handled : bundle.Handled after.validator source)
    (before : ∀ path ∈ traversal.entered, ∀ names,
      bundle.files.list (bundle.root ++ path) = .ok names → ∀ name ∈ names,
        path ++ [name] ∈ source :: traversal.pending ∨
          bundle.Handled traversal.validator (path ++ [name])) :
    ∀ path ∈ after.entered, ∀ names,
      bundle.files.list (bundle.root ++ path) = .ok names → ∀ name ∈ names,
        path ++ [name] ∈ after.pending ∨ bundle.Handled after.validator (path ++ [name]) := by
  intro path member names lists name listed
  have earlier (was : path ∈ traversal.entered) :
      path ++ [name] ∈ traversal.pending ∨ bundle.Handled after.validator (path ++ [name]) := by
    rcases before path was names lists name listed with waits | done
    · rcases List.mem_cons.mp waits with same | later
      · exact .inr (same ▸ handled)
      · exact .inl later
    · exact .inr fun client straight => (done client straight).grows grows
  cases turn with
  | passed pending checked entered known =>
      rw [pending]
      exact earlier (entered ▸ member)
  | refused visited failure reaches scannable new refuses reported pending checked entered =>
      rw [entered] at member
      rw [pending]
      rcases List.mem_cons.mp member with rfl | was
      · rw [refuses] at lists
        contradiction
      · exact earlier was
  | listed visited others sorted reaches scannable new here order pending checked entered =>
      rw [entered] at member
      rw [pending]
      rcases List.mem_cons.mp member with rfl | was
      · cases here.symm.trans lists
        exact .inl (List.mem_append_left _ (List.mem_map_of_mem (order.mem_iff.mpr listed)))
      · exact (earlier was).imp_left (List.mem_append_right _)

end Turn

section Run

variable [DecidableEq Content] {html : Place → PluginValidator → Option Checked} {bound : Nat}

/-- A turn keeps what was settled, and leaves less to do. -/
theorem Covers.visit {rest : List (List PathText)} (settles : bundle.Settles html bound)
    (large : bundle.files.reachable.ncard < bound) (covers : bundle.Covers traversal)
    (found : traversal.pending = source :: rest) :
    ∃ after raised, bundle.visit html source { traversal with pending := rest } =
        some (after, raised) ∧
      bundle.Confined after.validator ∧ (raised ≠ none → bundle.Asserts after.validator) ∧
      (raised = none →
        bundle.Covers after ∧ bundle.remaining after < bundle.remaining traversal) := by
  have few : bundle.files.others traversal.validator.checkedHtml < bound :=
    (bundle.files.others_le _).trans_lt large
  obtain ⟨after, raised, visited, grows, confined, asserts, ended⟩ :=
    visit_ends source { traversal with pending := rest } settles covers.sound few
  refine ⟨after, raised, visited, confined, asserts, fun none => ?_⟩
  obtain ⟨sound, handled, turn⟩ := ended none
  have scanned (place : Place) (member : place ∈ traversal.checkedDirectories) :
      bundle.Scanned { traversal with pending := rest } place :=
    (covers.scanned place member).later (fun _ => id) .refl
  refine ⟨⟨sound, turn.frontier scanned ?_, turn.distinct covers.distinct,
    turn.scanned_later grows scanned, turn.checked covers.checked,
    turn.entries grows handled (found ▸ covers.entries)⟩, ?_⟩
  · refine covers.frontier.skip ?_ ?_
    · rintro place (⟨path, member, leads⟩ | refused)
      · rw [found] at member
        rcases List.mem_cons.mp member with rfl | later
        · exact .inr (.inl leads)
        · exact .inr (.inr (.inl ⟨path, later, leads⟩))
      · exact .inr (.inr (.inr refused))
    · rintro place (leads | ⟨path, later, leads⟩ | refused)
      · exact .inl ⟨source, found ▸ List.mem_cons_self, leads⟩
      · exact .inl ⟨path, found ▸ List.mem_cons_of_mem _ later, leads⟩
      · exact .inr refused
  · have less := turn.fewer
    unfold remaining at less ⊢
    simp only [found, List.length_cons] at less ⊢
    omega

theorem Covers.traverse {turns : Nat} (settles : bundle.Settles html bound)
    (large : bundle.files.reachable.ncard < bound) (covers : bundle.Covers traversal)
    (enough : bundle.remaining traversal < turns) :
    ∃ after raised, bundle.traverse html turns traversal = some (after, raised) ∧
      bundle.Confined after.validator ∧ (raised ≠ none → bundle.Asserts after.validator) ∧
      (raised = none → bundle.Covers after ∧ after.pending = []) := by
  induction turns generalizing traversal with
  | zero => exact absurd enough (Nat.not_lt_zero _)
  | succ turns ih =>
      unfold Bundle.traverse
      cases found : traversal.pending with
      | nil =>
          exact ⟨traversal, none, rfl, covers.sound.toConfined, by simp, fun _ => ⟨covers, found⟩⟩
      | cons source rest =>
          obtain ⟨next, raised, visited, confined, asserts, ended⟩ :=
            covers.visit settles large found
          simp only [visited]
          cases raised with
          | some raised => exact ⟨next, some raised, rfl, confined, asserts, by simp⟩
          | none =>
              obtain ⟨nextCovers, less⟩ := ended rfl
              exact ih nextCovers (by omega)

end Run

theorem root_reached : bundle.Reaches [] bundle.root := by
  unfold Reaches resolve
  rw [List.append_nil]
  exact bundle.resolved

theorem Covers.start {validator : PluginValidator} (sound : bundle.Sound none validator) :
    bundle.Covers (begin validator) where
  sound := sound
  frontier := by
    refine .start (by simp [Listed, begin]) fun place => ?_
    constructor
    · rintro (⟨source, member, reaches, _⟩ | ⟨source, member, _⟩)
      · cases List.mem_singleton.mp member
        exact congrArg ResolvedPath.names (Except.ok.inj (reaches.symm.trans root_reached))
      · cases member
    · rintro rfl
      exact .inl ⟨[], List.mem_singleton_self _, root_reached, List.prefix_rfl, bundle.isDirectory⟩
  distinct := List.nodup_nil
  scanned := by simp [begin]
  checked := by simp [begin]
  entries := by simp [begin]

/-- How much fuel the checks of a bundle need at most. -/
noncomputable def work (bundle : Bundle Content) : Nat :=
  bundle.files.reachable.ncard + 2 +
    ∑ place ∈ (bundle.files.nodes.map (·.1)).toFinset, (bundle.files.entries place).length

/-- What the checks have looked at when they end without an exception. -/
structure Complete (bundle : Bundle Content) (final : BundleTraversal) : Prop where
  once : final.checkedDirectories.Nodup
  scanned : ∀ place ∈ final.checkedDirectories, bundle.Scanned final place
  /-- Unless the kernel fails on a path of a directory, or gives up on its links, each directory
  that can be reached is looked at. -/
  reached : (∀ source ∈ final.entered, ∀ place, bundle.Reaches source place →
      bundle.files.stat (bundle.root ++ source) = .ok place) →
    ∀ place, Relation.ReflTransGen bundle.Leads bundle.root place →
      place ∈ final.checkedDirectories
  clients : ∀ source ∈ final.entered, ∀ names,
    bundle.files.list (bundle.root ++ source) = .ok names → clientFilename ∈ names →
      bundle.Straight (source ++ [clientFilename]) →
        bundle.Accounted final.validator (source ++ [clientFilename])

theorem Covers.complete (covers : bundle.Covers traversal) (drained : traversal.pending = []) :
    bundle.Complete traversal where
  once := covers.distinct
  scanned := covers.scanned
  reached := by
    intro kernel place reached
    have nothing (place next : Place)
        (waits : bundle.Pending traversal place ∨ bundle.Refused traversal place) :
        ¬bundle.Leads place next := by
      rintro ⟨names, lists, _⟩
      rcases waits with ⟨source, member, _⟩ | ⟨source, entered, reaches, failure, refuses⟩
      · rw [drained] at member
        cases member
      · have same := Tree.list_congr
          ((kernel source entered place reaches).trans reaches.canonical.stat.symm)
        rw [same, lists] at refuses
        contradiction
    rcases covers.frontier.seen_or_pending nothing reached with
      ⟨source, entered, reaches, _⟩ | ⟨source, member, _⟩ | ⟨source, entered, reaches, _⟩
    · exact covers.checked source entered place reaches
    · rw [drained] at member
      cases member
    · exact covers.checked source entered place reaches
  clients := by
    intro source entered names lists listed
    rcases covers.entries source entered names lists _ listed with waits | handled
    · rw [drained] at waits
      cases waits
    · exact handled (List.getLast?_concat ..)

/-- What is read lies in the bundle, and nothing is parsed twice, as far as no loop of links is
met on the way to it. -/
structure Safe (bundle : Bundle Content) (validator : PluginValidator) : Prop where
  reads : ∀ target ∈ validator.reads, bundle.root <+: target ∧
    ∃ source ∈ validator.inspected,
      bundle.files.resolve false source = .ok { doubled := false, names := target } ∧
      (bundle.files.Regular source → bundle.files.stat target = .ok target)
  once : validator.parsed.Nodup
  parsed : (∀ source ∈ validator.inspected, bundle.files.Regular source) →
    (validator.parsed.map bundle.files.stat).Nodup

theorem Confined.safe {validator : PluginValidator} (confined : bundle.Confined validator) :
    bundle.Safe validator := by
  have regular {source : List (Filesystem.Part PathText)} {target : Place}
      (holds : bundle.Holds target)
      (resolved : bundle.files.resolve false source = .ok { doubled := false, names := target })
      (regular : bundle.files.Regular source) : bundle.files.stat target = .ok target := by
    obtain ⟨place, stat⟩ := holds.stat
    exact ((regular.resolve resolved).2.of_stat stat).stat
  refine ⟨fun target member => ?_, confined.once, fun all => ?_⟩
  · obtain ⟨holds, source, inspected, resolved⟩ := confined.files target member
    exact ⟨holds.1, source, inspected, resolved, regular holds resolved⟩
  · refine confined.once.map_on fun first member second other same => ?_
    have settled (target : Place) (member : target ∈ validator.parsed) :
        bundle.files.stat target = .ok target := by
      obtain ⟨holds, source, inspected, resolved⟩ := confined.files target (confined.read _ member)
      exact regular holds resolved (all source inspected)
    rw [settled first member, settled second other] at same
    exact Except.ok.inj same

end Bundle

/-- A tree with the limits of Linux. -/
def linuxTree (nodes : List (Place × Node PathText Bool))
    (top : ∃ listable searchable, Filesystem.lookup nodes [] = some (.directory listable searchable))
    (parents : ∀ entry ∈ nodes, entry.1 ≠ [] → ∃ listable searchable,
      Filesystem.lookup nodes entry.1.dropLast = some (.directory listable searchable)) :
    Tree PathText Bool where
  nodes := nodes
  top := top
  parents := parents
  maxLinks := 40
  maxLength := 2048
  longName name := decide (255 < name.length)
  refuses path := if path.length ≤ 2048 then none else some .tooLong
  accepts_top := rfl
  accepts_above above below := by
    simp only [List.length_append, ite_eq_left_iff]
    intro accepted long
    exact accepted (by omega)
  accepts_short path := by simp

/-- A bundle of the tree whose HTML texts hold no references, or make the parser raise. -/
def sampleBundle (files : Tree PathText Bool) (parse : Bool → Parsing)
    (resolved : files.resolve true [.name (Str.ofString "p")] =
      .ok { doubled := false, names := [Str.ofString "p"] })
    (isDirectory : files.isDirectory [Str.ofString "p"] = .ok true)
    (named : ∀ entry ∈ files.nodes, ∀ name ∈ entry.1, IsName name) : Bundle Bool where
  files := files
  root := [Str.ofString "p"]
  resolved := resolved
  isDirectory := isDirectory
  named := named
  sdkClient := true
  parse := parse
  locate := fun _ => .elsewhere

/-- Where the checks of a sample end. -/
def checkedSample (bundle : Bundle Bool) (fields : List (PathText × Option PathText)) :
    BundleTraversal :=
  ((bundle.validateFiles 15 fields).map (·.1)).getD (Bundle.begin .fresh)

/-- Beside a link to itself there is one out of the bundle. -/
def loopBundle : Bundle Bool :=
  sampleBundle (linuxTree
    [([], .directory true true), ([Str.ofString "p"], .directory true true),
      ([Str.ofString "p", Str.ofString "loop"], .link [.name (Str.ofString "loop")]),
      ([Str.ofString "p", Str.ofString "out"],
        .link [.parent, .name (Str.ofString "q")]),
      ([Str.ofString "q"], .directory true true),
      ([Str.ofString "q", Str.ofString "page.html"], .file (some false))]
    (by decide +kernel) (by decide +kernel)) (fun _ => .references [])
    (by decide +kernel) (by decide +kernel) (by decide +kernel)

/-- Behind a loop the links on a path are not followed, and a file outside is read. -/
theorem loop_read_outside :
    ∃ final, loopBundle.validateFiles 15
        [(Str.ofString "Icon", some (Str.ofString "loop/../out/page.html"))] = some (final, none) ∧
      [Str.ofString "p", Str.ofString "out", Str.ofString "page.html"] ∈ final.validator.reads ∧
      loopBundle.files.stat [Str.ofString "p", Str.ofString "out", Str.ofString "page.html"] =
        .ok [Str.ofString "q", Str.ofString "page.html"] ∧
      ¬loopBundle.root <+: [Str.ofString "q", Str.ofString "page.html"] := by
  exact ⟨checkedSample loopBundle
    [(Str.ofString "Icon", some (Str.ofString "loop/../out/page.html"))], by decide +kernel,
    by decide +kernel, by decide +kernel, by decide +kernel⟩

/-- A page holds what the HTML parser raises an exception at. -/
def raisingBundle : Bundle Bool :=
  sampleBundle (linuxTree
    [([], .directory true true), ([Str.ofString "p"], .directory true true),
      ([Str.ofString "p", Str.ofString "page.html"], .file (some false))]
    (by decide +kernel) (by decide +kernel)) (fun _ => .asserts)
    (by decide +kernel) (by decide +kernel) (by decide +kernel)

/-- The exception ends the checks before any directory is looked at. -/
theorem parser_stops_checks :
    ∃ final, raisingBundle.validateFiles 15
        [(Str.ofString "Icon", some (Str.ofString "page.html"))] =
          some (final, some .assertionError) ∧
      final.checkedDirectories = [] := by
  exact ⟨checkedSample raisingBundle [(Str.ofString "Icon", some (Str.ofString "page.html"))],
    by decide +kernel, by decide +kernel⟩

/-- A link to a directory goes back from a file, which the kernel does not. -/
def detourBundle : Bundle Bool :=
  sampleBundle (linuxTree
    [([], .directory true true), ([Str.ofString "p"], .directory true true),
      ([Str.ofString "p", Str.ofString "a"],
        .link [.name (Str.ofString "file"), .parent, .name (Str.ofString "z")]),
      ([Str.ofString "p", Str.ofString "file"], .file none),
      ([Str.ofString "p", Str.ofString "z"], .directory true true),
      ([Str.ofString "p", Str.ofString "z", clientFilename], .file (some false))]
    (by decide +kernel) (by decide +kernel)) (fun _ => .references [])
    (by decide +kernel) (by decide +kernel) (by decide +kernel)

/-- The directory counts as checked by the link, and its entries are never looked at. -/
theorem detour_directory_missed :
    ∃ final, detourBundle.validateFiles 15 [] = some (final, none) ∧
      detourBundle.Leads detourBundle.root [Str.ofString "p", Str.ofString "z"] ∧
      ¬detourBundle.Listed final [Str.ofString "p", Str.ofString "z"] := by
  have entered : (checkedSample detourBundle []).entered =
      [[Str.ofString "a"], []] := by
    decide +kernel
  have root : detourBundle.resolve [] = .ok ⟨false, [Str.ofString "p"]⟩ := by decide +kernel
  have refuses : detourBundle.files.list (detourBundle.root ++ [Str.ofString "a"]) =
      .error .notDirectory := by
    decide +kernel
  refine ⟨checkedSample detourBundle [], by decide +kernel,
    ⟨[Str.ofString "a", Str.ofString "file", Str.ofString "z"], by decide +kernel,
      Str.ofString "z", by decide +kernel, by decide +kernel, by decide +kernel,
      by decide +kernel⟩, ?_⟩
  rintro ⟨source, member, leads, names, lists⟩
  rw [entered] at member
  rcases List.mem_cons.mp member with rfl | member
  · rw [refuses] at lists
    cases lists
  · cases List.mem_singleton.mp member
    cases root.symm.trans leads

end StreamDockSdk.PluginValidation
