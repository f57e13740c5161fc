import StreamDockSdk.Filesystem.Resolution
import StreamDockSdk.PluginValidation

namespace StreamDockSdk.PluginValidation

open Filesystem

/-- Nothing that was found out is forgotten. -/
structure Grows (before after : PluginValidator) : Prop where
  issues : ∀ issue ∈ before.issues, issue ∈ after.issues
  html : ∀ target ∈ before.checkedHtml, target ∈ after.checkedHtml
  clients : ∀ target ∈ before.checkedClients, target ∈ after.checkedClients
  compared : ∀ target ∈ before.compared, target ∈ after.compared
  inspected : ∀ source ∈ before.inspected, source ∈ after.inspected

/-- The file was compared, or an issue was reported for it. -/
def PluginValidator.Covered (validator : PluginValidator) (target : Place) : Prop :=
  target ∈ validator.compared ∨ ∃ issue ∈ validator.issues, issue.about = some target

namespace Grows

variable {before middle after : PluginValidator} {path : PathText} {complaint : Complaint}
variable {about : Option Place} {target : Place}

theorem refl : Grows before before :=
  ⟨fun _ => id, fun _ => id, fun _ => id, fun _ => id, fun _ => id⟩

theorem trans (first : Grows before middle) (second : Grows middle after) : Grows before after where
  issues issue member := second.issues issue (first.issues issue member)
  html target member := second.html target (first.html target member)
  clients target member := second.clients target (first.clients target member)
  compared target member := second.compared target (first.compared target member)
  inspected source member := second.inspected source (first.inspected source member)

theorem error : Grows before (before.error path complaint about) where
  issues _ member := List.mem_append_left _ member
  html _ := id
  clients _ := id
  compared _ := id
  inspected _ := id

theorem covered (grows : Grows before after) (was : before.Covered target) :
    after.Covered target := by
  rcases was with compared | ⟨issue, reported, about⟩
  · exact .inl (grows.compared target compared)
  · exact .inr ⟨issue, grows.issues issue reported, about⟩

end Grows

theorem PluginValidator.error_reported {validator : PluginValidator} {path : PathText}
    {complaint : Complaint} {about : Option Place} :
    { path, complaint, about : Issue } ∈ (validator.error path complaint about).issues :=
  List.mem_append_right _ (List.mem_singleton_self _)

variable {Content : Type} {bundle : Bundle Content}
variable {validator before after : PluginValidator} {target directory : Place} {path : PathText}
variable {html : Place → PluginValidator → Option Checked} {bound : Nat} {raised : Option Raised}
variable {raising : Option Place}

namespace Bundle

/-- A file of the bundle. -/
def Holds (bundle : Bundle Content) (target : Place) : Prop :=
  bundle.root <+: target ∧ bundle.files.isFile target = .ok true

/-- The file was found under a path that was inspected. -/
def Found (bundle : Bundle Content) (validator : PluginValidator) (target : Place) : Prop :=
  ∃ source ∈ validator.inspected,
    bundle.files.resolve false source = .ok { doubled := false, names := target }

/-- The parser raised on a text that was read. -/
def Asserts (bundle : Bundle Content) (validator : PluginValidator) : Prop :=
  ∃ target ∈ validator.parsed, ∃ content, bundle.files.read target = some content ∧
    bundle.parse content = .asserts

/-- Only files of the bundle were read, and each HTML text was parsed once. -/
structure Confined (bundle : Bundle Content) (validator : PluginValidator) : Prop where
  files : ∀ target ∈ validator.reads, bundle.Holds target ∧ bundle.Found validator target
  once : validator.parsed.Nodup
  read : ∀ target ∈ validator.parsed, target ∈ validator.reads
  marked : ∀ target ∈ validator.parsed, target ∈ validator.checkedHtml

/-- Every client that counts as checked is covered, apart from the one whose exception is still
to be reported. -/
structure Sound (bundle : Bundle Content) (raising : Option Place) (validator : PluginValidator) :
    Prop extends bundle.Confined validator where
  covered : ∀ target ∈ validator.checkedClients,
    raising = some target ∨ validator.Covered target

/-- How a check comes to an end. -/
structure Ends (bundle : Bundle Content) (raising : Option Place) (before after : PluginValidator)
    (raised : Option Raised) : Prop where
  grows : Grows before after
  confined : bundle.Confined after
  sound : raised ≠ some .assertionError → bundle.Sound raising after
  asserts : raised = some .assertionError → bundle.Asserts after

theorem Found.grows (found : bundle.Found before target) (grows : Grows before after) :
    bundle.Found after target := by
  obtain ⟨source, inspected, resolved⟩ := found
  exact ⟨source, grows.inspected source inspected, resolved⟩

theorem Holds.stat (holds : bundle.Holds target) : ∃ place, bundle.files.stat target = .ok place := by
  obtain ⟨place, node, found, _⟩ := Tree.stat_of_isKind holds.2
  exact ⟨place, found⟩

theorem Confined.reading (confined : bundle.Confined validator) (holds : bundle.Holds target)
    (found : bundle.Found validator target) :
    ∀ other ∈ (validator.read target).reads,
      bundle.Holds other ∧ bundle.Found validator other := by
  intro other member
  rcases List.mem_append.mp member with before | new
  · exact confined.files other before
  · exact List.mem_singleton.mp new ▸ ⟨holds, found⟩

theorem Confined.inspect (confined : bundle.Confined validator)
    (source : List (Filesystem.Part PathText)) :
    bundle.Confined { validator with inspected := source :: validator.inspected } where
  files target member := by
    obtain ⟨holds, other, inspected, resolved⟩ := confined.files target member
    exact ⟨holds, other, List.mem_cons_of_mem _ inspected, resolved⟩
  once := confined.once
  read := confined.read
  marked := confined.marked

namespace Sound

theorem fresh : bundle.Sound none .fresh where
  files := by simp [PluginValidator.fresh]
  once := List.nodup_nil
  read := by simp [PluginValidator.fresh]
  marked := by simp [PluginValidator.fresh]
  covered := by simp [PluginValidator.fresh]

theorem weaken (sound : bundle.Sound none validator) : bundle.Sound raising validator :=
  { sound with
    covered := fun target checked => .inr ((sound.covered target checked).resolve_left (by simp)) }

theorem error {complaint : Complaint} (sound : bundle.Sound raising validator) :
    bundle.Sound none (validator.error path complaint raising) where
  files := sound.files
  once := sound.once
  read := sound.read
  marked := sound.marked
  covered target checked := by
    rcases sound.covered target checked with same | covered
    · exact .inr (.inr ⟨_, PluginValidator.error_reported, same⟩)
    · exact .inr (Grows.error.covered covered)

theorem inspect (sound : bundle.Sound none validator)
    (source : List (Filesystem.Part PathText)) :
    bundle.Sound none { validator with inspected := source :: validator.inspected } :=
  { sound.toConfined.inspect source with covered := sound.covered }

end Sound

namespace Ends

theorem refl (sound : bundle.Sound none validator) : bundle.Ends none validator validator none :=
  ⟨.refl, sound.toConfined, fun _ => sound, by simp⟩

theorem caught (sound : bundle.Sound raising after) (grows : Grows before after)
    (handled : raised ≠ some .assertionError) : bundle.Ends raising before after raised :=
  ⟨grows, sound.toConfined, fun _ => sound, fun asserts => absurd asserts handled⟩

theorem weaken (ends : bundle.Ends none before after raised) :
    bundle.Ends raising before after raised :=
  { ends with sound := fun handled => (ends.sound handled).weaken }

theorem since {middle : PluginValidator} (grows : Grows before middle)
    (ends : bundle.Ends raising middle after raised) : bundle.Ends raising before after raised :=
  { ends with grows := grows.trans ends.grows }

end Ends

variable [DecidableEq Content]

theorem client_ends (sound : bundle.Sound none validator) (holds : bundle.Holds target)
    (found : bundle.Found validator target)
    (checked : bundle.client target path validator = (after, raised)) :
    bundle.Ends (raised.map fun _ => target) validator after raised ∧
      raised ≠ some .assertionError ∧ target ∈ after.checkedClients ∧
      after.checkedHtml = validator.checkedHtml := by
  unfold client at checked
  split at checked
  · next already =>
    cases checked
    exact ⟨.refl sound, by simp, already, rfl⟩
  · have marks (other : Place) (member : other ∈ target :: validator.checkedClients) :
        other = target ∨ validator.Covered other := by
      rcases List.mem_cons.mp member with same | before
      · exact .inl same
      · exact .inr ((sound.covered other before).resolve_left (by simp))
    have reads (other : Place) (parsed : other ∈ validator.parsed) :
        other ∈ (validator.read target).reads :=
      List.mem_append_left _ (sound.read other parsed)
    dsimp only at checked
    split at checked
    · cases checked
      refine ⟨.caught ⟨⟨sound.reading holds found, sound.once, reads, sound.marked⟩, ?_⟩ ?_ (by simp),
        by simp, List.mem_cons_self, rfl⟩
      · intro other member
        exact (marks other member).imp_left fun same => congrArg some same.symm
      · exact ⟨fun _ => id, fun _ => id, fun _ => List.mem_cons_of_mem _, fun _ => id, fun _ => id⟩
    · have compares : bundle.Sound none
          { validator.read target with
            checkedClients := target :: validator.checkedClients
            compared := target :: validator.compared } := by
        refine ⟨⟨sound.reading holds found, sound.once, reads, sound.marked⟩, ?_⟩
        intro other member
        rcases marks other member with rfl | compared | reported
        · exact .inr (.inl List.mem_cons_self)
        · exact .inr (.inl (List.mem_cons_of_mem _ compared))
        · exact .inr (.inr reported)
      have grows : Grows validator
          { validator.read target with
            checkedClients := target :: validator.checkedClients
            compared := target :: validator.compared } :=
        ⟨fun _ => id, fun _ => id, fun _ => List.mem_cons_of_mem _,
          fun _ => List.mem_cons_of_mem _, fun _ => id⟩
      split at checked
      · cases checked
        exact ⟨.caught compares.weaken.error (grows.trans .error) (by simp), by simp,
          List.mem_cons_self, rfl⟩
      · cases checked
        exact ⟨.caught compares grows (by simp), by simp, List.mem_cons_self, rfl⟩

/-- The check of an HTML file comes to an end when few files are left unchecked. -/
def Settles (bundle : Bundle Content) (html : Place → PluginValidator → Option Checked)
    (bound : Nat) : Prop :=
  ∀ target validator, bundle.Holds target → bundle.Found validator target →
    bundle.Sound none validator → bundle.files.others validator.checkedHtml < bound →
    ∃ after raised, html target validator = some (after, raised) ∧
      bundle.Ends none validator after raised

omit [DecidableEq Content] in
theorem find_eq_ok {value : Option PathText} (found : bundle.find directory value = .ok target) :
    bundle.Holds target ∧
      bundle.files.resolve false (sourceOf directory (value.getD [])) =
        .ok { doubled := false, names := target } := by
  unfold find at found
  split at found
  · cases found
  · next value =>
    split at found
    · cases found
    · split at found
      · cases found
      · split at found
        · cases found
        · next path resolved =>
          split at found
          · cases found
          · next within =>
            split at found
            · cases found
            · cases found
            · next isFile =>
              cases found
              simp only [inside, Bool.not_eq_true, Bool.not_eq_false', Bool.and_eq_true,
                List.isPrefixOf_iff_prefix] at within
              obtain ⟨doubled, names⟩ := path
              obtain rfl : doubled = false := by simpa using within.1
              exact ⟨⟨within.2, isFile⟩, resolved⟩

omit [DecidableEq Content] in
theorem inspectHtml_ends (settles : bundle.Settles html bound)
    (sound : bundle.Sound none validator) (holds : bundle.Holds target)
    (found : bundle.Found validator target)
    (few : bundle.files.others validator.checkedHtml < bound) :
    ∃ after raised, inspectHtml html target validator = some (after, raised) ∧
      bundle.Ends none validator after raised := by
  unfold inspectHtml
  split
  · exact settles target validator holds found sound few
  · exact ⟨validator, none, rfl, .refl sound⟩

theorem inspect_ends (directory : Place) (parts : List (Filesystem.Part PathText))
    (settles : bundle.Settles html bound)
    (sound : bundle.Sound none validator) (holds : bundle.Holds target)
    (found : bundle.Found validator target)
    (few : bundle.files.others validator.checkedHtml < bound) :
    ∃ after raised, bundle.inspect html target directory parts validator = some (after, raised) ∧
      bundle.Ends (raised.map fun _ => target) validator after raised ∧
      (nameOf directory parts = clientFilename → target ∈ after.checkedClients) := by
  unfold inspect
  split
  · cases checked : bundle.client target (bundle.relativeText directory parts) validator with
    | mk middle raised =>
        obtain ⟨first, handled, marked, same⟩ := client_ends sound holds found checked
        cases raised with
        | some raised => exact ⟨middle, some raised, rfl, first, fun _ => marked⟩
        | none =>
            obtain ⟨after, raised, checked, ends⟩ := inspectHtml_ends settles
              (first.sound (by simp)) holds (found.grows first.grows) (by rw [same]; exact few)
            exact ⟨after, raised, checked, (ends.since first.grows).weaken,
              fun _ => ends.grows.clients target marked⟩
  · next other =>
    obtain ⟨after, raised, checked, ends⟩ := inspectHtml_ends settles sound holds found few
    exact ⟨after, raised, checked, ends.weaken,
      fun client => absurd (.inl client) (not_or.mpr (not_or.mp other))⟩

/-- A check of a file ends, and has looked at the file that it found or reported an issue. -/
theorem file_ends (value : Option PathText) (path : PathText) (directory : Place)
    (settles : bundle.Settles html bound) (sound : bundle.Sound none validator)
    (few : bundle.files.others validator.checkedHtml < bound) :
    ∃ after raised, bundle.file html value path directory validator = some (after, raised) ∧
      bundle.Ends none validator after raised ∧
      (raised = none ∨ raised = some .assertionError) ∧
      (raised = none → (∃ issue ∈ after.issues, issue.path = path) ∨
        ∃ target, bundle.find directory value = .ok target ∧
          (nameOf directory (partsOf (normalize (value.getD []))) = clientFilename →
            target ∈ after.checkedClients)) := by
  unfold file
  cases finds : bundle.find directory value with
  | error complaint =>
      exact ⟨_, none, rfl, .caught sound.weaken.error .error (by simp), .inl rfl,
        fun _ => .inl ⟨_, PluginValidator.error_reported, rfl⟩⟩
  | ok target =>
      obtain ⟨holds, resolved⟩ := find_eq_ok finds
      obtain ⟨after, raised, inspected, ends, marked⟩ :=
        inspect_ends directory (partsOf (normalize (value.getD []))) settles
          (sound.inspect (sourceOf directory (value.getD []))) holds
          ⟨_, List.mem_cons_self, resolved⟩ few
      have looks : Grows validator { validator with
          inspected := sourceOf directory (value.getD []) :: validator.inspected } :=
        ⟨fun _ => id, fun _ => id, fun _ => id, fun _ => id, fun _ => List.mem_cons_of_mem _⟩
      have grows := looks.trans ends.grows
      simp only [inspected]
      cases raised with
      | none =>
          exact ⟨after, none, rfl, .caught (ends.sound (by simp)) grows (by simp), .inl rfl,
            fun _ => .inr ⟨target, rfl, marked⟩⟩
      | some raised =>
          cases raised with
          | assertionError =>
              exact ⟨after, _, rfl, ⟨grows, ends.confined, fun handled => absurd rfl handled,
                ends.asserts⟩, .inr rfl, by simp⟩
          | osError | valueError | runtimeError =>
              exact ⟨_, none, rfl,
                .caught (ends.sound (by simp)).error (grows.trans .error) (by simp), .inl rfl,
                fun _ => .inl ⟨_, PluginValidator.error_reported, rfl⟩⟩

end Bundle

end StreamDockSdk.PluginValidation
