import Mathlib.Data.Finset.Card
import StreamDockSdk.Filesystem.Leads
import StreamDockSdk.Filesystem.RealPath

namespace StreamDockSdk.Filesystem.Tree

/-! # What resolved paths are

A path is resolved strictly to where it leads.  Otherwise no link is on the path that comes out,
unless links lead in a circle.
-/

attribute [local simp] joinParts

variable {Name Content : Type} [DecidableEq Name] {tree : Tree Name Content}
variable {path middle reached : List Name} {parts first second rest : List (Part Name)}
variable {name : Name} {target : List (Part Name)} {seen later : Seen Name} {depth deeper : Nat}

/-- What was seen of links that were followed to the end. -/
def SeenHolds (holds : List Name → List Name → Prop) (seen : Seen Name) : Prop :=
  ∀ link place, seen link = some (some place) → holds link place

namespace SeenHolds

variable {holds : List Name → List Name → Prop} {link place : List Name}

omit [DecidableEq Name] in
theorem nothing : SeenHolds holds fun _ => none :=
  fun _ _ seen => by contradiction

theorem follow (known : SeenHolds holds seen) :
    SeenHolds holds (Function.update seen link (some none)) := by
  intro other found is
  by_cases same : other = link
  · subst same
    rw [Function.update_self] at is
    cases is
  · rw [Function.update_of_ne same] at is
    exact known other found is

theorem update (known : SeenHolds holds seen) (here : holds link place) :
    SeenHolds holds (Function.update seen link (some (some place))) := by
  intro other found is
  by_cases same : other = link
  · subst same
    rw [Function.update_self] at is
    cases is
    exact here
  · rw [Function.update_of_ne same] at is
    exact known other found is

end SeenHolds

/-- What was seen is where the links lead. -/
def Sound (tree : Tree Name Content) : Seen Name → Prop :=
  SeenHolds fun link place => ∃ depth, tree.linkLeads depth link = some place

theorem joinParts_sound
    {follow : List Name → List (Part Name) → Seen Name → Except Failure (Joined Name)}
    (follows : ∀ path parts seen joined, tree.Sound seen → follow path parts seen = .ok joined →
      ∃ reached later depth, joined = .settled reached later ∧
        tree.leads depth path parts = some reached ∧ tree.Sound later)
    (sound : tree.Sound seen) {joined : Joined Name}
    (found : tree.joinParts true follow path parts seen = .ok joined) :
    ∃ reached later depth, joined = .settled reached later ∧
      tree.leads depth path parts = some reached ∧ tree.Sound later := by
  induction parts generalizing path seen with
  | nil =>
      cases found
      exact ⟨path, seen, 0, rfl, rfl, sound⟩
  | cons part rest ih =>
      cases part with
      | empty =>
          obtain ⟨reached, later, depth, joins, leads, after⟩ := ih sound found
          exact ⟨reached, later, depth, joins, (leads_skip (.inl rfl)).trans leads, after⟩
      | current =>
          obtain ⟨reached, later, depth, joins, leads, after⟩ := ih sound found
          exact ⟨reached, later, depth, joins, (leads_skip (.inr rfl)).trans leads, after⟩
      | parent =>
          obtain ⟨reached, later, depth, joins, leads, after⟩ := ih sound found
          exact ⟨reached, later, depth, joins, leads_parent.trans leads, after⟩
      | name name =>
          simp only [joinParts, Bool.true_or, if_true] at found
          split at found
          · contradiction
          · next target is =>
            split at found
            · next place cached =>
              obtain ⟨depth, link⟩ := sound _ _ cached
              obtain ⟨reached, later, deeper, joins, leads, after⟩ := ih sound found
              obtain ⟨deepest, leads⟩ := leads_onward is link leads
              exact ⟨reached, later, deepest, joins, leads, after⟩
            · contradiction
            · split at found
              · contradiction
              · next given =>
                obtain ⟨_, _, _, other, _⟩ := follows _ _ _ _ sound.follow given
                contradiction
              · next place cache given =>
                obtain ⟨_, _, depth, same, link, kept⟩ := follows _ _ _ _ sound.follow given
                cases same
                rw [← linkLeads_eq is] at link
                obtain ⟨reached, later, deeper, joins, leads, after⟩ := ih (kept.update ⟨_, link⟩) found
                obtain ⟨deepest, leads⟩ := leads_onward is link leads
                exact ⟨reached, later, deepest, joins, leads, after⟩
          · next node notLink is =>
            obtain ⟨reached, later, depth, joins, leads, after⟩ := ih sound found
            exact ⟨reached, later, depth, joins,
              (leads_real is (Node.isLink_eq_false notLink)).trans leads, after⟩

theorem joinRealPath_sound {joined : Joined Name} (sound : tree.Sound seen)
    (found : tree.joinRealPath true depth path parts seen = .ok joined) :
    ∃ reached later depth, joined = .settled reached later ∧
      tree.leads depth path parts = some reached ∧ tree.Sound later := by
  induction depth generalizing path parts seen joined with
  | zero => exact joinParts_sound (fun _ _ _ _ _ none => by contradiction) sound found
  | succ depth ih => exact joinParts_sound (fun _ _ _ _ => ih) sound found

/-- The same links are being followed. -/
def SameFollowed (before after : Seen Name) : Prop :=
  ∀ link, after link = some none ↔ before link = some none

/-- How many more links can be followed one inside the other. -/
def room (tree : Tree Name Content) (seen : Seen Name) : Nat :=
  ((tree.nodes.map (·.1)).toFinset.filter fun link => seen link ≠ some none).card

/-- The links being followed nest too deep for the depth. -/
def Inside (tree : Tree Name Content) (seen : Seen Name) (depth : Nat) : Prop :=
  ∀ link, seen link = some none → ∀ less < depth, tree.linkLeads less link = none

theorem SameFollowed.room (same : SameFollowed seen later) : tree.room later = tree.room seen := by
  unfold Tree.room
  congr 1
  exact Finset.filter_congr fun link _ => not_congr (same link)

/-- A link that is followed to the end is not being followed any more. -/
theorem SameFollowed.restore {link place : List Name} (unknown : seen link = none)
    (same : SameFollowed (Function.update seen link (some none)) later) :
    SameFollowed seen (Function.update later link (some (some place))) := by
  intro other
  by_cases here : other = link
  · subst here
    rw [Function.update_self, unknown]
    simp
  · rw [Function.update_of_ne here, same other, Function.update_of_ne here]

theorem room_follow {link : List Name} {node : Node Name Content}
    (found : tree.node? link = some node) (free : seen link ≠ some none) :
    tree.room (Function.update seen link (some none)) < tree.room seen := by
  have listed := List.mem_toFinset.mpr (mem_places found)
  refine Finset.card_lt_card ⟨fun other member => ?_, fun all => ?_⟩
  · obtain ⟨known, open_⟩ := Finset.mem_filter.mp member
    refine Finset.mem_filter.mpr ⟨known, ?_⟩
    by_cases same : other = link
    · exact same ▸ free
    · rwa [Function.update_of_ne same] at open_
  · have still := (Finset.mem_filter.mp (all (Finset.mem_filter.mpr ⟨listed, free⟩))).2
    exact still (Function.update_self ..)

theorem room_le (seen : Seen Name) : tree.room seen ≤ tree.nodes.length := by
  refine (Finset.card_filter_le _ _).trans ((List.toFinset_card_le _).trans ?_)
  rw [List.length_map]

/-- Whatever leads somewhere is joined, as no link is met that is being followed. -/
theorem joinParts_complete {free : Nat}
    {follow : List Name → List (Part Name) → Seen Name → Except Failure (Joined Name)}
    (follows : ∀ path parts seen depth reached, tree.room seen < free → tree.Canonical path →
      tree.leads depth path parts = some reached → tree.Sound seen → tree.Inside seen depth →
      ∃ later, follow path parts seen = .ok (.settled reached later) ∧ tree.Sound later ∧
        SameFollowed seen later)
    (fits : tree.room seen ≤ free) (canonical : tree.Canonical path)
    (found : tree.leads depth path parts = some reached) (sound : tree.Sound seen)
    (inside : tree.Inside seen depth) :
    ∃ later, tree.joinParts true follow path parts seen = .ok (.settled reached later) ∧
      tree.Sound later ∧ SameFollowed seen later := by
  induction parts generalizing path seen with
  | nil =>
      obtain ⟨further, eq⟩ := tree.leads_eq_leadsParts depth
      rw [eq] at found
      cases found
      exact ⟨seen, rfl, sound, fun _ => .rfl⟩
  | cons part rest ih =>
      cases part with
      | empty => exact ih fits canonical ((leads_skip (.inl rfl)).symm.trans found) sound inside
      | current => exact ih fits canonical ((leads_skip (.inr rfl)).symm.trans found) sound inside
      | parent => exact ih fits canonical.parent (leads_parent.symm.trans found) sound inside
      | name name =>
          rcases leads_name found with ⟨node, is, real, onward⟩ |
            ⟨target, less, middle, is, rfl, link, onward⟩
          · obtain ⟨later, joins, after⟩ :=
              ih fits (canonical.concat ⟨node, is, real⟩) onward sound inside
            refine ⟨later, ?_, after⟩
            simp only [joinParts, is]
            cases node with
            | file content => exact joins
            | directory listable searchable => exact joins
            | link target => contradiction
          · have reaches : tree.Canonical middle :=
              leads_canonical (start_canonical canonical) ((linkLeads_eq is).symm.trans link)
            simp only [joinParts, is]
            cases cached : seen (path ++ [name]) with
            | some place =>
                cases place with
                | some place =>
                    obtain ⟨deeper, again⟩ := sound _ _ cached
                    cases linkLeads_unique again link
                    exact ih fits reaches onward sound inside
                | none =>
                    have never := inside _ cached less (Nat.lt_succ_self less)
                    rw [never] at link
                    contradiction
            | none =>
                have known : ∃ depth, (tree.linkLeads depth (path ++ [name])).isSome :=
                  ⟨less, Option.isSome_of_eq_some link⟩
                have least := Nat.find_min' known (Option.isSome_of_eq_some link)
                obtain ⟨place, first⟩ := Option.isSome_iff_exists.mp (Nat.find_spec known)
                cases linkLeads_unique first link
                have free : seen (path ++ [name]) ≠ some none := by
                  rw [cached]
                  exact (Option.some_ne_none _).symm
                have fewer :=
                  room_follow (canonical.enters.lstat_iff.mp is).2.2 free
                obtain ⟨later, follows, kept, same⟩ := follows _ _ _ _ _ (fewer.trans_le fits)
                  (start_canonical canonical) ((linkLeads_eq is).symm.trans first) sound.follow
                  fun other active shallow below => by
                    by_cases here : other = path ++ [name]
                    · subst here
                      exact Option.not_isSome_iff_eq_none.mp (Nat.find_min known below)
                    · rw [Function.update_of_ne here] at active
                      exact inside other active shallow (by omega)
                simp only [follows]
                have restored : SameFollowed seen
                    (Function.update later (path ++ [name]) (some (some middle))) :=
                  same.restore cached
                obtain ⟨last, joins, after, still⟩ := ih (restored.room.trans_le fits) reaches onward
                  (kept.update ⟨_, link⟩) fun other active => inside other ((restored other).mp active)
                exact ⟨last, joins, after, fun other => (still other).trans (restored other)⟩

theorem joinRealPath_complete {free : Nat} (fits : tree.room seen ≤ free)
    (canonical : tree.Canonical path) (found : tree.leads depth path parts = some reached)
    (sound : tree.Sound seen) (inside : tree.Inside seen depth) :
    ∃ later, tree.joinRealPath true free path parts seen = .ok (.settled reached later) ∧
      tree.Sound later ∧ SameFollowed seen later := by
  induction free generalizing path parts seen depth reached with
  | zero =>
      exact joinParts_complete (fun _ _ _ _ _ none => absurd none (Nat.not_lt_zero _)) fits canonical
        found sound inside
  | succ free ih =>
      exact joinParts_complete (fun _ _ _ _ _ less => ih (Nat.le_of_lt_succ less)) fits canonical
        found sound inside

/-- A path is resolved strictly to where it leads. -/
theorem resolve_strict_iff {resolved : ResolvedPath Name} :
    tree.resolve true parts = .ok resolved ↔
      resolved.doubled = false ∧ ∃ depth, tree.leads depth [] parts = some resolved.names := by
  unfold resolve realPath
  constructor
  · intro found
    split at found
    · contradiction
    · next joined joins =>
      obtain ⟨reached, later, depth, rfl, leads, _⟩ :=
        joinRealPath_sound .nothing joins
      cases found
      exact ⟨rfl, depth, leads⟩
  · rintro ⟨single, depth, leads⟩
    have sound : tree.Sound fun _ => none := SeenHolds.nothing
    have inside : tree.Inside (fun _ => none) depth := fun _ nothing => by contradiction
    obtain ⟨later, joins, _⟩ := joinRealPath_complete (room_le _) .top leads sound inside
    simp only [joins, if_true, Joined.absolute]
    rw [← single]

/-- What was seen leads to paths without links. -/
def Cached (tree : Tree Name Content) : Seen Name → Prop :=
  SeenHolds fun _ place => tree.Settled place

theorem start_settled (settled : tree.Settled path) : tree.Settled (Part.start target path) := by
  unfold Part.start
  split
  · exact .top
  · exact settled

section Lax

variable {strict : Bool} {joined : Joined Name}
variable {follow further : List Name → List (Part Name) → Seen Name → Except Failure (Joined Name)}

/-- Where no loop is met, the links that were met are followed to the end. -/
theorem joinParts_settled
    (follows : ∀ path parts seen reached later, tree.Settled path → tree.Cached seen →
      follow path parts seen = .ok (.settled reached later) →
      tree.Settled reached ∧ tree.Cached later ∧ SameFollowed seen later)
    (settled : tree.Settled path) (cached : tree.Cached seen)
    (found : tree.joinParts strict follow path parts seen = .ok (.settled reached later)) :
    tree.Settled reached ∧ tree.Cached later ∧ SameFollowed seen later := by
  induction parts generalizing path seen with
  | nil =>
      cases found
      exact ⟨settled, cached, fun _ => .rfl⟩
  | cons part rest ih =>
      cases part with
      | empty => exact ih settled cached found
      | current => exact ih settled cached found
      | parent => exact ih settled.parent cached found
      | name name =>
          simp only [joinParts] at found
          split at found
          · next failure unseen =>
            split at found
            · contradiction
            · refine ih (settled.concat fun target seen => ?_) cached found
              rw [unseen] at seen
              contradiction
          · next target is =>
            split at found
            · next place known => exact ih (cached _ _ known) cached found
            · split at found <;> cases found
            · next unknown =>
              split at found
              · contradiction
              · cases found
              · next place cache given =>
                obtain ⟨reaches, kept, same⟩ :=
                  follows _ _ _ _ _ (start_settled settled) cached.follow given
                obtain ⟨after, still, again⟩ := ih reaches (kept.update reaches) found
                exact ⟨after, still, fun other => (again other).trans (same.restore unknown other)⟩
          · next node notLink is =>
            refine ih (settled.concat fun target seen => ?_) cached found
            cases is.symm.trans seen
            exact notLink target rfl

theorem joinRealPath_settled (settled : tree.Settled path) (cached : tree.Cached seen)
    (found : tree.joinRealPath strict depth path parts seen = .ok (.settled reached later)) :
    tree.Settled reached ∧ tree.Cached later ∧ SameFollowed seen later := by
  induction depth generalizing path parts seen reached later with
  | zero =>
      exact joinParts_settled (fun _ _ _ _ _ _ _ loop => by contradiction) settled cached found
  | succ depth ih => exact joinParts_settled (fun _ _ _ _ _ => ih) settled cached found

/-- No depth beyond the number of links makes a difference. -/
theorem joinParts_deep {free : Nat}
    (follows : ∀ path parts seen, tree.room seen < free → tree.Settled path → tree.Cached seen →
      further path parts seen = follow path parts seen)
    (keeps : ∀ path parts seen reached later, tree.Settled path → tree.Cached seen →
      follow path parts seen = .ok (.settled reached later) →
      tree.Settled reached ∧ tree.Cached later ∧ SameFollowed seen later)
    (fits : tree.room seen ≤ free) (settled : tree.Settled path) (cached : tree.Cached seen) :
    tree.joinParts strict further path parts seen = tree.joinParts strict follow path parts seen := by
  induction parts generalizing path seen with
  | nil => rfl
  | cons part rest ih =>
      cases part with
      | empty => exact ih fits settled cached
      | current => exact ih fits settled cached
      | parent => exact ih fits settled.parent cached
      | name name =>
          simp only [joinParts]
          cases is : tree.lstat (path ++ [name]) with
          | error failure =>
              dsimp only
              split
              · rfl
              · refine ih fits (settled.concat fun target seen => ?_) cached
                rw [is] at seen
                contradiction
          | ok node =>
              cases node with
              | file content =>
                  exact ih fits (settled.concat fun target seen => by simp [is] at seen) cached
              | directory listable searchable =>
                  exact ih fits (settled.concat fun target seen => by simp [is] at seen) cached
              | link target =>
                  dsimp only
                  cases known : seen (path ++ [name]) with
                  | some place =>
                      cases place with
                      | some place => exact ih fits (cached _ _ known) cached
                      | none => rfl
                  | none =>
                      have free : seen (path ++ [name]) ≠ some none := by simp [known]
                      have place := ((settled.of_lstat is).enters.lstat_iff.mp is).2.2
                      have fewer := (room_follow place free).trans_le fits
                      dsimp only
                      rw [follows _ _ _ fewer (start_settled settled) cached.follow]
                      split
                      · rfl
                      · rfl
                      · next place cache given =>
                        obtain ⟨reaches, kept, same⟩ :=
                          keeps _ _ _ _ _ (start_settled settled) cached.follow given
                        exact ih ((same.restore known).room.trans_le fits) reaches
                          (kept.update reaches)

theorem joinRealPath_deep (fits : tree.room seen ≤ depth) (settled : tree.Settled path)
    (cached : tree.Cached seen) :
    tree.joinRealPath strict (depth + 1) path parts seen =
      tree.joinRealPath strict depth path parts seen := by
  induction depth generalizing path parts seen with
  | zero =>
      exact joinParts_deep (fun _ _ _ less => absurd less (Nat.not_lt_zero _))
        (fun _ _ _ _ _ _ _ loop => by contradiction) fits settled cached
  | succ depth ih =>
      exact joinParts_deep (fun _ _ _ less => ih (Nat.le_of_lt_succ less))
        (fun _ _ _ _ _ => joinRealPath_settled) fits settled cached

/-- The depth of `realPath` is as good as any greater one. -/
theorem realPath_deep (enough : tree.nodes.length ≤ depth) :
    tree.joinRealPath strict depth [] parts (fun _ => none) = tree.realPath strict parts := by
  induction depth, enough using Nat.le_induction with
  | base => rfl
  | succ depth enough ih =>
      have cached : tree.Cached fun _ => none := SeenHolds.nothing
      exact (joinRealPath_deep ((room_le _).trans enough) .top cached).trans ih

end Lax

section Resolve

variable {resolved laxly : ResolvedPath Name}

theorem resolve_canonical (found : tree.resolve true parts = .ok resolved) :
    tree.Canonical resolved.names := by
  obtain ⟨_, depth, leads⟩ := resolve_strict_iff.mp found
  exact leads_canonical .top leads

/-- Without a loop there is no link on the path that comes out. -/
theorem Regular.resolve (regular : tree.Regular parts)
    (lax : tree.resolve false parts = .ok laxly) :
    laxly.doubled = false ∧ tree.Settled laxly.names := by
  obtain ⟨path, seen, joins⟩ := regular
  have cached : tree.Cached fun _ => none := SeenHolds.nothing
  obtain ⟨settled, _⟩ := joinRealPath_settled .top cached joins
  unfold Tree.resolve at lax
  simp only [joins, Bool.false_eq_true, if_false] at lax
  split at lax
  · contradiction
  · contradiction
  · cases lax
    exact ⟨rfl, settled⟩

/-- An entry of a directory leads to the same place by whatever path the directory is reached. -/
theorem resolve_entry {place : List Name}
    (found : tree.resolve true parts = .ok { doubled := false, names := place }) :
    tree.resolve true (parts ++ [.name name]) = .ok resolved ↔
      tree.resolve true ((place ++ [name]).map .name) = .ok resolved := by
  obtain ⟨_, depth, first⟩ := resolve_strict_iff.mp found
  have canonical := resolve_canonical found
  simp only at first canonical
  rw [resolve_strict_iff, resolve_strict_iff, List.map_append]
  refine and_congr_right fun _ => ⟨?_, ?_⟩
  · rintro ⟨deeper, leads⟩
    have all := leads_mono (Nat.le_max_right depth deeper) leads
    rw [leads_append, leads_mono (Nat.le_max_left depth deeper) first] at all
    refine ⟨max depth deeper, ?_⟩
    rw [leads_append, leads_names canonical]
    exact all
  · rintro ⟨deeper, leads⟩
    rw [leads_append, leads_names canonical] at leads
    refine ⟨max depth deeper, ?_⟩
    rw [leads_append, leads_mono (Nat.le_max_left depth deeper) first]
    exact leads_mono (Nat.le_max_right depth deeper) leads

/-- Where the kernel gets anywhere, it gets where the path is resolved to. -/
theorem stat_resolve {place : List Name} (found : tree.resolve true (path.map .name) = .ok resolved)
    (stat : tree.stat path = .ok place) : place = resolved.names := by
  obtain ⟨_, depth, leads⟩ := resolve_strict_iff.mp found
  exact leads_walks .top leads (stat_walks stat)

end Resolve

end StreamDockSdk.Filesystem.Tree
