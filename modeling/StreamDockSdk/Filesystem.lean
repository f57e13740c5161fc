import Mathlib.Data.List.Infix
import Mathlib.Data.Set.Card
import Mathlib.Data.Set.Finite.List

namespace StreamDockSdk.Filesystem

/-! # Directories, files and symbolic links

A place is a path from the top on which no link lies.  The kernel looks any other path up by
following the links on it, but only so many of them, and it goes on from directories only.
-/

/-- What lies between two slashes of a path. -/
inductive Part (Name : Type) where
  | empty
  /-- `.` -/
  | current
  /-- `..` -/
  | parent
  | name (name : Name)
deriving DecidableEq, Repr

namespace Part

variable {Name : Type}

/-- Whether a path begins with a slash. -/
def isAbsolute : List (Part Name) → Bool
  | .empty :: _ :: _ => true
  | _ => false

/-- Where a link in a directory begins to lead. -/
def start (target : List (Part Name)) (directory : List Name) : List Name :=
  if isAbsolute target then [] else directory

end Part

inductive Node (Name Content : Type) where
  /-- A file, or one that cannot be read. -/
  | file (content : Option Content)
  | directory (listable searchable : Bool)
  | link (target : List (Part Name))
deriving DecidableEq, Repr

def Node.isLink {Name Content : Type} : Node Name Content → Bool
  | .link _ => true
  | _ => false

theorem Node.isLink_eq_false {Name Content : Type} {node : Node Name Content}
    (real : ∀ target, node ≠ .link target) : node.isLink = false := by
  cases node with
  | file content => rfl
  | directory listable searchable => rfl
  | link target => exact absurd rfl (real target)

inductive Failure where
  /-- `ENOENT` -/
  | missing
  /-- `ENOTDIR` -/
  | notDirectory
  /-- `EACCES` -/
  | denied
  /-- `ELOOP` -/
  | loop
  /-- `ENAMETOOLONG` -/
  | tooLong
  /-- The `ValueError` of a path that no file name can be made of. -/
  | unencodable
deriving DecidableEq, Repr

variable {Name Content : Type} [DecidableEq Name]

def lookup (nodes : List (List Name × Node Name Content)) (place : List Name) :
    Option (Node Name Content) :=
  (nodes.find? fun entry => entry.1 = place).map (·.2)

/-- Whatever there is lies in directories up to the top, and no path is looked up that is
longer than the kernel allows. -/
structure Tree (Name Content : Type) [DecidableEq Name] where
  nodes : List (List Name × Node Name Content)
  top : ∃ listable searchable, lookup nodes [] = some (.directory listable searchable)
  parents : ∀ entry ∈ nodes, entry.1 ≠ [] →
    ∃ listable searchable, lookup nodes entry.1.dropLast = some (.directory listable searchable)
  /-- How many links are followed on one path. -/
  maxLinks : Nat
  maxLength : Nat
  /-- No file has the name, which the kernel finds out in the directory. -/
  longName : Name → Bool
  /-- The failure of a path that is not looked up at all. -/
  refuses : List Name → Option Failure
  accepts_top : refuses [] = none
  accepts_above : ∀ above below, refuses (above ++ below) = none → refuses above = none
  accepts_short : ∀ path, refuses path = none → path.length ≤ maxLength

namespace Tree

variable (tree : Tree Name Content)

def node? (place : List Name) : Option (Node Name Content) :=
  lookup tree.nodes place

/-- The names in a directory. -/
def entries (place : List Name) : List Name :=
  tree.nodes.filterMap fun entry =>
    if entry.1.dropLast = place then entry.1.getLast? else none

/-- Walks the parts of a path up to a link, from which another walk goes on. -/
def walkParts (followLast : Bool)
    (follow : List Name → List (Part Name) → Except Failure (List Name)) :
    List Name → List (Part Name) → Except Failure (List Name)
  | place, [] => .ok place
  | place, part :: rest =>
      match tree.node? place with
      | some (.directory _ searchable) =>
          match part with
          | .empty => walkParts followLast follow place rest
          | .current => if searchable then walkParts followLast follow place rest else .error .denied
          | .parent =>
              if searchable then walkParts followLast follow place.dropLast rest else .error .denied
          | .name name =>
              if searchable then
                match tree.node? (place ++ [name]) with
                | none => .error (if tree.longName name then .tooLong else .missing)
                | some (.link target) =>
                    if rest.isEmpty && !followLast then .ok (place ++ [name])
                    else follow (Part.start target place) (target ++ rest)
                | some _ => walkParts followLast follow (place ++ [name]) rest
              else .error .denied
      | _ => .error .notDirectory

/-- The walk along a path on which at most so many links are followed. -/
def walk (followLast : Bool) : Nat → List Name → List (Part Name) → Except Failure (List Name)
  | 0 => tree.walkParts followLast fun _ _ => .error .loop
  | links + 1 => tree.walkParts followLast (walk followLast links)

def find (followLast : Bool) (path : List Name) : Except Failure (List Name) :=
  match tree.refuses path with
  | some failure => .error failure
  | none => tree.walk followLast tree.maxLinks [] (path.map .name)

/-- The place that a path leads to. -/
def stat (path : List Name) : Except Failure (List Name) :=
  tree.find true path

/-- What a path leads to, be it a link. -/
def lstat (path : List Name) : Except Failure (Node Name Content) :=
  match tree.find false path with
  | .error failure => .error failure
  | .ok place =>
      match tree.node? place with
      | some node => .ok node
      | none => .error .missing

/-- What `is_file` and `is_dir` make of `stat`. -/
def isKind (kind : Node Name Content → Bool) (path : List Name) : Except Failure Bool :=
  match tree.stat path with
  | .ok place => .ok ((tree.node? place).any kind)
  | .error .denied => .error .denied
  | .error .tooLong => .error .tooLong
  | .error _ => .ok false

def isFile : List Name → Except Failure Bool :=
  tree.isKind fun
    | .file _ => true
    | _ => false

def isDirectory : List Name → Except Failure Bool :=
  tree.isKind fun
    | .directory _ _ => true
    | _ => false

/-- What is in a file, where it can be read. -/
def read (path : List Name) : Option Content :=
  match tree.stat path with
  | .error _ => none
  | .ok place =>
      match tree.node? place with
      | some (.file content) => content
      | _ => none

def list (path : List Name) : Except Failure (List Name) :=
  match tree.stat path with
  | .error failure => .error failure
  | .ok place =>
      match tree.node? place with
      | some (.directory true _) => .ok (tree.entries place)
      | some (.directory false _) => .error .denied
      | _ => .error .notDirectory

attribute [local simp] walkParts

/-- What a part of a path leads to that is no link. -/
inductive Passes (tree : Tree Name Content) (place : List Name) : Part Name → List Name → Prop
  | empty : Passes tree place .empty place
  | current : Passes tree place .current place
  | parent : Passes tree place .parent place.dropLast
  | name (name : Name) (node : Node Name Content) (real : node.isLink = false)
      (found : tree.node? (place ++ [name]) = some node) :
      Passes tree place (.name name) (place ++ [name])

/-- Where a path leads from a place, however many links there are on it. -/
inductive Walks (tree : Tree Name Content) : List Name → List (Part Name) → List Name → Prop
  | done (place : List Name) : Walks tree place [] place
  | pass {place next reached : List Name} {part : Part Name} {rest : List (Part Name)}
      (passes : tree.Passes place part next) (walks : Walks tree next rest reached) :
      Walks tree place (part :: rest) reached
  | link {place reached : List Name} {name : Name} {target rest : List (Part Name)}
      (found : tree.node? (place ++ [name]) = some (.link target))
      (walks : Walks tree (Part.start target place) (target ++ rest) reached) :
      Walks tree place (.name name :: rest) reached

variable {tree} {place path reached : List Name} {parts rest : List (Part Name)} {name : Name}
variable {node : Node Name Content}

theorem walkParts_walks {follow : List Name → List (Part Name) → Except Failure (List Name)}
    (follows : ∀ place parts reached, follow place parts = .ok reached →
      tree.Walks place parts reached)
    (walked : tree.walkParts true follow place parts = .ok reached) :
    tree.Walks place parts reached := by
  induction parts generalizing place with
  | nil =>
      cases walked
      exact .done _
  | cons part rest ih =>
      unfold walkParts at walked
      split at walked
      · next listable searchable directory =>
        cases part with
        | empty => exact .pass .empty (ih walked)
        | current =>
            dsimp only at walked
            split at walked
            · exact .pass .current (ih walked)
            · contradiction
        | parent =>
            dsimp only at walked
            split at walked
            · exact .pass .parent (ih walked)
            · contradiction
        | name name =>
            dsimp only at walked
            split at walked
            · split at walked
              · contradiction
              · next target found =>
                rw [Bool.not_true, Bool.and_false] at walked
                exact .link found (follows _ _ _ walked)
              · next node notLink found =>
                exact .pass (.name name node (Node.isLink_eq_false notLink) found) (ih walked)
            · contradiction
      · contradiction

theorem walk_walks {links : Nat} (walked : tree.walk true links place parts = .ok reached) :
    tree.Walks place parts reached := by
  induction links generalizing place parts reached with
  | zero => exact walkParts_walks (fun _ _ _ walked => by contradiction) walked
  | succ links ih => exact walkParts_walks (fun _ _ _ => ih) walked

theorem stat_walks (found : tree.stat path = .ok reached) :
    tree.Walks [] (path.map .name) reached := by
  unfold stat find at found
  split at found
  · contradiction
  · exact walk_walks found

namespace Walks

/-- What lies behind the first parts is walked from where these lead. -/
theorem split {first second : List (Part Name)}
    (walks : tree.Walks place (first ++ second) reached) :
    ∃ middle, tree.Walks place first middle ∧ tree.Walks middle second reached := by
  generalize whole : first ++ second = parts at walks
  induction walks generalizing first with
  | done place =>
      obtain ⟨rfl, rfl⟩ := List.append_eq_nil_iff.mp whole
      exact ⟨place, .done place, .done place⟩
  | @pass place next reached part rest passes walks ih =>
      cases first with
      | nil =>
          obtain rfl : second = part :: rest := whole
          exact ⟨place, .done place, .pass passes walks⟩
      | cons head first =>
          obtain ⟨rfl, rfl⟩ := List.cons.inj whole
          obtain ⟨middle, before, after⟩ := ih rfl
          exact ⟨middle, .pass passes before, after⟩
  | @link place reached name target rest found walks ih =>
      cases first with
      | nil =>
          obtain rfl : second = .name name :: rest := whole
          exact ⟨place, .done place, .link found walks⟩
      | cons head first =>
          obtain ⟨rfl, rfl⟩ := List.cons.inj whole
          obtain ⟨middle, before, after⟩ := ih (List.append_assoc ..)
          exact ⟨middle, .link found before, after⟩

/-- A name that nothing has leads nowhere. -/
theorem names (walks : tree.Walks place parts reached) (listed : .name name ∈ parts) :
    ∃ above node, tree.node? (above ++ [name]) = some node := by
  induction walks with
  | done place => cases listed
  | pass passes walks ih =>
      rcases List.mem_cons.mp listed with rfl | later
      · cases passes with
        | name name node real found => exact ⟨_, node, found⟩
      · exact ih later
  | link found walks ih =>
      rcases List.mem_cons.mp listed with same | later
      · cases same
        exact ⟨_, _, found⟩
      · exact ih (List.mem_append_right _ later)

end Walks

/-- The property holds of a path and of those above it. -/
def Along (holds : List Name → Prop) (path : List Name) : Prop :=
  ∀ above, above <+: path → above ≠ [] → holds above

namespace Along

variable {holds other : List Name → Prop}

omit [DecidableEq Name] in
theorem top : Along holds [] :=
  fun _ before below => absurd (List.prefix_nil.mp before) below

omit [DecidableEq Name] in
theorem above {first second : List Name} (along : Along holds (first ++ second)) :
    Along holds first :=
  fun above before => along above (before.trans (List.prefix_append first second))

omit [DecidableEq Name] in
theorem parent (along : Along holds path) : Along holds path.dropLast :=
  fun above before => along above (before.trans (List.dropLast_prefix path))

omit [DecidableEq Name] in
theorem concat (along : Along holds path) (last : holds (path ++ [name])) :
    Along holds (path ++ [name]) := by
  intro above before below
  rcases List.prefix_concat_iff.mp before with rfl | before
  · exact last
  · exact along above before below

omit [DecidableEq Name] in
theorem last (along : Along holds (path ++ [name])) : holds (path ++ [name]) :=
  along _ List.prefix_rfl (by simp)

end Along

/-- No link was seen on the path, but it may lead to nothing. -/
def Settled (tree : Tree Name Content) : List Name → Prop :=
  Along fun above => ∀ target, tree.lstat above ≠ .ok (.link target)

/-- No link lies on the path. -/
def Canonical (tree : Tree Name Content) : List Name → Prop :=
  Along fun above => ∃ node, tree.lstat above = .ok node ∧ node.isLink = false

theorem Canonical.accepted (canonical : tree.Canonical path) : tree.refuses path = none := by
  by_cases below : path = []
  · exact below ▸ tree.accepts_top
  · obtain ⟨node, seen, _⟩ := canonical path List.prefix_rfl below
    unfold lstat find at seen
    cases refused : tree.refuses path with
    | none => rfl
    | some failure =>
        rw [refused] at seen
        contradiction

section Kernel

variable {followLast : Bool} {links : Nat}
variable {follow : List Name → List (Part Name) → Except Failure (List Name)}

theorem walk_eq_walkParts (followLast : Bool) (links : Nat) :
    ∃ follow, tree.walk followLast links = tree.walkParts followLast follow := by
  cases links with
  | zero => exact ⟨_, rfl⟩
  | succ links => exact ⟨_, rfl⟩

theorem walkParts_name (walked : tree.walkParts followLast follow place (.name name :: rest) =
      .ok reached) :
    ∃ listable node, tree.node? place = some (.directory listable true) ∧
      tree.node? (place ++ [name]) = some node ∧
      (node.isLink = false → tree.walkParts followLast follow (place ++ [name]) rest = .ok reached) ∧
      (node.isLink = true → (rest.isEmpty && !followLast) = true → reached = place ++ [name]) := by
  unfold walkParts at walked
  split at walked
  · next listable searchable directory =>
    dsimp only at walked
    split at walked
    · next search =>
      subst search
      split at walked
      · contradiction
      · next target found =>
        refine ⟨listable, _, directory, found, fun real => by contradiction, fun _ last => ?_⟩
        rw [if_pos last] at walked
        exact (Except.ok.inj walked).symm
      · next node notLink found =>
        refine ⟨listable, node, directory, found, fun _ => walked, fun link => ?_⟩
        rw [Node.isLink_eq_false notLink] at link
        contradiction
    · contradiction
  · contradiction

theorem walkParts_enter {listable : Bool}
    (directory : tree.node? place = some (.directory listable true))
    (found : tree.node? (place ++ [name]) = some node) (real : node.isLink = false) :
    tree.walkParts followLast follow place (.name name :: rest) =
      tree.walkParts followLast follow (place ++ [name]) rest := by
  cases node with
  | file content => simp only [walkParts, directory, found, if_true]
  | directory listable searchable => simp only [walkParts, directory, found, if_true]
  | link target => contradiction

/-- The kernel passes along the path as along one without links. -/
def Enters (tree : Tree Name Content) (path : List Name) : Prop :=
  ∀ followLast follow rest, tree.walkParts followLast follow [] (path.map .name ++ rest) =
    tree.walkParts followLast follow path rest

theorem Enters.lstat_iff (enters : tree.Enters path) :
    tree.lstat (path ++ [name]) = .ok node ↔ tree.refuses (path ++ [name]) = none ∧
      (∃ listable, tree.node? path = some (.directory listable true)) ∧
      tree.node? (path ++ [name]) = some node := by
  obtain ⟨follow, eq⟩ := tree.walk_eq_walkParts false tree.maxLinks
  have walks : tree.walk false tree.maxLinks [] ((path ++ [name]).map .name) =
      tree.walkParts false follow path [.name name] := by
    rw [eq, List.map_append]
    exact enters false follow [.name name]
  unfold lstat find
  rw [walks]
  constructor
  · intro seen
    cases refused : tree.refuses (path ++ [name]) with
    | some failure =>
        rw [refused] at seen
        contradiction
    | none =>
        simp only [refused] at seen
        split at seen
        · contradiction
        · next place walked =>
          obtain ⟨listable, other, directory, found, real, link⟩ := walkParts_name walked
          have here : place = path ++ [name] := by
            cases kind : other.isLink with
            | false => exact (Except.ok.inj (real kind)).symm
            | true => exact link kind rfl
          subst here
          rw [found] at seen
          exact ⟨rfl, ⟨listable, directory⟩, (Except.ok.inj seen) ▸ found⟩
  · rintro ⟨accepted, ⟨listable, directory⟩, found⟩
    cases node with
    | file content => simp [accepted, walkParts, directory, found]
    | directory listable searchable => simp [accepted, walkParts, directory, found]
    | link target => simp [accepted, walkParts, directory, found]

theorem Canonical.enters (canonical : tree.Canonical path) : tree.Enters path := by
  induction path using List.reverseRecOn with
  | nil => exact fun _ _ _ => rfl
  | append_singleton path name ih =>
      have enters := ih canonical.above
      obtain ⟨node, seen, real⟩ := canonical.last
      obtain ⟨_, ⟨listable, directory⟩, found⟩ := enters.lstat_iff.mp seen
      intro followLast follow rest
      rw [List.map_append, List.append_assoc]
      exact (enters followLast follow _).trans (walkParts_enter directory found real)

theorem Canonical.stat (canonical : tree.Canonical path) : tree.stat path = .ok path := by
  obtain ⟨follow, eq⟩ := tree.walk_eq_walkParts true tree.maxLinks
  unfold Tree.stat find
  rw [canonical.accepted, eq]
  have enters := canonical.enters true follow []
  rw [List.append_nil] at enters
  exact enters

/-- What the kernel gets along has no link that was not seen. -/
theorem Settled.canonical (settled : tree.Settled path) (accepted : tree.refuses path = none)
    (walked : tree.walkParts followLast follow [] (path.map .name ++ rest) = .ok reached) :
    tree.Canonical path := by
  induction path using List.reverseRecOn generalizing rest with
  | nil => exact .top
  | append_singleton path name ih =>
      rw [List.map_append, List.append_assoc] at walked
      have above := ih settled.above (tree.accepts_above _ _ accepted) walked
      have entered := (above.enters followLast follow _).symm.trans walked
      obtain ⟨listable, node, directory, found, _⟩ := walkParts_name entered
      have seen := above.enters.lstat_iff.mpr ⟨accepted, ⟨listable, directory⟩, found⟩
      refine above.concat ⟨node, seen, Node.isLink_eq_false fun target link => ?_⟩
      exact settled.last target (link ▸ seen)

theorem Settled.of_lstat (settled : tree.Settled path)
    (found : tree.lstat (path ++ [name]) = .ok node) : tree.Canonical path := by
  obtain ⟨follow, eq⟩ := tree.walk_eq_walkParts false tree.maxLinks
  unfold lstat find at found
  cases accepted : tree.refuses (path ++ [name]) with
  | some failure =>
      rw [accepted] at found
      contradiction
  | none =>
      simp only [accepted, eq] at found
      split at found
      · contradiction
      · next walked =>
        rw [List.map_append] at walked
        exact settled.canonical (tree.accepts_above _ _ accepted) walked

theorem Settled.of_stat (settled : tree.Settled path) (found : tree.stat path = .ok reached) :
    tree.Canonical path := by
  obtain ⟨follow, eq⟩ := tree.walk_eq_walkParts true tree.maxLinks
  unfold Tree.stat find at found
  cases accepted : tree.refuses path with
  | some failure =>
      rw [accepted] at found
      contradiction
  | none =>
      simp only [accepted, eq] at found
      exact settled.canonical accepted (by rw [List.append_nil]; exact found)

end Kernel

theorem mem_places (found : tree.node? place = some node) : place ∈ tree.nodes.map (·.1) := by
  obtain ⟨entry, listed, _⟩ := Option.map_eq_some_iff.mp found
  have same := List.find?_some listed
  exact List.mem_map.mpr ⟨entry, List.mem_of_find?_eq_some listed, of_decide_eq_true same⟩

/-- The names that anything has. -/
def names (tree : Tree Name Content) : List Name :=
  tree.nodes.filterMap (·.1.getLast?)

theorem mem_names (found : tree.node? (place ++ [name]) = some node) : name ∈ tree.names := by
  obtain ⟨entry, listed, same⟩ := List.mem_map.mp (mem_places found)
  refine List.mem_filterMap.mpr ⟨entry, listed, ?_⟩
  rw [same, List.getLast?_concat]

/-- The paths that lead somewhere. -/
def reachable (tree : Tree Name Content) : Set (List Name) :=
  { path | ∃ place, tree.stat path = .ok place }

theorem reachable_finite (tree : Tree Name Content) : tree.reachable.Finite := by
  have short : { path : List { name // name ∈ tree.names } | path.length ≤ tree.maxLength }.Finite :=
    List.finite_length_le _ _
  refine (short.image (List.map Subtype.val)).subset ?_
  rintro path ⟨place, found⟩
  have known (name : Name) (listed : name ∈ path) : name ∈ tree.names := by
    obtain ⟨above, node, is⟩ := (stat_walks found).names (List.mem_map_of_mem listed)
    exact mem_names is
  have accepted : tree.refuses path = none := by
    unfold stat find at found
    split at found
    · contradiction
    · assumption
  refine ⟨path.attach.map fun name => ⟨name.1, known name.1 name.2⟩, ?_, ?_⟩
  · simpa using tree.accepts_short path accepted
  · rw [List.map_map]
    exact List.attach_map_subtype_val path

/-- How many paths there are beside those that were checked. -/
noncomputable def others (tree : Tree Name Content) (checked : List (List Name)) : Nat :=
  (tree.reachable \ { path | path ∈ checked }).ncard

theorem others_le (tree : Tree Name Content) (checked : List (List Name)) :
    tree.others checked ≤ tree.reachable.ncard :=
  Set.ncard_le_ncard Set.sdiff_subset tree.reachable_finite

theorem stat_of_isKind {kind : Node Name Content → Bool} (is : tree.isKind kind path = .ok true) :
    ∃ place node, tree.stat path = .ok place ∧ tree.node? place = some node ∧ kind node = true := by
  unfold isKind at is
  split at is
  · next place found =>
    obtain ⟨node, here, holds⟩ := (Option.any_eq_true ..).mp (Except.ok.inj is)
    exact ⟨place, node, found, here, holds⟩
  all_goals cases is

theorem list_eq_ok {names : List Name} (lists : tree.list path = .ok names) :
    ∃ place, tree.stat path = .ok place ∧ names = tree.entries place := by
  unfold list at lists
  split at lists
  · contradiction
  · next place found =>
    split at lists
    · exact ⟨place, found, (Except.ok.inj lists).symm⟩
    all_goals contradiction

theorem list_congr {other : List Name} (same : tree.stat path = tree.stat other) :
    tree.list path = tree.list other := by
  unfold list
  rw [same]

end Tree

end StreamDockSdk.Filesystem
