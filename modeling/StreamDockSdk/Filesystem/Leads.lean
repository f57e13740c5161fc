import StreamDockSdk.Filesystem

namespace StreamDockSdk.Filesystem.Tree

/-! # Where paths lead

The links on a path are followed one inside the other, each as deep as it takes.  Where
they lead is where the kernel gets, if it gets anywhere.
-/

variable {Name Content : Type} [DecidableEq Name] (tree : Tree Name Content)

/-- Follows the links on a path whatever was seen before. -/
def leadsParts (follow : List Name → List (Part Name) → Option (List Name)) :
    List Name → List (Part Name) → Option (List Name)
  | path, [] => some path
  | path, .empty :: rest => leadsParts follow path rest
  | path, .current :: rest => leadsParts follow path rest
  | path, .parent :: rest => leadsParts follow path.dropLast rest
  | path, .name name :: rest =>
      match tree.lstat (path ++ [name]) with
      | .error _ => none
      | .ok (.link target) =>
          (follow (Part.start target path) target).bind fun path => leadsParts follow path rest
      | .ok _ => leadsParts follow (path ++ [name]) rest

/-- Where a path leads whose links nest at most so deep. -/
def leads : Nat → List Name → List (Part Name) → Option (List Name)
  | 0 => tree.leadsParts fun _ _ => none
  | depth + 1 => tree.leadsParts (leads depth)

/-- Where a link leads. -/
def linkLeads (depth : Nat) (link : List Name) : Option (List Name) :=
  match tree.lstat link with
  | .ok (.link target) => tree.leads depth (Part.start target link.dropLast) target
  | _ => none

attribute [local simp] leadsParts

variable {tree} {path middle reached : List Name} {parts first second rest : List (Part Name)}
variable {name : Name} {target : List (Part Name)} {depth deeper : Nat}

theorem leads_eq_leadsParts (tree : Tree Name Content) (depth : Nat) :
    ∃ follow, tree.leads depth = tree.leadsParts follow := by
  cases depth with
  | zero => exact ⟨_, rfl⟩
  | succ depth => exact ⟨_, rfl⟩

theorem leadsParts_append {follow : List Name → List (Part Name) → Option (List Name)} :
    tree.leadsParts follow path (first ++ second) =
      (tree.leadsParts follow path first).bind fun middle =>
        tree.leadsParts follow middle second := by
  induction first generalizing path with
  | nil => rfl
  | cons part rest ih =>
      cases part with
      | empty => exact ih
      | current => exact ih
      | parent => exact ih
      | name name =>
          simp only [List.cons_append, leadsParts]
          cases tree.lstat (path ++ [name]) with
          | error failure => rfl
          | ok node =>
              cases node with
              | file content => exact ih
              | directory listable searchable => exact ih
              | link target =>
                  dsimp only
                  cases follow (Part.start target path) target with
                  | none => rfl
                  | some middle => exact ih

theorem leads_append :
    tree.leads depth path (first ++ second) =
      (tree.leads depth path first).bind fun middle => tree.leads depth middle second := by
  obtain ⟨follow, eq⟩ := tree.leads_eq_leadsParts depth
  rw [eq]
  exact leadsParts_append

theorem leadsParts_mono {follow further : List Name → List (Part Name) → Option (List Name)}
    (weaker : ∀ path parts reached, follow path parts = some reached →
      further path parts = some reached)
    (found : tree.leadsParts follow path parts = some reached) :
    tree.leadsParts further path parts = some reached := by
  induction parts generalizing path with
  | nil => exact found
  | cons part rest ih =>
      cases part with
      | empty => exact ih found
      | current => exact ih found
      | parent => exact ih found
      | name name =>
          simp only [leadsParts] at found ⊢
          cases seen : tree.lstat (path ++ [name]) with
          | error failure =>
              rw [seen] at found
              contradiction
          | ok node =>
              rw [seen] at found
              cases node with
              | file content => exact ih found
              | directory listable searchable => exact ih found
              | link target =>
                  obtain ⟨middle, leads, onward⟩ := Option.bind_eq_some_iff.mp found
                  exact Option.bind_eq_some_iff.mpr ⟨middle, weaker _ _ _ leads, ih onward⟩

theorem leads_mono (deep : depth ≤ deeper) (found : tree.leads depth path parts = some reached) :
    tree.leads deeper path parts = some reached := by
  induction deeper generalizing depth path parts reached with
  | zero => exact Nat.le_zero.mp deep ▸ found
  | succ deeper ih =>
      cases depth with
      | zero => exact leadsParts_mono (fun _ _ _ none => by contradiction) found
      | succ depth =>
          exact leadsParts_mono (fun _ _ _ => ih (Nat.le_of_succ_le_succ deep)) found

theorem start_canonical (canonical : tree.Canonical path) :
    tree.Canonical (Part.start target path) := by
  unfold Part.start
  split
  · exact .top
  · exact canonical

theorem leadsParts_canonical {follow : List Name → List (Part Name) → Option (List Name)}
    (follows : ∀ path parts reached, tree.Canonical path → follow path parts = some reached →
      tree.Canonical reached)
    (canonical : tree.Canonical path)
    (found : tree.leadsParts follow path parts = some reached) : tree.Canonical reached := by
  induction parts generalizing path with
  | nil => exact Option.some.inj found ▸ canonical
  | cons part rest ih =>
      cases part with
      | empty => exact ih canonical found
      | current => exact ih canonical found
      | parent => exact ih canonical.parent found
      | name name =>
          simp only [leadsParts] at found
          split at found
          · contradiction
          · next target _ =>
            obtain ⟨middle, leads, onward⟩ := Option.bind_eq_some_iff.mp found
            exact ih (follows _ _ _ (start_canonical canonical) leads) onward
          · next node notLink seen =>
            exact ih (canonical.concat ⟨node, seen, Node.isLink_eq_false notLink⟩) found

theorem leads_canonical (canonical : tree.Canonical path)
    (found : tree.leads depth path parts = some reached) : tree.Canonical reached := by
  induction depth generalizing path parts reached with
  | zero => exact leadsParts_canonical (fun _ _ _ _ none => by contradiction) canonical found
  | succ depth ih => exact leadsParts_canonical (fun _ _ _ => ih) canonical found

theorem leads_names (canonical : tree.Canonical path) :
    tree.leads depth [] (path.map .name) = some path := by
  induction path using List.reverseRecOn with
  | nil =>
      obtain ⟨follow, eq⟩ := tree.leads_eq_leadsParts depth
      rw [eq]
      rfl
  | append_singleton path name ih =>
      obtain ⟨node, seen, real⟩ := canonical.last
      obtain ⟨follow, eq⟩ := tree.leads_eq_leadsParts depth
      rw [List.map_append, leads_append, ih canonical.above, Option.bind_some, eq]
      simp only [List.map_cons, List.map_nil, leadsParts, seen]
      cases node with
      | file content => rfl
      | directory listable searchable => rfl
      | link target => contradiction

/-- The kernel gets nowhere else. -/
theorem leadsParts_walks {follow : List Name → List (Part Name) → Option (List Name)}
    {place : List Name}
    (follows : ∀ path parts reached place, tree.Canonical path →
      follow path parts = some reached → tree.Walks path parts place → place = reached)
    (keeps : ∀ path parts reached, tree.Canonical path → follow path parts = some reached →
      tree.Canonical reached)
    (canonical : tree.Canonical path)
    (found : tree.leadsParts follow path parts = some reached)
    (walks : tree.Walks path parts place) : place = reached := by
  induction parts generalizing path with
  | nil =>
      cases walks
      exact Option.some.inj found
  | cons part rest ih =>
      cases part with
      | empty =>
          cases walks with
          | pass passes onward =>
              cases passes
              exact ih canonical found onward
      | current =>
          cases walks with
          | pass passes onward =>
              cases passes
              exact ih canonical found onward
      | parent =>
          cases walks with
          | pass passes onward =>
              cases passes
              exact ih canonical.parent found onward
      | name name =>
          simp only [leadsParts] at found
          split at found
          · contradiction
          · next target seen =>
            obtain ⟨middle, leads, later⟩ := Option.bind_eq_some_iff.mp found
            have link := (canonical.enters.lstat_iff.mp seen).2.2
            cases walks with
            | pass passes onward =>
                cases passes with
                | name _ node real is =>
                    cases link.symm.trans is
                    contradiction
            | link is onward =>
                cases link.symm.trans is
                obtain ⟨stop, inside, outside⟩ := onward.split
                cases follows _ _ _ _ (start_canonical canonical) leads inside
                exact ih (keeps _ _ _ (start_canonical canonical) leads) later outside
          · next node notLink seen =>
            have is := (canonical.enters.lstat_iff.mp seen).2.2
            cases walks with
            | pass passes onward =>
                cases passes with
                | name _ other real here =>
                    cases is.symm.trans here
                    exact ih (canonical.concat ⟨_, seen, real⟩) found onward
            | link here onward =>
                cases is.symm.trans here
                exact absurd rfl (notLink _)

theorem leads_walks {place : List Name} (canonical : tree.Canonical path)
    (found : tree.leads depth path parts = some reached) (walks : tree.Walks path parts place) :
    place = reached := by
  induction depth generalizing path parts reached place with
  | zero =>
      exact leadsParts_walks (fun _ _ _ _ _ none => by contradiction)
        (fun _ _ _ _ none => by contradiction) canonical found walks
  | succ depth ih =>
      exact leadsParts_walks (fun _ _ _ _ => ih) (fun _ _ _ => leads_canonical) canonical found walks

theorem leads_skip {part : Part Name} (still : part = .empty ∨ part = .current) :
    tree.leads depth path (part :: rest) = tree.leads depth path rest := by
  obtain ⟨follow, eq⟩ := tree.leads_eq_leadsParts depth
  rw [eq]
  rcases still with rfl | rfl <;> rfl

theorem leads_parent :
    tree.leads depth path (.parent :: rest) = tree.leads depth path.dropLast rest := by
  obtain ⟨follow, eq⟩ := tree.leads_eq_leadsParts depth
  rw [eq]
  rfl

theorem leads_real {node : Node Name Content} (seen : tree.lstat (path ++ [name]) = .ok node)
    (real : node.isLink = false) :
    tree.leads depth path (.name name :: rest) = tree.leads depth (path ++ [name]) rest := by
  obtain ⟨follow, eq⟩ := tree.leads_eq_leadsParts depth
  rw [eq]
  simp only [leadsParts, seen]
  cases node with
  | file content => rfl
  | directory listable searchable => rfl
  | link target => contradiction

theorem leads_link (seen : tree.lstat (path ++ [name]) = .ok (.link target)) :
    tree.leads (depth + 1) path (.name name :: rest) =
      (tree.leads depth (Part.start target path) target).bind fun middle =>
        tree.leads (depth + 1) middle rest := by
  simp only [leads, leadsParts, seen]

theorem linkLeads_eq (seen : tree.lstat (path ++ [name]) = .ok (.link target)) :
    tree.linkLeads depth (path ++ [name]) = tree.leads depth (Part.start target path) target := by
  simp only [linkLeads, seen, List.dropLast_concat]

theorem linkLeads_unique {link : List Name} (found : tree.linkLeads depth link = some middle)
    (again : tree.linkLeads deeper link = some reached) : middle = reached := by
  unfold linkLeads at found again
  cases seen : tree.lstat link with
  | error failure =>
      rw [seen] at found
      contradiction
  | ok node =>
      cases node with
      | file content =>
          rw [seen] at found
          contradiction
      | directory listable searchable =>
          rw [seen] at found
          contradiction
      | link target =>
          simp only [seen] at found again
          have first := leads_mono (Nat.le_max_left depth deeper) found
          have second := leads_mono (Nat.le_max_right depth deeper) again
          exact Option.some.inj (first.symm.trans second)

/-- A path leads on from a link to where the link leads. -/
theorem leads_onward (seen : tree.lstat (path ++ [name]) = .ok (.link target))
    (link : tree.linkLeads depth (path ++ [name]) = some middle)
    (onward : tree.leads deeper middle rest = some reached) :
    ∃ deepest, tree.leads deepest path (.name name :: rest) = some reached := by
  rw [linkLeads_eq seen] at link
  refine ⟨max depth deeper + 1, ?_⟩
  rw [leads_link seen, leads_mono (Nat.le_max_left _ _) link]
  exact leads_mono (Nat.le_succ_of_le (Nat.le_max_right _ _)) onward

theorem leads_name (found : tree.leads depth path (.name name :: rest) = some reached) :
    (∃ node, tree.lstat (path ++ [name]) = .ok node ∧ node.isLink = false ∧
      tree.leads depth (path ++ [name]) rest = some reached) ∨
    ∃ target less middle, tree.lstat (path ++ [name]) = .ok (.link target) ∧ depth = less + 1 ∧
      tree.linkLeads less (path ++ [name]) = some middle ∧
      tree.leads depth middle rest = some reached := by
  cases seen : tree.lstat (path ++ [name]) with
  | error failure =>
      obtain ⟨follow, eq⟩ := tree.leads_eq_leadsParts depth
      rw [eq] at found
      simp only [leadsParts, seen] at found
      contradiction
  | ok node =>
      cases kind : node.isLink with
      | false => exact .inl ⟨node, rfl, kind, (leads_real seen kind).symm.trans found⟩
      | true =>
          cases node with
          | file content => contradiction
          | directory listable searchable => contradiction
          | link target =>
              cases depth with
              | zero =>
                  simp only [leads, leadsParts, seen] at found
                  contradiction
              | succ less =>
                  obtain ⟨middle, link, onward⟩ :=
                    Option.bind_eq_some_iff.mp ((leads_link seen).symm.trans found)
                  exact .inr ⟨target, less, middle, rfl, rfl, (linkLeads_eq seen).trans link, onward⟩

end StreamDockSdk.Filesystem.Tree
