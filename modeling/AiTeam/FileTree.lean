/-
Trees of files and folders by their paths: whether something is there, making
folders, and a rename that takes along what is inside.
-/
import Mathlib.Data.List.Infix
import Mathlib.Data.List.Nodup
import AiTeam.Table

namespace AiTeam.FileTree

universe u

/-- An absolute path by its names, `[]` being the top. -/
abbrev Path := List String

/-- A link is never followed; `live` says whether it leads anywhere. -/
inductive Node (C : Type u) where
  | dir
  | file (content : C)
  | link (live : Bool)
deriving DecidableEq

abbrev Tree (C : Type u) := List (Path × Node C)

variable {C : Type u}

/-- `lstat`. -/
def nodeAt (path : Path) (tree : Tree C) : Option (Node C) := valueAt path tree

/-- `existsSync`. -/
def existsAt (path : Path) (tree : Tree C) : Bool :=
  match nodeAt path tree with
  | none => false
  | some (.link live) => live
  | some _ => true

/-- Neither path is inside the other one. -/
def Apart (a b : Path) : Prop := ¬ a <+: b ∧ ¬ b <+: a

instance (a b : Path) : Decidable (Apart a b) :=
  inferInstanceAs (Decidable (_ ∧ _))

/-- What is inside the one is not inside the other. -/
theorem Apart.inside {a b : Path} (h : Apart a b) (rest : Path) :
    ¬ b <+: a ++ rest := by
  intro hbegins
  rcases List.prefix_or_prefix_of_prefix hbegins (List.prefix_append a rest)
    with hba | hab
  · exact h.2 hba
  · exact h.1 hab

def moved (source target path : Path) : Path :=
  if source <+: path then target ++ path.drop source.length else path

theorem moved_inside (source target rest : Path) :
    moved source target (source ++ rest) = target ++ rest := by
  rw [moved, if_pos (List.prefix_append source rest), List.drop_left]

variable {path : Path}

theorem moved_other {source : Path} (h : ¬ source <+: path) (target : Path) :
    moved source target path = path := if_neg h

/-- `renameSync` of a folder. -/
def rename [DecidableEq C] (source target : Path) (tree : Tree C) :
    Option (Tree C) :=
  if nodeAt source tree ≠ none ∧ nodeAt target tree = none ∧
      target ≠ [] ∧ ¬ source <+: target ∧
      (target.dropLast = [] ∨ nodeAt target.dropLast tree = some .dir) then
    some (tree.map fun entry => (moved source target entry.1, entry.2))
  else none

/-- `mkdirSync` with `recursive`, below the folder `done`. -/
def mkdirsFrom (done : Path) : List String → Tree C → Option (Tree C)
  | [], tree => some tree
  | name :: rest, tree =>
      match nodeAt (done ++ [name]) tree with
      | some .dir => mkdirsFrom (done ++ [name]) rest tree
      | none =>
          mkdirsFrom (done ++ [name]) rest (tree ++ [(done ++ [name], .dir)])
      | some _ => none

def mkdirs (path : Path) (tree : Tree C) : Option (Tree C) :=
  mkdirsFrom [] path tree

def Node.content? : Node C → Option C
  | .file content => some content
  | _ => none

/-- The contents of all files. -/
def contents (tree : Tree C) : List C :=
  tree.filterMap fun entry => entry.2.content?

/-- One node a path, and everything inside a folder. -/
structure Sound (tree : Tree C) : Prop where
  nodup : (tree.map Prod.fst).Nodup
  named : nodeAt [] tree = none
  parents : ∀ path name, path ≠ [] → nodeAt (path ++ [name]) tree ≠ none →
    nodeAt path tree = some .dir

variable {tree : Tree C}

theorem nodeAt_eq_some (h : (tree.map Prod.fst).Nodup) {node : Node C} :
    nodeAt path tree = some node ↔ (path, node) ∈ tree := by
  constructor
  · exact fun hnode => lookup_mem (lookup_of_valueAt hnode)
  · intro hmem
    induction tree with
    | nil => exact nomatch hmem
    | cons head tail ih =>
        rw [List.map_cons, List.nodup_cons] at h
        rcases List.mem_cons.mp hmem with rfl | htail
        · simp [nodeAt, valueAt, lookup]
        · have hne : head.1 ≠ path := by
            rintro rfl
            exact h.1 (List.mem_map.mpr ⟨_, htail, rfl⟩)
          have hrest := ih h.2 htail
          simpa [nodeAt, valueAt, lookup, hne] using hrest

theorem nodeAt_ne_none :
    nodeAt path tree ≠ none ↔ path ∈ tree.map Prod.fst := by
  rw [nodeAt, valueAt, ne_eq, Option.map_eq_none_iff, lookup,
    List.find?_eq_none]
  simp

theorem nodeAt_eq_none :
    nodeAt path tree = none ↔ path ∉ tree.map Prod.fst := by
  rw [← nodeAt_ne_none, not_not]

/-- Above whatever there is are folders. -/
theorem Sound.above (h : Sound tree) (hpath : path ≠ []) (rest : Path)
    (hrest : rest ≠ []) (hnode : nodeAt (path ++ rest) tree ≠ none) :
    nodeAt path tree = some .dir := by
  induction rest using List.reverseRecOn with
  | nil => exact absurd rfl hrest
  | append_singleton front name ih =>
      rw [← List.append_assoc] at hnode
      have hfront := h.parents (path ++ front) name (by simp [hpath]) hnode
      by_cases hempty : front = []
      · rw [hempty, List.append_nil] at hfront
        exact hfront
      · exact ih hempty (by rw [hfront]; exact Option.some_ne_none _)

theorem Sound.present (h : Sound tree) (hpath : path ≠ []) (rest : Path)
    (hnode : nodeAt (path ++ rest) tree ≠ none) : nodeAt path tree ≠ none := by
  by_cases hrest : rest = []
  · rw [hrest, List.append_nil] at hnode
    exact hnode
  · rw [h.above hpath rest hrest hnode]
    exact Option.some_ne_none _

/-- The folder of every node is there. -/
theorem Sound.of_entries (hnodup : (tree.map Prod.fst).Nodup)
    (hnamed : nodeAt [] tree = none)
    (hparents : ∀ entry ∈ tree, entry.1.dropLast = [] ∨
      nodeAt entry.1.dropLast tree = some .dir) : Sound tree where
  nodup := hnodup
  named := hnamed
  parents := by
    intro path name hpath hnode
    obtain ⟨entry, hentry, hsame⟩ := List.mem_map.mp (nodeAt_ne_none.mp hnode)
    have hparent := hparents entry hentry
    rw [hsame, List.dropLast_concat] at hparent
    exact hparent.resolve_left hpath

/-! ### Renaming -/

/-- Nothing was inside the target. -/
theorem Sound.clear {target : Path} (h : Sound tree) (htarget : target ≠ [])
    (hnone : nodeAt target tree = none) (hnode : nodeAt path tree ≠ none) :
    ¬ target <+: path := by
  rintro ⟨rest, rfl⟩
  exact h.present htarget rest hnode hnone

theorem moved_injOn {source target : Path} (hsound : Sound tree)
    (htarget : target ≠ []) (hnone : nodeAt target tree = none) {a b : Path}
    (ha : nodeAt a tree ≠ none) (hb : nodeAt b tree ≠ none)
    (hsame : moved source target a = moved source target b) : a = b := by
  have hclear_a := hsound.clear htarget hnone ha
  have hclear_b := hsound.clear htarget hnone hb
  by_cases hsource_a : source <+: a
  · obtain ⟨rest, rfl⟩ := hsource_a
    rw [moved_inside] at hsame
    by_cases hsource_b : source <+: b
    · obtain ⟨other, rfl⟩ := hsource_b
      rw [moved_inside] at hsame
      rw [List.append_cancel_left hsame]
    · rw [moved_other hsource_b] at hsame
      exact absurd ⟨rest, hsame⟩ hclear_b
  · rw [moved_other hsource_a] at hsame
    by_cases hsource_b : source <+: b
    · obtain ⟨other, rfl⟩ := hsource_b
      rw [moved_inside] at hsame
      exact absurd ⟨other, hsame.symm⟩ hclear_a
    · rw [moved_other hsource_b] at hsame
      exact hsame

section

variable [DecidableEq C] {tree next : Tree C} {source target : Path}

theorem rename_cases (h : rename source target tree = some next) :
    nodeAt source tree ≠ none ∧ nodeAt target tree = none ∧ target ≠ [] ∧
      ¬ source <+: target ∧
      (target.dropLast = [] ∨ nodeAt target.dropLast tree = some .dir) ∧
      next = tree.map fun entry => (moved source target entry.1, entry.2) := by
  rw [rename] at h
  split at h
  · next hif =>
      obtain ⟨h1, h2, h3, h4, h5⟩ := hif
      exact ⟨h1, h2, h3, h4, h5, (Option.some.inj h).symm⟩
  · exact nomatch h

theorem rename_nodup (hsound : Sound tree)
    (h : rename source target tree = some next) :
    (next.map Prod.fst).Nodup := by
  obtain ⟨_, hnone, htarget, _, _, rfl⟩ := rename_cases h
  rw [List.map_map]
  have hpaths : tree.map (Prod.fst ∘ fun entry =>
      (moved source target entry.1, entry.2)) =
      (tree.map Prod.fst).map (moved source target) := by
    rw [List.map_map]
    rfl
  rw [hpaths]
  apply List.Nodup.map_on _ hsound.nodup
  intro a ha b hb hsame
  exact moved_injOn hsound htarget hnone (nodeAt_ne_none.mpr ha)
    (nodeAt_ne_none.mpr hb) hsame

variable {node : Node C}

section

variable (hsound : Sound tree)
include hsound

section

variable (h : rename source target tree = some next)
include h

/-- Every node is where the rename takes it. -/
theorem nodeAt_moved (hnode : nodeAt path tree = some node) :
    nodeAt (moved source target path) next = some node := by
  apply (nodeAt_eq_some (rename_nodup hsound h)).mpr
  obtain ⟨_, _, _, _, _, rfl⟩ := rename_cases h
  exact List.mem_map.mpr ⟨(path, node),
    (nodeAt_eq_some hsound.nodup).mp hnode, rfl⟩

/-- Every node comes from one of before. -/
theorem exists_of_nodeAt_rename (hnode : nodeAt path next = some node) :
    ∃ origin, nodeAt origin tree = some node ∧
      moved source target origin = path := by
  have hmem := (nodeAt_eq_some (rename_nodup hsound h)).mp hnode
  obtain ⟨_, _, _, _, _, rfl⟩ := rename_cases h
  obtain ⟨⟨origin, kind⟩, hold, hsame⟩ := List.mem_map.mp hmem
  cases hsame
  exact ⟨origin, (nodeAt_eq_some hsound.nodup).mpr hold, rfl⟩

/-- What was elsewhere stays. -/
theorem nodeAt_rename_of_not_inside (hpath : ¬ source <+: path)
    (hnode : nodeAt path tree = some node) : nodeAt path next = some node := by
  have hmoved := nodeAt_moved hsound h hnode
  rw [moved_other hpath] at hmoved
  exact hmoved

theorem nodeAt_rename_inside {rest : Path}
    (hnode : nodeAt (source ++ rest) tree = some node) :
    nodeAt (target ++ rest) next = some node := by
  have hmoved := nodeAt_moved hsound h hnode
  rw [moved_inside] at hmoved
  exact hmoved

/-- A path neither the source nor the target has to do with. -/
theorem nodeAt_rename_eq_none (htarget : ¬ target <+: path)
    (hnone : nodeAt path tree = none) : nodeAt path next = none := by
  cases hnode : nodeAt path next with
  | none => rfl
  | some node =>
      obtain ⟨origin, horigin, rfl⟩ := exists_of_nodeAt_rename hsound h hnode
      by_cases hsource : source <+: origin
      · obtain ⟨rest, rfl⟩ := hsource
        rw [moved_inside] at htarget
        exact absurd (List.prefix_append target rest) htarget
      · rw [moved_other hsource, horigin] at hnone
        exact nomatch hnone

/-- Nothing is left at the source. -/
theorem nodeAt_source : nodeAt source next = none := by
  cases hnode : nodeAt source next with
  | none => rfl
  | some node =>
      obtain ⟨origin, horigin, hmoved⟩ := exists_of_nodeAt_rename hsound h hnode
      obtain ⟨hsource, hnone, htarget, _⟩ := rename_cases h
      by_cases hinside : source <+: origin
      · obtain ⟨rest, rfl⟩ := hinside
        rw [moved_inside] at hmoved
        exact absurd ⟨rest, hmoved⟩ (hsound.clear htarget hnone hsource)
      · rw [moved_other hinside] at hmoved
        rw [hmoved] at hinside
        exact absurd (List.prefix_refl source) hinside

theorem Sound.rename :
    Sound next where
  nodup := rename_nodup hsound h
  named := by
    obtain ⟨_, _, htarget, _⟩ := rename_cases h
    apply nodeAt_rename_eq_none hsound h _ hsound.named
    exact fun hbegins => htarget (List.prefix_nil.mp hbegins)
  parents := by
    intro path name hpath hnode
    obtain ⟨node, hnode⟩ := Option.ne_none_iff_exists'.mp hnode
    obtain ⟨origin, horigin, hmoved⟩ := exists_of_nodeAt_rename hsound h hnode
    obtain ⟨hsource, hnone, htarget, houtside, hparent, _⟩ := rename_cases h
    have horigin_ne : nodeAt origin tree ≠ none := by
      rw [horigin]
      exact Option.some_ne_none _
    by_cases hinside : source <+: origin
    · -- the node came along: its parent did too, or is the target's folder
      obtain ⟨rest, rfl⟩ := hinside
      rw [moved_inside] at hmoved
      rcases List.eq_nil_or_concat rest with rfl | ⟨front, last, rfl⟩
      · have hdrop : target.dropLast = path := by
          rw [← List.append_nil target, hmoved, List.dropLast_concat]
        rw [hdrop] at hparent
        have hdir := hparent.resolve_left hpath
        apply nodeAt_rename_of_not_inside hsound h _ hdir
        intro hbegins
        apply houtside
        rw [List.append_nil] at hmoved
        rw [hmoved]
        exact hbegins.trans (List.prefix_append path [name])
      · rw [List.concat_eq_append, ← List.append_assoc] at hmoved
        have hpath_eq := congrArg List.dropLast hmoved
        rw [List.dropLast_concat, List.dropLast_concat] at hpath_eq
        rw [← hpath_eq]
        apply nodeAt_rename_inside hsound h
        rw [List.concat_eq_append, ← List.append_assoc] at horigin_ne
        apply hsound.parents _ last _ horigin_ne
        intro hempty
        have hnil := List.append_eq_nil_iff.mp hempty
        rw [hnil.1] at houtside
        exact houtside List.nil_prefix
    · rw [moved_other hinside] at hmoved
      subst hmoved
      have hdir := hsound.parents path name hpath horigin_ne
      apply nodeAt_rename_of_not_inside hsound h _ hdir
      exact fun hbegins => hinside
        (hbegins.trans (List.prefix_append path [name]))

end

end

theorem contents_rename (h : rename source target tree = some next) :
    contents next = contents tree := by
  obtain ⟨_, _, _, _, _, rfl⟩ := rename_cases h
  rw [contents, List.filterMap_map]
  rfl

end

/-! ### Making folders -/

/-- The tree with some folders more, all of them at or above the path. -/
structure Grown (path : Path) (before after : Tree C) : Prop where
  sound : Sound after
  contents : contents after = contents before
  kept : ∀ other node, nodeAt other before = some node →
    nodeAt other after = some node
  fresh : ∀ other, nodeAt other before = none → ¬ other <+: path →
    nodeAt other after = none

theorem nodeAt_append {other : Path} (node : Node C) :
    nodeAt other (tree ++ [(path, node)]) =
      (nodeAt other tree).or (if path = other then some node else none) := by
  rw [nodeAt, valueAt, lookup_append]
  cases hfound : lookup Prod.fst other tree with
  | none =>
      rw [nodeAt, valueAt, hfound]
      by_cases heq : path = other <;> simp [heq]
  | some entry =>
      rw [nodeAt, valueAt, hfound]
      rfl

/-- One folder more. -/
theorem Sound.addDir (h : Sound tree) {name : String}
    (hnone : nodeAt (path ++ [name]) tree = none)
    (hparent : path = [] ∨ nodeAt path tree = some .dir) :
    Sound (tree ++ [(path ++ [name], .dir)]) where
  nodup := by
    rw [List.map_append, List.map_cons, List.map_nil, List.nodup_append]
    refine ⟨h.nodup, List.nodup_singleton _, ?_⟩
    intro a ha b hb hsame
    rw [List.mem_singleton.mp hb] at hsame
    rw [hsame] at ha
    exact nodeAt_eq_none.mp hnone ha
  named := by
    rw [nodeAt_append, h.named]
    simp
  parents := by
    intro other last hother hnode
    rw [nodeAt_append] at hnode ⊢
    cases hold : nodeAt (other ++ [last]) tree with
    | some node =>
        rw [h.parents other last hother (by rw [hold]; simp)]
        rfl
    | none =>
        rw [hold, Option.none_or] at hnode
        have hsame : path ++ [name] = other ++ [last] := by
          by_contra hne
          exact hnode (if_neg hne)
        have hpath := congrArg List.dropLast hsame
        rw [List.dropLast_concat, List.dropLast_concat] at hpath
        rw [← hpath] at hother ⊢
        rw [hparent.resolve_left hother]
        rfl

theorem mkdirsFrom_grown {rest : List String} {done : Path} {next : Tree C}
    (h : mkdirsFrom done rest tree = some next) (hsound : Sound tree)
    (hdone : done = [] ∨ nodeAt done tree = some .dir) :
    Grown (done ++ rest) tree next := by
  induction rest generalizing done tree with
  | nil =>
      rw [mkdirsFrom] at h
      rw [← Option.some.inj h]
      exact ⟨hsound, rfl, fun _ _ hnode => hnode, fun _ hnone _ => hnone⟩
  | cons name rest ih =>
      have hsplit : done ++ name :: rest = done ++ [name] ++ rest := by simp
      rw [mkdirsFrom] at h
      rw [hsplit]
      split at h
      · next hdir => exact ih h hsound (Or.inr hdir)
      · next hnone =>
          have hadded := hsound.addDir hnone hdone
          have hdir : nodeAt (done ++ [name])
              (tree ++ [(done ++ [name], .dir)]) = some .dir := by
            rw [nodeAt_append, hnone]
            simp
          have hgrown := ih h hadded (Or.inr hdir)
          constructor
          · exact hgrown.sound
          · rw [hgrown.contents, contents, List.filterMap_append]
            exact List.append_nil _
          · intro other node hnode
            apply hgrown.kept
            rw [nodeAt_append, hnode]
            rfl
          · intro other hother hbegins
            apply hgrown.fresh other _ hbegins
            rw [nodeAt_append, hother, Option.none_or]
            apply if_neg
            rintro rfl
            exact hbegins (List.prefix_append _ _)
      · exact nomatch h

theorem mkdirs_grown {next : Tree C} (h : mkdirs path tree = some next)
    (hsound : Sound tree) : Grown path tree next :=
  mkdirsFrom_grown h hsound (Or.inl rfl)

end AiTeam.FileTree
