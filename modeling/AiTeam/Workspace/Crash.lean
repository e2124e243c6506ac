/-
The migration may crash between any two steps and start again: the stored
paths still name the folders with their files, and no file is lost.
-/
import AiTeam.Workspace.Planning

namespace AiTeam.Workspace

open FileTree (Path Node Sound Grown Apart nodeAt existsAt rename mkdirs
  contents)

variable {path newPath : PathText} {db : Db} {move : Move}
  {tree : FileTree.Tree String} {owned : OwnedWorkspaces} {stage : Stage}
  {disk : Disk} {world : World}

section

variable {env : Env}

/-! ### Finishing a move in the database -/

theorem stored_finish (oldPath newPath : PathText) (db : Db) :
    (finishWorkspaceMove oldPath newPath db).stored =
      db.stored.map (rewrite oldPath newPath) := by
  simp only [Db.stored, finishWorkspaceMove, List.map_append, List.map_map]
  rfl

theorem rewrite_old (oldPath newPath : PathText) :
    rewrite oldPath newPath oldPath = newPath := if_pos rfl

theorem rewrite_other {oldPath : PathText} (h : path ≠ oldPath)
    (newPath : PathText) : rewrite oldPath newPath path = path := if_neg h

theorem mem_stored_finish {oldPath : PathText}
    (h : path ∈ (finishWorkspaceMove oldPath newPath db).stored) :
    path = newPath ∨ (path ∈ db.stored ∧ path ≠ oldPath) := by
  rw [stored_finish] at h
  obtain ⟨before, hbefore, rfl⟩ := List.mem_map.mp h
  by_cases hold : before = oldPath
  · rw [hold, rewrite_old]
    exact Or.inl rfl
  · rw [rewrite_other hold]
    exact Or.inr ⟨hbefore, hold⟩

theorem mem_stored_finish_of_ne {oldPath : PathText}
    (hstored : path ∈ db.stored) (h : path ≠ oldPath) :
    path ∈ (finishWorkspaceMove oldPath newPath db).stored := by
  rw [stored_finish]
  exact List.mem_map.mpr ⟨path, hstored, rewrite_other h newPath⟩

theorem mem_moves_finish {oldPath : PathText} :
    move ∈ (finishWorkspaceMove oldPath newPath db).moves ↔
      move ∈ db.moves ∧ move.oldPath ≠ oldPath := by
  rw [finishWorkspaceMove, List.mem_filter, decide_eq_true_eq]

theorem Arranged.eq_of_oldPath (h : Arranged env db) {other : Move}
    (hmove : move ∈ db.moves) (hother : other ∈ db.moves)
    (hsame : move.oldPath = other.oldPath) : move = other :=
  List.inj_on_of_nodup_map h.olds hmove hother hsame

/-- A stored path and the target of a move. -/
theorem Arranged.apart_new (h : Arranged env db) (hmove : move ∈ db.moves)
    (hlegacy : isLegacy env move.newPath = true) (hstored : path ∈ db.stored)
    (hpath : path ≠ noPath) (hne : path ≠ move.oldPath) :
    Apart (resolve env.cwd path) (resolve env.cwd move.newPath) := by
  have hunused := h.newUnused move hmove path hstored hpath
  refine ⟨fun hbegins => ?_, hunused⟩
  rw [isLegacy_resolve hlegacy, List.prefix_concat_iff] at hbegins
  rcases hbegins with hsame | hinside
  · apply hunused
    rw [hsame, isLegacy_resolve hlegacy]
  · -- above the root: then it is above the folder that is to be moved
    obtain ⟨hold, hlegacy_old⟩ := h.oldStored move hmove
    apply (h.apart path hstored hpath _ hold hlegacy_old hne).1
    rw [isLegacy_resolve hlegacy_old]
    exact hinside.trans (List.prefix_append _ _)

theorem Arranged.finish (h : Arranged env db) (hmove : move ∈ db.moves) :
    Arranged env (finishWorkspaceMove move.oldPath move.newPath db) := by
  have hothers : ∀ other : Move,
      other ∈ (finishWorkspaceMove move.oldPath move.newPath db).moves →
        other ∈ db.moves ∧ other ≠ move := by
    intro other hother
    obtain ⟨hmem, hne⟩ := mem_moves_finish.mp hother
    exact ⟨hmem, fun hsame => hne (by rw [hsame])⟩
  constructor
  · constructor
    · intro path hstored hpath
      rcases mem_stored_finish hstored with rfl | ⟨hbefore, _⟩
      · exact h.newCanonical move hmove
      · exact h.canonical path hbefore hpath
    · intro path hstored hpath other hother hlegacy hne
      rcases mem_stored_finish hstored with rfl | ⟨hbefore, hpath_old⟩
      · rcases mem_stored_finish hother with rfl | ⟨hother, _⟩
        · exact absurd rfl hne
        · exact h.newClear move hmove other hother hlegacy
      · rcases mem_stored_finish hother with rfl | ⟨hother, _⟩
        · exact h.apart_new hmove hlegacy hbefore hpath hpath_old
        · exact h.apart path hbefore hpath other hother hlegacy hne
  · exact (h.olds.sublist (List.filter_sublist.map Move.oldPath))
  · intro other hother
    obtain ⟨hmem, hne⟩ := mem_moves_finish.mp hother
    obtain ⟨hstored, hlegacy⟩ := h.oldStored other hmem
    exact ⟨mem_stored_finish_of_ne hstored hne, hlegacy⟩
  · exact fun other hother => h.newCanonical other (hothers other hother).1
  · intro other hother path hstored hlegacy
    obtain ⟨hmem, hne⟩ := hothers other hother
    rcases mem_stored_finish hstored with rfl | ⟨hbefore, _⟩
    · exact ⟨h.news other hmem move hmove hne,
        h.news move hmove other hmem (Ne.symm hne)⟩
    · exact h.newClear other hmem path hbefore hlegacy
  · intro other hother path hstored hpath
    obtain ⟨hmem, hne⟩ := hothers other hother
    rcases mem_stored_finish hstored with rfl | ⟨hbefore, _⟩
    · exact h.news other hmem move hmove hne
    · exact h.newUnused other hmem path hbefore hpath
  · intro left hleft right hright hne
    exact h.news left (hothers left hleft).1 right (hothers right hright).1 hne

/-! ### What is kept -/

/-- The node a stored path names: there, or where a move that was interrupted
has taken it. -/
def Found (env : Env) (disk : Disk) (path : PathText) (rest : Path)
    (node : Node String) : Prop :=
  nodeAt (resolve env.cwd path ++ rest) disk.tree = some node ∨
    ∃ move ∈ disk.db.moves, move.oldPath = path ∧
      nodeAt (resolve env.cwd path) disk.tree = none ∧
      nodeAt (resolve env.cwd move.newPath ++ rest) disk.tree = some node

/-- The disk after some steps; `renamed` tells what has become of the stored
paths. -/
structure Kept (env : Env) (start disk : Disk)
    (renamed : PathText → PathText) : Prop where
  arranged : Arranged env disk.db
  sound : Sound disk.tree
  conversations : disk.db.conversations =
    start.db.conversations.map fun row =>
      { row with workspace := renamed row.workspace }
  participants : disk.db.participants =
    start.db.participants.map fun row =>
      { row with workspace := renamed row.workspace }
  experts : disk.db.experts = start.db.experts
  unset : ∀ path ∈ start.db.stored, renamed path = noPath ↔ path = noPath
  distinct : ∀ path ∈ start.db.stored, ∀ other ∈ start.db.stored,
    renamed path = renamed other → path = other
  found : ∀ path ∈ start.db.stored, path ≠ noPath →
    ∀ rest node, nodeAt (resolve env.cwd path ++ rest) start.tree = some node →
      Found env disk (renamed path) rest node
  contents : contents disk.tree = contents start.tree
  states : disk.hindsight.map Prod.snd = start.hindsight.map Prod.snd
  stateNames : (disk.hindsight.map Prod.fst).Nodup

section

variable {start disk : Disk} {renamed : PathText → PathText}

theorem Kept.stored (h : Kept env start disk renamed) :
    disk.db.stored = start.db.stored.map renamed := by
  rw [Db.stored, Db.stored, h.conversations, h.participants, List.map_append,
    List.map_map, List.map_map, List.map_map, List.map_map]
  rfl

theorem Kept.mem_stored (h : Kept env start disk renamed)
    (hpath : path ∈ start.db.stored) : renamed path ∈ disk.db.stored := by
  rw [h.stored]
  exact List.mem_map_of_mem hpath

theorem Kept.refl (harranged : Arranged env start.db)
    (hsound : Sound start.tree)
    (hstates : (start.hindsight.map Prod.fst).Nodup) :
    Kept env start start id where
  arranged := harranged
  sound := hsound
  conversations := (List.map_id _).symm
  participants := (List.map_id _).symm
  experts := rfl
  unset := fun _ _ => Iff.rfl
  distinct := fun _ _ _ _ hsame => hsame
  found := fun _ _ _ _ _ hnode => Or.inl hnode
  contents := rfl
  states := rfl
  stateNames := hstates

section

variable (h : Kept env start disk renamed)
include h

/-- A step that only changes the tree. -/
theorem Kept.withTree (hsound : Sound tree)
    (hcontents : FileTree.contents tree =
      FileTree.contents disk.tree)
    (hfound : ∀ path ∈ disk.db.stored, path ≠ noPath → ∀ rest node,
      Found env disk path rest node →
        Found env { disk with tree := tree } path rest node) :
    Kept env start { disk with tree := tree } renamed where
  arranged := h.arranged
  sound := hsound
  conversations := h.conversations
  participants := h.participants
  experts := h.experts
  unset := h.unset
  distinct := h.distinct
  found := by
    intro path hstored hpath rest node hnode
    apply hfound _ (h.mem_stored hstored)
    · exact fun hnone => hpath ((h.unset path hstored).mp hnone)
    · exact h.found path hstored hpath rest node hnode
  contents := hcontents.trans h.contents
  states := h.states
  stateNames := h.stateNames

/-- Making the folder above the target. -/
theorem Kept.mkdirs (hmove : move ∈ disk.db.moves)
    (htree : mkdirs (resolve env.cwd move.newPath).dropLast disk.tree =
      some tree) : Kept env start { disk with tree := tree } renamed := by
  have hgrown := FileTree.mkdirs_grown htree h.sound
  apply h.withTree hgrown.sound hgrown.contents
  rintro path _ _ rest node (hnode | ⟨other, hother, rfl, hgone, hnode⟩)
  · exact Or.inl (hgrown.kept _ _ hnode)
  · refine Or.inr ⟨other, hother, rfl, ?_, hgrown.kept _ _ hnode⟩
    obtain ⟨hstored, hlegacy⟩ := h.arranged.oldStored other hother
    apply hgrown.fresh _ hgone
    intro hbegins
    exact (h.arranged.newClear move hmove _ hstored hlegacy).2
      (hbegins.trans (List.dropLast_prefix _))

/-- The rename. -/
theorem Kept.rename (hmove : move ∈ disk.db.moves)
    (htree : rename (resolve env.cwd move.oldPath)
      (resolve env.cwd move.newPath) disk.tree = some tree) :
    Kept env start { disk with tree := tree } renamed := by
  have hsource := (FileTree.rename_cases htree).1
  obtain ⟨hold, hlegacy⟩ := h.arranged.oldStored move hmove
  apply h.withTree (h.sound.rename htree) (FileTree.contents_rename htree)
  rintro path hstored hpath rest node
    (hnode | ⟨other, hother, rfl, hgone, hnode⟩)
  · by_cases hsame : path = move.oldPath
    · rw [hsame] at hnode ⊢
      exact Or.inr ⟨move, hmove, rfl, FileTree.nodeAt_source h.sound htree,
        FileTree.nodeAt_rename_inside h.sound htree hnode⟩
    · have hapart :=
        h.arranged.apart path hstored hpath _ hold hlegacy hsame
      exact Or.inl (FileTree.nodeAt_rename_of_not_inside h.sound htree
        (hapart.inside rest) hnode)
  · obtain ⟨hother_stored, hother_legacy⟩ := h.arranged.oldStored other hother
    have hclear := h.arranged.newClear move hmove _ hother_stored hother_legacy
    have hapart := h.arranged.newClear other hother _ hold hlegacy
    exact Or.inr ⟨other, hother, rfl,
      FileTree.nodeAt_rename_eq_none h.sound htree hclear.1 hgone,
      FileTree.nodeAt_rename_of_not_inside h.sound htree
        (hapart.inside rest) hnode⟩

/-- The memory state follows its folder. -/
theorem Kept.moveHindsight (move : Move) :
    Kept env start
      { disk with hindsight := moveHindsight env move disk.hindsight }
      renamed := by
  refine ⟨h.arranged, h.sound, h.conversations, h.participants, h.experts,
    h.unset, h.distinct, h.found, h.contents, ?_, ?_⟩
  · rw [AiTeam.Workspace.moveHindsight]
    split
    · rw [List.map_map]
      exact h.states
    · exact h.states
  · rw [AiTeam.Workspace.moveHindsight]
    split
    · next hfree =>
        rw [Bool.and_eq_true, Option.isNone_iff_eq_none] at hfree
        have hnone := hfree.2
        rw [valueAt, Option.map_eq_none_iff, lookup,
          List.find?_eq_none] at hnone
        have hnames : disk.hindsight.map (Prod.fst ∘ fun state =>
            (if state.1 = hindsightStateName env move.oldPath then
              hindsightStateName env move.newPath else state.1, state.2)) =
            (disk.hindsight.map Prod.fst).map fun name =>
              if name = hindsightStateName env move.oldPath then
                hindsightStateName env move.newPath else name := by
          rw [List.map_map]
          rfl
        rw [List.map_map, hnames]
        apply List.Nodup.map_on _ h.stateNames
        have hfresh : ∀ name ∈ disk.hindsight.map Prod.fst,
            name ≠ hindsightStateName env move.newPath := by
          intro name hname hsame
          obtain ⟨state, hstate, rfl⟩ := List.mem_map.mp hname
          exact hnone state hstate (by simpa using hsame)
        intro a ha b hb hsame
        grind
    · exact h.stateNames

/-- The rows follow, once the folder is not where it was. -/
theorem Kept.finish (hmove : move ∈ disk.db.moves)
    (hgone : nodeAt (resolve env.cwd move.oldPath) disk.tree = none) :
    Kept env start
      { disk with
        db := finishWorkspaceMove move.oldPath move.newPath disk.db }
      (rewrite move.oldPath move.newPath ∘ renamed) := by
  obtain ⟨hold, hlegacy⟩ := h.arranged.oldStored move hmove
  have hnew := h.arranged.newCanonical move hmove
  have hnew_ne : move.newPath ≠ noPath := by
    obtain ⟨path, hpath, _, hsame⟩ := hnew
    rw [hsame]
    intro hnone
    exact hpath (List.cons.inj hnone).2
  have hold_ne := isLegacy_ne_noPath hlegacy
  -- nothing stored is called as the target
  have hunused : ∀ path ∈ disk.db.stored, path ≠ move.newPath := by
    rintro path hstored rfl
    exact h.arranged.newUnused move hmove _ hstored hnew_ne
      (List.prefix_refl _)
  constructor
  · exact h.arranged.finish hmove
  · exact h.sound
  · simp only [finishWorkspaceMove, h.conversations, List.map_map]
    rfl
  · simp only [finishWorkspaceMove, h.participants, List.map_map]
    rfl
  · exact h.experts
  · intro path hstored
    rw [← h.unset path hstored, Function.comp_apply]
    by_cases hsame : renamed path = move.oldPath
    · rw [hsame, rewrite_old]
      exact iff_of_false hnew_ne hold_ne
    · rw [rewrite_other hsame]
  · intro path hstored other hother hsame
    apply h.distinct path hstored other hother
    have hpath := hunused _ (h.mem_stored hstored)
    have hother := hunused _ (h.mem_stored hother)
    rw [Function.comp_apply, Function.comp_apply, rewrite, rewrite] at hsame
    grind
  · intro path hstored hpath rest node hnode
    rw [Function.comp_apply]
    rcases h.found path hstored hpath rest node hnode with
      hthere | ⟨other, hother, hsame, hmissing, htaken⟩
    · have hne : renamed path ≠ move.oldPath := by
        intro hsame
        rw [hsame] at hthere
        apply h.sound.present
          ((h.arranged.legacy hold hlegacy).resolve_ne env.cwd) rest _ hgone
        rw [hthere]
        exact Option.some_ne_none _
      rw [rewrite_other hne]
      exact Or.inl hthere
    · by_cases hmine : renamed path = move.oldPath
      · have hmove_eq := h.arranged.eq_of_oldPath hother hmove
          (hsame.trans hmine)
        rw [hmine, rewrite_old]
        rw [hmove_eq] at htaken
        exact Or.inl htaken
      · rw [rewrite_other hmine]
        have hkept : other ∈ (finishWorkspaceMove move.oldPath move.newPath
            disk.db).moves :=
          mem_moves_finish.mpr
            ⟨hother, fun hold => hmine (hsame.symm.trans hold)⟩
        exact Or.inr ⟨other, hkept, hsame, hmissing, htaken⟩
  · exact h.contents
  · exact h.states
  · exact h.stateNames

/-- Recording the plan of a conversation. -/
theorem Kept.planConversation (hcurrent : owned.Current disk.db)
    (clock : Clock) :
    Kept env start (planConversation env clock disk owned) renamed ∧
      (planConversation env clock disk owned).db.stored = disk.db.stored := by
  rw [AiTeam.Workspace.planConversation]
  split
  · exact ⟨h, rfl⟩
  · split
    · exact ⟨h, rfl⟩
    · next moves hmoves =>
        split
        · exact ⟨h, rfl⟩
        · next db hdb =>
            obtain ⟨dir, hbase, hplanned⟩ := plan_some hcurrent hmoves
            have harranged := h.arranged.plan hbase (fun move hmove => by
              obtain ⟨⟨entry, hentry, hsame⟩, hfresh⟩ := hplanned move hmove
              have hmovable := legacyWorkspaces_movable entry hentry
              rw [hsame] at hmovable
              exact ⟨⟨hmovable.stored hcurrent, hmovable.legacy⟩, hfresh⟩) hdb
            obtain ⟨rfl, _⟩ := planWorkspaceMoves_some hdb
            refine ⟨⟨harranged, h.sound, h.conversations, h.participants,
              h.experts, h.unset, h.distinct, ?_, h.contents, h.states,
              h.stateNames⟩, rfl⟩
            intro path hstored hpath rest node hnode
            rcases h.found path hstored hpath rest node hnode with
              hthere | ⟨other, hother, hrest⟩
            · exact Or.inl hthere
            · exact Or.inr ⟨other, List.mem_append_left _ hother, hrest⟩

/-- One step of a move. -/
theorem Kept.advance (hmove : move ∈ disk.db.moves) {next : Stage}
    {after : Disk}
    (hgone : stage = .state ∨ stage = .rows →
      nodeAt (resolve env.cwd move.oldPath) disk.tree = none)
    (hstep : advance env move disk stage = some (after, next)) :
    Kept env start after renamed ∧ after.db = disk.db ∧
      (next = .state ∨ next = .rows →
        nodeAt (resolve env.cwd move.oldPath) after.tree = none) := by
  cases stage with
  | folder =>
      rw [AiTeam.Workspace.advance] at hstep
      split at hstep
      · next hnone =>
          cases hstep
          exact ⟨h, rfl, fun _ => hnone⟩
      · split at hstep
        · exact nomatch hstep
        · obtain ⟨tree, htree, hsame⟩ := Option.map_eq_some_iff.mp hstep
          cases hsame
          refine ⟨h.mkdirs hmove htree, rfl, fun hnext => ?_⟩
          rcases hnext with hnext | hnext
          · exact nomatch hnext
          · exact nomatch hnext
      · exact nomatch hstep
  | rename =>
      obtain ⟨tree, htree, hsame⟩ := Option.map_eq_some_iff.mp hstep
      cases hsame
      exact ⟨h.rename hmove htree, rfl,
        fun _ => FileTree.nodeAt_source h.sound htree⟩
  | state =>
      cases hstep
      exact ⟨h.moveHindsight move, rfl, fun _ => hgone (Or.inl rfl)⟩
  | rows => exact nomatch hstep

end

end

/-! ### Runs -/

/-- What a run that is under way relies on. -/
def Ready (env : Env) (disk : Disk) : Control → Prop
  | .stopped => True
  | .planning remaining => ∀ owned ∈ remaining, owned.Current disk.db
  | .finishing stage remaining _ =>
      (∀ move ∈ remaining, move ∈ disk.db.moves) ∧
        (remaining.map Move.oldPath).Nodup ∧
        (stage = .state ∨ stage = .rows → ∀ move ∈ remaining.head?,
          nodeAt (resolve env.cwd move.oldPath) disk.tree = none)

theorem Ready.tail {rest : List Move} {result next : MigrationResult}
    (h : Ready env disk (.finishing stage (move :: rest) result)) :
    Ready env disk (.finishing .folder rest next) := by
  obtain ⟨hmem, hnodup, _⟩ := h
  refine ⟨fun other hother => hmem other (List.mem_cons_of_mem move hother),
    (List.nodup_cons.mp hnodup).2, fun hstage => ?_⟩
  rcases hstage with hstage | hstage
  · exact nomatch hstage
  · exact nomatch hstage

theorem listWorkspaceMoves_perm (db : Db) :
    (listWorkspaceMoves db).Perm db.moves :=
  List.perm_insertionSort _ _

theorem current_of_stored {next : Db} (h : owned.Current db)
    (hsame : next.stored = db.stored) : owned.Current next := by
  constructor
  · rw [hsame]
    exact h.conversation
  · rw [hsame]
    exact h.participants

/-- The invariant of the migration and all its restarts. -/
def Safe (env : Env) (start : Disk) (world : World) : Prop :=
  (∃ renamed, Kept env start world.disk renamed) ∧
    Ready env world.disk world.control

/-- Before its rows, a move advances by one stage or is left pending. -/
theorem tick_advance {clock : Clock} {rest : List Move}
    {result : MigrationResult} (hrows : stage ≠ .rows) :
    tick env clock ⟨disk, .finishing stage (move :: rest) result⟩ =
      match advance env move disk stage with
      | some (after, next) =>
          (⟨after, .finishing next (move :: rest) result⟩, [])
      | none =>
          (⟨disk, .finishing .folder rest
            ⟨result.moved, result.pending + 1⟩⟩, []) := by
  cases stage with
  | rows => exact absurd rfl hrows
  | folder => rfl
  | rename => rfl
  | state => rfl

theorem Safe.tick {start : Disk} (h : Safe env start world) (clock : Clock) :
    Safe env start (tick env clock world).1 := by
  obtain ⟨disk, control⟩ := world
  obtain ⟨⟨renamed, hkept⟩, hready⟩ := h
  cases control with
  | stopped => exact ⟨⟨renamed, hkept⟩, trivial⟩
  | planning remaining =>
      cases remaining with
      | nil =>
          have hperm := listWorkspaceMoves_perm disk.db
          refine ⟨⟨renamed, hkept⟩, fun move hmove => hperm.mem_iff.mp hmove,
            ?_, fun hstage => ?_⟩
          · exact ((hperm.map Move.oldPath).nodup_iff).mpr hkept.arranged.olds
          · rcases hstage with hstage | hstage
            · cases hstage
            · cases hstage
      | cons owned rest =>
          have hcurrent := hready owned List.mem_cons_self
          obtain ⟨hplanned, hstored⟩ := hkept.planConversation hcurrent clock
          refine ⟨⟨renamed, hplanned⟩, fun other hother => ?_⟩
          exact current_of_stored
            (hready other (List.mem_cons_of_mem owned hother)) hstored
  | finishing stage remaining result =>
      cases remaining with
      | nil => exact ⟨⟨renamed, hkept⟩, trivial⟩
      | cons move rest =>
          have hmove := hready.1 move List.mem_cons_self
          have hgone := fun hstage => hready.2.2 hstage move rfl
          by_cases hrows : stage = .rows
          · subst hrows
            have hfinished := hkept.finish hmove (hgone (Or.inr rfl))
            refine ⟨⟨_, hfinished⟩, fun other hother => ?_, ?_, ?_⟩
            · apply mem_moves_finish.mpr
              refine ⟨hready.1 other (List.mem_cons_of_mem move hother), ?_⟩
              intro hsame
              apply (List.nodup_cons.mp hready.2.1).1
              rw [← hsame]
              exact List.mem_map_of_mem hother
            · exact (List.nodup_cons.mp hready.2.1).2
            · intro hstage
              rcases hstage with hstage | hstage
              · cases hstage
              · cases hstage
          · rw [tick_advance hrows]
            cases hstep : advance env move disk stage with
            | none => exact ⟨⟨renamed, hkept⟩, hready.tail⟩
            | some outcome =>
                obtain ⟨hafter, hdb, hnext⟩ := hkept.advance hmove hgone hstep
                refine ⟨⟨renamed, hafter⟩, ?_, hready.2.1, ?_⟩
                · rw [hdb]
                  exact hready.1
                · intro hstage other hother
                  rw [← Option.some.inj hother]
                  exact hnext hstage

theorem Safe.next {start : Disk} (h : Safe env start world) (act : Act) :
    Safe env start ((migration env).next world act) := by
  cases act with
  | tick clock => exact h.tick clock
  | crash => exact ⟨h.1, trivial⟩
  | start =>
      obtain ⟨disk, control⟩ := world
      cases control with
      | stopped => exact ⟨h.1, fun owned howned => current_listAll howned⟩
      | planning remaining => exact h
      | finishing stage remaining result => exact h

/-! ### Nothing left to do -/

/-- No move is recorded and no folder of the old layout is left to plan. -/
def Settled (env : Env) (db : Db) : Prop :=
  db.moves = [] ∧ ∀ owned ∈ listAllConversationWorkspaces db,
    legacyWorkspaces env owned [] = []

instance (env : Env) (db : Db) : Decidable (Settled env db) :=
  inferInstanceAs (Decidable (_ ∧ _))

/-- A run that has found nothing so far. -/
def Idle (env : Env) : Control → Prop
  | .stopped => True
  | .planning remaining =>
      ∀ owned ∈ remaining, legacyWorkspaces env owned [] = []
  | .finishing _ remaining _ => remaining = []

theorem planConversation_idle (hmoves : disk.db.moves = [])
    (howned : legacyWorkspaces env owned [] = []) (clock : Clock) :
    planConversation env clock disk owned = disk := by
  rw [planConversation, listWorkspaceMoves, hmoves]
  exact if_pos howned

theorem idle_next (hsettled : Settled env world.disk.db)
    (hidle : Idle env world.control) (act : Act) :
    ((migration env).next world act).disk = world.disk ∧
      Idle env ((migration env).next world act).control := by
  obtain ⟨disk, control⟩ := world
  cases act with
  | crash => exact ⟨rfl, trivial⟩
  | start =>
      cases control with
      | stopped => exact ⟨rfl, hsettled.2⟩
      | planning remaining => exact ⟨rfl, hidle⟩
      | finishing stage remaining result => exact ⟨rfl, hidle⟩
  | tick clock =>
      cases control with
      | stopped => exact ⟨rfl, trivial⟩
      | planning remaining =>
          cases remaining with
          | nil =>
              refine ⟨rfl, ?_⟩
              have hnone : listWorkspaceMoves disk.db = [] := by
                rw [listWorkspaceMoves, hsettled.1]
                rfl
              exact hnone
          | cons owned rest =>
              have hhead := planConversation_idle hsettled.1
                (hidle owned List.mem_cons_self) clock
              exact ⟨hhead, fun other hother =>
                hidle other (List.mem_cons_of_mem owned hother)⟩
      | finishing stage remaining result =>
          cases hidle
          cases stage <;> exact ⟨rfl, trivial⟩

theorem settled_run (hsettled : Settled env world.disk.db)
    (hidle : Idle env world.control) (acts : List Act) :
    ((migration env).run world acts).disk = world.disk := by
  induction acts generalizing world with
  | nil => rfl
  | cons act rest ih =>
      obtain ⟨hdisk, hnext⟩ := idle_next hsettled hidle act
      have hrest := ih (by rw [hdisk]; exact hsettled) hnext
      rw [Machine.run, hrest, hdisk]

/-! ### The migration -/

/-- What the first build with the new layout finds. -/
structure Begun (env : Env) (start : Disk) : Prop where
  laidOut : LaidOut env start.db
  moves : start.db.moves = []
  sound : Sound start.tree
  stateNames : (start.hindsight.map Prod.fst).Nodup

theorem Begun.arranged {start : Disk} (h : Begun env start) :
    Arranged env start.db := by
  have hnone : ∀ move, move ∉ start.db.moves := by
    intro move
    rw [h.moves]
    exact List.not_mem_nil
  constructor
  · exact h.laidOut
  · rw [h.moves]
    exact List.nodup_nil
  · exact fun move hmove => absurd hmove (hnone move)
  · exact fun move hmove => absurd hmove (hnone move)
  · exact fun move hmove => absurd hmove (hnone move)
  · exact fun move hmove => absurd hmove (hnone move)
  · exact fun move hmove => absurd hmove (hnone move)

end

/-- What the migration has made of the disk it found. -/
structure Migrated (env : Env) (start : Disk) (world : World)
    (renamed : PathText → PathText) : Prop where
  conversations : world.disk.db.conversations =
    start.db.conversations.map fun row =>
      { row with workspace := renamed row.workspace }
  participants : world.disk.db.participants =
    start.db.participants.map fun row =>
      { row with workspace := renamed row.workspace }
  /-- A path without a recorded move names what it named before, and perhaps
  folders that were moved into it. -/
  named : ∀ path ∈ start.db.stored, path ≠ noPath →
    (∀ move ∈ world.disk.db.moves, move.oldPath ≠ renamed path) →
    ∀ rest node, nodeAt (resolve env.cwd path ++ rest) start.tree = some node →
      nodeAt (resolve env.cwd (renamed path) ++ rest) world.disk.tree =
        some node
  distinct : ∀ path ∈ start.db.stored, ∀ other ∈ start.db.stored,
    renamed path = renamed other → path = other
  targets : ∀ move ∈ world.disk.db.moves,
    move.newPath ∉ world.disk.db.stored ∧
      ∀ other ∈ world.disk.db.moves,
        move.newPath = other.newPath → move = other
  contents : contents world.disk.tree = contents start.tree
  paths : (world.disk.tree.map Prod.fst).Nodup
  states : world.disk.hindsight.map Prod.snd = start.hindsight.map Prod.snd
  stateNames : (world.disk.hindsight.map Prod.fst).Nodup
  /-- Starting again changes nothing when nothing is left to do. -/
  settled : world.control = .stopped → Settled env world.disk.db →
    ∀ more, ((migration env).run world more).disk = world.disk

/-- However often the migration crashes and starts again, a stored path
without a recorded move names what it named before, different paths stay
different and no two moves have one target, every file is still there at a
path of its own, and once nothing is left to do no run changes anything. -/
theorem migration_keeps_files (env : Env) (start : Disk)
    (hbegun : Begun env start) (acts : List Act) :
    ∃ renamed, Migrated env start
      ((migration env).run ⟨start, .stopped⟩ acts) renamed := by
  have hstart : Safe env start ⟨start, .stopped⟩ :=
    ⟨⟨id, Kept.refl hbegun.arranged hbegun.sound hbegun.stateNames⟩, trivial⟩
  have hsafe := (migration env).stateInvariant (Safe env start)
    (fun _ act h _ => h.next act) acts hstart
    ((migration env).admissible_true _ acts)
  obtain ⟨⟨renamed, hkept⟩, _⟩ := hsafe
  refine ⟨renamed, hkept.conversations, hkept.participants, ?_, hkept.distinct,
    ?_, hkept.contents, hkept.sound.nodup, hkept.states, hkept.stateNames, ?_⟩
  · intro path hstored hpath hfinished rest node hnode
    rcases hkept.found path hstored hpath rest node hnode with
      hthere | ⟨move, hmove, hsame, _⟩
    · exact hthere
    · exact absurd hsame (hfinished move hmove)
  · intro move hmove
    refine ⟨fun hstored => ?_, fun other hother hsame => ?_⟩
    · obtain ⟨path, hpath, _, htext⟩ := hkept.arranged.newCanonical move hmove
      apply hkept.arranged.newUnused move hmove _ hstored _ (List.prefix_refl _)
      rw [htext]
      exact fun hnone => hpath (List.cons.inj hnone).2
    · by_contra hne
      apply hkept.arranged.news move hmove other hother hne
      rw [hsame]
  · intro hstopped hsettled more
    apply settled_run hsettled
    rw [hstopped]
    trivial

namespace CrashWitness

def env : Env where
  root := ["workspaces"]
  cwd := ["agent"]
  sha256 := fun _ => "a9b8c7d6e5f4a3b2c1d0e9f8a7b6c5d4"

def clock : Clock := ⟨"2026-11-03T00:00:00Z", fun _ => "20261103"⟩

def legacyName : String := "conversation-0123456789abcdef01234567"

def oldPath : PathText := ["", "workspaces", legacyName]

def conversation (id : String) (workspace : PathText) : Conversation where
  id := id
  kind := "direct"
  title := some "report"
  entryEmployeeId := none
  coordinatorEmployeeId := none
  workspace := workspace
  tenantId := none
  memberId := none
  createdAt := "2026-11-01T00:00:00Z"

def start : Disk where
  tree :=
    [(["workspaces"], .dir), (["workspaces", legacyName], .dir),
      (["workspaces", legacyName, "a.md"], .file "a")]
  hindsight := []
  db := ⟨[conversation "c1" oldPath], [], [], []⟩

theorem begun : Begun env start where
  laidOut := by
    constructor
    · intro path hpath _
      rw [List.mem_singleton.mp (by exact hpath : path ∈ [oldPath])]
      refine ⟨["workspaces", legacyName], by decide, ?_, rfl⟩
      intro name hname
      revert name
      simp only [List.mem_cons, List.not_mem_nil, or_false, forall_eq_or_imp,
        forall_eq]
      exact ⟨by unfold Proper; decide, by unfold Proper; decide⟩
    · decide
  moves := rfl
  sound := FileTree.Sound.of_entries (by decide) (by decide) (by decide)
  stateNames := List.nodup_nil

/-- A path inside a folder that is to move, and another text for the
folder. -/
def overlapping : Disk where
  tree := start.tree ++
    [(["workspaces", legacyName, "sub"], .dir),
      (["workspaces", legacyName, "sub", "b.md"], .file "b")]
  hindsight := []
  db := ⟨[conversation "c1" oldPath, conversation "c2" (oldPath ++ ["sub"]),
    conversation "c3" ["", "workspaces", ".", legacyName]], [], [], []⟩

/-- A crash after the rename, and the next start. -/
def acts : List Act :=
  [.start] ++ List.replicate 4 (.tick clock) ++ [.crash, .start] ++
    List.replicate 6 (.tick clock)

end CrashWitness

open CrashWitness in
theorem migration_keeps_files_restarted :
    (∃ renamed, Migrated env start
      ((migration env).run ⟨start, .stopped⟩ acts) renamed) ∧
      (migration env).trace ⟨start, .stopped⟩ acts = [⟨1, 0⟩] := by
  refine ⟨migration_keeps_files env start begun acts, ?_⟩
  decide

open CrashWitness in
/-- Rows are rewritten by exact text: a path inside the folder, and all but one
of two texts for it, name nothing after the run. -/
theorem overlapping_paths_dangle :
    let world := (migration env).run ⟨overlapping, .stopped⟩
      (.start :: List.replicate 16 (.tick clock))
    world.control = .stopped ∧ world.disk.db.moves = [] ∧
      (∀ path ∈ overlapping.db.stored,
        nodeAt (resolve env.cwd path) overlapping.tree = some .dir) ∧
      world.disk.db.stored.map (fun path =>
        (nodeAt (resolve env.cwd path) world.disk.tree).isSome) =
          [false, false, true] := by
  decide

end AiTeam.Workspace
