/-
What a plan may move, and where to: folders of the old layout to free paths
that overlap none of the paths in use.
-/
import AiTeam.Workspace.Migration

namespace AiTeam.Workspace

open FileTree (Path Apart existsAt)

theorem textOf_prefix {a b : Path} : textOf a <+: textOf b ↔ a <+: b := by
  rw [textOf, textOf, List.cons_prefix_cons]
  exact and_iff_right rfl

variable {text path : PathText} {dir : Path} {name : String} {db : Db}
  {owned : OwnedWorkspaces} {planned : List PathText}
  {tree : FileTree.Tree String} {moves : List (PathText × PathText)}

theorem Canonical.prefix_resolve (h : Canonical text) (cwd path : Path) :
    path <+: resolve cwd text ↔ textOf path <+: text := by
  conv_rhs => rw [← h.textOf_resolve cwd]
  exact textOf_prefix.symm

theorem Canonical.resolve_inj {a b : PathText} (ha : Canonical a)
    (hb : Canonical b) (cwd : Path) (h : resolve cwd a = resolve cwd b) :
    a = b := by
  rw [← ha.textOf_resolve cwd, h, hb.textOf_resolve]

theorem Canonical.proper (h : Canonical text) (cwd : Path) :
    ∀ name ∈ resolve cwd text, Proper name := by
  obtain ⟨path, hpath, hproper, rfl⟩ := h
  rw [resolve_textOf hpath hproper]
  exact hproper

theorem proper_concat (hdir : ∀ name ∈ dir, Proper name) (hname : Proper name) :
    ∀ other ∈ dir ++ [name], Proper other := by
  intro other hother
  rcases List.mem_append.mp hother with hmem | hlast
  · exact hdir other hmem
  · rw [List.mem_singleton.mp hlast]
    exact hname

theorem canonical_concat (hdir : ∀ name ∈ dir, Proper name)
    (hname : Proper name) : Canonical (textOf (dir ++ [name])) :=
  ⟨dir ++ [name], by simp, proper_concat hdir hname, rfl⟩

theorem resolve_concat (hdir : ∀ name ∈ dir, Proper name) (hname : Proper name)
    (cwd : Path) : resolve cwd (textOf (dir ++ [name])) = dir ++ [name] :=
  resolve_textOf (by simp) (proper_concat hdir hname) cwd

theorem workspaceInUse_eq_false :
    workspaceInUse db path = false ↔ ∀ other ∈ db.inUse, ¬ path <+: other := by
  rw [workspaceInUse, List.any_eq_false]
  simp only [List.isPrefixOf_iff_prefix]

section

variable {env : Env}

theorem isLegacy_resolve (h : isLegacy env path = true) :
    resolve env.cwd path = env.root ++ [basename path] := by
  rw [isLegacy, Bool.and_eq_true, decide_eq_true_eq] at h
  exact h.1

/-- Both are folders of the root, or one of them is no folder of the old
layout. -/
theorem isLegacy_length (h : isLegacy env path = true) :
    (resolve env.cwd path).length = env.root.length + 1 := by
  rw [isLegacy_resolve h, List.length_append]
  rfl

/-! ### The folders to move -/

/-- The rows are those of the store. -/
structure OwnedWorkspaces.Current (owned : OwnedWorkspaces) (db : Db) :
    Prop where
  conversation : owned.conversation.workspace ∈ db.stored
  participants : ∀ participant ∈ owned.participants,
    participant.workspace ∈ db.stored

theorem current_listAll (h : owned ∈ listAllConversationWorkspaces db) :
    owned.Current db := by
  obtain ⟨conversation, hconversation, rfl⟩ := List.mem_map.mp h
  constructor
  · exact List.mem_append_left _ (List.mem_map_of_mem hconversation)
  · intro participant hparticipant
    have hmem := (List.mem_filter.mp hparticipant).1
    exact List.mem_append_right _ (List.mem_map_of_mem hmem)

/-- A folder the plan of a conversation moves. -/
structure Movable (env : Env) (owned : OwnedWorkspaces)
    (planned : List PathText) (path : PathText) : Prop where
  owned : path = owned.conversation.workspace ∨
    ∃ participant ∈ owned.participants, path = participant.workspace
  unplanned : path ∉ planned
  legacy : isLegacy env path = true

theorem movable_addLegacy {legacy : LegacyWorkspaces}
    {candidate : PathText × Option String}
    (h : ∀ entry ∈ legacy, Movable env owned planned entry.1)
    (hcandidate : candidate.1 = owned.conversation.workspace ∨
      ∃ participant ∈ owned.participants,
        candidate.1 = participant.workspace) :
    ∀ entry ∈ addLegacy env planned legacy candidate,
      Movable env owned planned entry.1 := by
  rw [addLegacy]
  split
  · exact h
  · next hskip =>
      split
      · next hlegacy =>
          intro entry hentry
          rcases List.mem_append.mp hentry with hold | hnew
          · exact h entry hold
          · rw [List.mem_singleton.mp hnew]
            simp only [Bool.or_eq_true, decide_eq_true_eq,
              List.contains_iff_mem, not_or] at hskip
            exact ⟨hcandidate, hskip.1.2, hlegacy⟩
      · exact h

theorem legacyWorkspaces_movable :
    ∀ entry ∈ legacyWorkspaces env owned planned,
      Movable env owned planned entry.1 := by
  rw [legacyWorkspaces]
  have hcandidates : ∀ candidate ∈
      owned.participants.map (fun participant =>
        (participant.workspace, some participant.employeeId)) ++
      [(owned.conversation.workspace, owned.conversation.entryEmployeeId)],
      candidate.1 = owned.conversation.workspace ∨
        ∃ participant ∈ owned.participants,
          candidate.1 = participant.workspace := by
    intro candidate hcandidate
    rcases List.mem_append.mp hcandidate with hparticipant | hconversation
    · obtain ⟨participant, hmem, rfl⟩ := List.mem_map.mp hparticipant
      exact Or.inr ⟨participant, hmem, rfl⟩
    · rw [List.mem_singleton.mp hconversation]
      exact Or.inl rfl
  generalize owned.participants.map _ ++ _ = candidates at hcandidates ⊢
  have hnone : ∀ entry ∈ ([] : LegacyWorkspaces),
      Movable env owned planned entry.1 := fun _ hentry => nomatch hentry
  generalize ([] : LegacyWorkspaces) = legacy at hnone ⊢
  induction candidates generalizing legacy with
  | nil => exact hnone
  | cons candidate rest ih =>
      apply ih fun other hother =>
        hcandidates other (List.mem_cons_of_mem candidate hother)
      exact movable_addLegacy hnone (hcandidates candidate List.mem_cons_self)

theorem Movable.stored (h : Movable env owned planned path)
    (hcurrent : owned.Current db) : path ∈ db.stored := by
  rcases h.owned with rfl | ⟨participant, hmem, rfl⟩
  · exact hcurrent.conversation
  · exact hcurrent.participants participant hmem

/-! ### The folders they move to -/

/-- Where a plan makes folders: in the root, in a new conversation's folder or
in one a participant is in. -/
inductive Base (env : Env) (db : Db) (dir : Path) : Prop where
  | root (h : dir = env.root)
  | fresh (name : String) (hname : Proper name) (h : dir = env.root ++ [name])
      (hunused : workspaceInUse db (textOf dir) = false)
  | shared (path : PathText) (hstored : path ∈ db.stored) (hpath : path ≠ noPath)
      (hroot : (resolve env.cwd path).dropLast.dropLast = env.root)
      (h : dir = (resolve env.cwd path).dropLast)

/-- A free name in a folder. -/
def Fresh (db : Db) (tree : FileTree.Tree String) (dir : Path)
    (text : PathText) :
    Prop :=
  ∃ name, Proper name ∧ text = textOf (dir ++ [name]) ∧
    existsAt (dir ++ [name]) tree = false ∧ workspaceInUse db text = false

theorem chooseFolders_some {experts : List Expert} {legacy : LegacyWorkspaces}
    {chosen : List PathText}
    (h : chooseFolders env db tree experts dir chosen legacy = some moves) :
    ∀ move ∈ moves, (∃ entry ∈ legacy, entry.1 = move.1) ∧
      Fresh db tree dir move.2 := by
  induction legacy generalizing chosen moves with
  | nil =>
      rw [chooseFolders, Option.some.injEq] at h
      rw [← h]
      exact fun _ hmove => nomatch hmove
  | cons entry rest ih =>
      obtain ⟨oldPath, employeeId⟩ := entry
      rw [chooseFolders] at h
      split at h
      · exact nomatch h
      · next newPath hnew =>
          obtain ⟨others, hothers, rfl⟩ := Option.map_eq_some_iff.mp h
          obtain ⟨name, hname, rfl, hfree, huse⟩ := employeeFolder_some hnew
          rw [Bool.or_eq_false_iff] at huse
          intro move hmove
          rcases List.mem_cons.mp hmove with rfl | hrest
          · exact ⟨⟨_, List.mem_cons_self, rfl⟩, name, hname, rfl, hfree,
              huse.2⟩
          · obtain ⟨⟨found, hmem, hsame⟩, hfresh⟩ := ih hothers move hrest
            exact ⟨⟨found, List.mem_cons_of_mem _ hmem, hsame⟩, hfresh⟩

theorem sharedWorkspace_some (hcurrent : owned.Current db)
    (h : sharedWorkspace env owned = some path) :
    Base env db (resolve env.cwd path).dropLast := by
  have hfound := List.find?_some h
  rw [Bool.and_eq_true, decide_eq_true_eq, decide_eq_true_eq] at hfound
  obtain ⟨participant, hmem, rfl⟩ :=
    List.mem_map.mp (List.mem_of_find?_eq_some h)
  exact .shared _ (hcurrent.participants participant hmem) hfound.1 hfound.2
    rfl

theorem conversationDir_some {clock : Clock} (hcurrent : owned.Current db)
    {leaderName : Option String}
    (h : conversationDir env clock db tree owned leaderName = some dir) :
    Base env db dir := by
  rw [conversationDir] at h
  split at h
  · next shared hshared =>
      rw [← Option.some.inj h]
      exact sharedWorkspace_some hcurrent hshared
  · obtain ⟨name, hname, rfl, _, hunused⟩ := conversationFolder_some h
    exact .fresh name hname rfl hunused

/-- A plan moves the folders it was given, each to a free path of one
folder. -/
theorem plan_some {clock : Clock} (hcurrent : owned.Current db)
    {legacy : LegacyWorkspaces}
    (h : plan env clock db tree owned legacy = some moves) :
    ∃ dir, Base env db dir ∧ ∀ move ∈ moves,
      (∃ entry ∈ legacy, entry.1 = move.1) ∧ Fresh db tree dir move.2 := by
  rw [plan] at h
  split at h
  · split at h
    · next dir hdir =>
        exact ⟨dir, conversationDir_some hcurrent hdir, chooseFolders_some h⟩
    · exact nomatch h
  · split at h
    · next oldPath employeeId hhead =>
        obtain ⟨newPath, hnew, rfl⟩ := Option.map_eq_some_iff.mp h
        obtain ⟨name, hname, rfl, hfree, hunused⟩ :=
          conversationFolder_some hnew
        refine ⟨env.root, .root rfl, fun move hmove => ?_⟩
        rw [List.mem_singleton.mp hmove]
        exact ⟨⟨_, List.mem_of_head? hhead, rfl⟩, name, hname, rfl, hfree,
          hunused⟩
    · rw [← Option.some.inj h]
      exact ⟨env.root, .root rfl, fun _ hmove => nomatch hmove⟩

/-! ### How the paths lie -/

/-- Stored paths as the Agent writes them: resolved, and nothing overlaps a
folder of the old layout but the paths that name it. -/
structure LaidOut (env : Env) (db : Db) : Prop where
  canonical : ∀ path ∈ db.stored, path ≠ noPath → Canonical path
  apart : ∀ path ∈ db.stored, path ≠ noPath → ∀ other ∈ db.stored,
    isLegacy env other = true → path ≠ other →
      Apart (resolve env.cwd path) (resolve env.cwd other)

/-- The recorded moves lead from stored folders of the old layout to paths
that overlap none of these, and no two to the same one. -/
structure Arranged (env : Env) (db : Db) : Prop extends LaidOut env db where
  olds : (db.moves.map Move.oldPath).Nodup
  oldStored : ∀ move ∈ db.moves, move.oldPath ∈ db.stored ∧
    isLegacy env move.oldPath = true
  newCanonical : ∀ move ∈ db.moves, Canonical move.newPath
  newClear : ∀ move ∈ db.moves, ∀ path ∈ db.stored,
    isLegacy env path = true →
      Apart (resolve env.cwd move.newPath) (resolve env.cwd path)
  newUnused : ∀ move ∈ db.moves, ∀ path ∈ db.stored, path ≠ noPath →
    ¬ resolve env.cwd move.newPath <+: resolve env.cwd path
  news : ∀ move ∈ db.moves, ∀ other ∈ db.moves, move ≠ other →
    ¬ resolve env.cwd move.newPath <+: resolve env.cwd other.newPath

theorem isLegacy_ne_noPath (h : isLegacy env path = true) : path ≠ noPath := by
  rintro rfl
  rw [isLegacy, Bool.and_eq_true] at h
  exact absurd h.2 (by decide)

theorem LaidOut.legacy (h : LaidOut env db) (hstored : path ∈ db.stored)
    (hlegacy : isLegacy env path = true) : Canonical path :=
  h.canonical path hstored (isLegacy_ne_noPath hlegacy)

theorem LaidOut.root_proper (h : LaidOut env db) (hstored : path ∈ db.stored)
    (hlegacy : isLegacy env path = true) : ∀ name ∈ env.root, Proper name := by
  have hproper := (h.legacy hstored hlegacy).proper env.cwd
  rw [isLegacy_resolve hlegacy] at hproper
  exact fun name hname => hproper name (List.mem_append_left _ hname)

variable (env) in
/-- A path in use does not begin with a free one. -/
theorem not_prefix_of_unused {path : Path}
    (hunused : workspaceInUse db (textOf path) = false)
    (huse : text ∈ db.inUse) (hcanonical : Canonical text) :
    ¬ path <+: resolve env.cwd text := by
  rw [hcanonical.prefix_resolve]
  exact workspaceInUse_eq_false.mp hunused text huse

namespace Base

variable {db : Db} {dir : Path}

theorem proper (hbase : Base env db dir) (h : LaidOut env db)
    (hroot : ∀ name ∈ env.root, Proper name) : ∀ name ∈ dir, Proper name := by
  cases hbase with
  | root hdir =>
      rw [hdir]
      exact hroot
  | fresh name hname hdir =>
      rw [hdir]
      exact proper_concat hroot hname
  | shared path hstored hpath _ hdir =>
      rw [hdir]
      intro name hname
      exact (h.canonical path hstored hpath).proper env.cwd name
        (List.mem_of_mem_dropLast hname)

/-- No new folder is made inside a folder of the old layout. -/
theorem not_inside (hbase : Base env db dir) (h : LaidOut env db)
    (hstored : path ∈ db.stored) (hlegacy : isLegacy env path = true) :
    ¬ resolve env.cwd path <+: dir := by
  have hlength := isLegacy_length hlegacy
  cases hbase with
  | root hdir =>
      intro hbegins
      have hle := hbegins.length_le
      rw [hdir] at hle
      omega
  | fresh name _ hdir hunused =>
      intro hbegins
      have hsame : resolve env.cwd path = dir := by
        apply hbegins.eq_of_length
        rw [hlength, hdir, List.length_append]
        rfl
      apply not_prefix_of_unused env hunused
        (List.mem_append_left _ hstored) (h.legacy hstored hlegacy)
      rw [hsame]
  | shared other hother hpath _ hdir =>
      intro hbegins
      rw [hdir] at hbegins
      have hinside := hbegins.trans (List.dropLast_prefix _)
      have hne : other ≠ path := by
        rintro rfl
        have hle := hbegins.length_le
        rw [List.length_dropLast] at hle
        omega
      exact (h.apart other hother hpath path hstored hlegacy hne).2 hinside

/-- Nor inside one another move leads to. -/
theorem not_pending (hbase : Base env db dir) (h : Arranged env db)
    {old : PathText} (hold : old ∈ db.stored)
    (hlegacy : isLegacy env old = true) {move : Move} (hmove : move ∈ db.moves) :
    ¬ resolve env.cwd move.newPath <+: dir := by
  have hroot : ¬ resolve env.cwd move.newPath <+: env.root := by
    intro hbegins
    apply (h.newClear move hmove old hold hlegacy).1
    rw [isLegacy_resolve hlegacy]
    exact hbegins.trans (List.prefix_append _ _)
  cases hbase with
  | root hdir =>
      rw [hdir]
      exact hroot
  | fresh name _ hdir hunused =>
      intro hbegins
      rw [hdir, List.prefix_concat_iff] at hbegins
      rcases hbegins with hsame | hinside
      · apply not_prefix_of_unused env hunused
          (List.mem_append_right _ (List.mem_map_of_mem hmove))
          (h.newCanonical move hmove)
        rw [hsame, hdir]
      · exact hroot hinside
  | shared other hother hpath _ hdir =>
      intro hbegins
      rw [hdir] at hbegins
      exact h.newUnused move hmove other hother hpath
        (hbegins.trans (List.dropLast_prefix _))

end Base

/-- What holds of the target of a new move. -/
structure Target (env : Env) (db : Db) (text : PathText) : Prop where
  canonical : Canonical text
  clear : ∀ path ∈ db.stored, isLegacy env path = true →
    Apart (resolve env.cwd text) (resolve env.cwd path)
  unused : ∀ path ∈ db.stored, path ≠ noPath →
    ¬ resolve env.cwd text <+: resolve env.cwd path
  pending : ∀ move ∈ db.moves,
    Apart (resolve env.cwd text) (resolve env.cwd move.newPath)

theorem Fresh.target (hfresh : Fresh db tree dir text)
    (hbase : Base env db dir) (h : Arranged env db) {old : PathText}
    (hold : old ∈ db.stored) (hlegacy : isLegacy env old = true) :
    Target env db text := by
  obtain ⟨name, hname, rfl, _, hunused⟩ := hfresh
  have hroot := h.root_proper hold hlegacy
  have hdir := hbase.proper h.toLaidOut hroot
  have hresolve := resolve_concat hdir hname env.cwd
  refine ⟨canonical_concat hdir hname, ?_, ?_, ?_⟩
  · intro path hstored hpath
    have hfree : ¬ dir ++ [name] <+: resolve env.cwd path :=
      not_prefix_of_unused env hunused (List.mem_append_left _ hstored)
        (h.legacy hstored hpath)
    rw [hresolve]
    refine ⟨hfree, fun hbegins => ?_⟩
    rw [List.prefix_concat_iff] at hbegins
    rcases hbegins with hsame | hinside
    · exact hfree (by rw [hsame])
    · exact hbase.not_inside h.toLaidOut hstored hpath hinside
  · intro path hstored hpath
    rw [hresolve]
    exact not_prefix_of_unused env hunused (List.mem_append_left _ hstored)
      (h.canonical path hstored hpath)
  · intro move hmove
    have hfree : ¬ dir ++ [name] <+: resolve env.cwd move.newPath :=
      not_prefix_of_unused env hunused
        (List.mem_append_right _ (List.mem_map_of_mem hmove))
        (h.newCanonical move hmove)
    rw [hresolve]
    refine ⟨hfree, fun hbegins => ?_⟩
    rw [List.prefix_concat_iff] at hbegins
    rcases hbegins with hsame | hinside
    · exact hfree (by rw [hsame])
    · exact hbase.not_pending h hold hlegacy hmove hinside

theorem planWorkspaceMoves_some {now : String} {next : Db}
    (h : planWorkspaceMoves now moves db = some next) :
    next = { db with
        moves := db.moves ++ moves.map fun move => ⟨move.1, move.2, now⟩ } ∧
      (next.moves.map Move.oldPath).Nodup ∧
      (next.moves.map Move.newPath).Nodup := by
  rw [planWorkspaceMoves] at h
  split at h
  · next hkeys =>
      rw [← Option.some.inj h]
      exact ⟨rfl, hkeys⟩
  · exact nomatch h

/-- Recording a plan. -/
theorem Arranged.plan {next : Db} (h : Arranged env db)
    (hbase : Base env db dir) {now : String}
    (hmoves : ∀ move ∈ moves, (move.1 ∈ db.stored ∧
      isLegacy env move.1 = true) ∧ Fresh db tree dir move.2)
    (hplan : planWorkspaceMoves now moves db = some next) :
    Arranged env next := by
  obtain ⟨rfl, holds, hnews⟩ := planWorkspaceMoves_some hplan
  have hcases : ∀ move ∈ db.moves ++
      moves.map (fun move => (⟨move.1, move.2, now⟩ : Move)),
      move ∈ db.moves ∨ (move.oldPath ∈ db.stored ∧
        isLegacy env move.oldPath = true) ∧
          Fresh db tree dir move.newPath ∧ Target env db move.newPath := by
    intro move hmove
    rcases List.mem_append.mp hmove with hold | hnew
    · exact Or.inl hold
    · obtain ⟨planned, hmem, rfl⟩ := List.mem_map.mp hnew
      obtain ⟨hlegacy, hfresh⟩ := hmoves planned hmem
      exact Or.inr ⟨hlegacy, hfresh,
        hfresh.target hbase h hlegacy.1 hlegacy.2⟩
  constructor
  · exact ⟨h.canonical, h.apart⟩
  · exact holds
  · intro move hmove
    rcases hcases move hmove with hold | ⟨hlegacy, _⟩
    · exact h.oldStored move hold
    · exact hlegacy
  · intro move hmove
    rcases hcases move hmove with hold | ⟨_, _, htarget⟩
    · exact h.newCanonical move hold
    · exact htarget.canonical
  · intro move hmove
    rcases hcases move hmove with hold | ⟨_, _, htarget⟩
    · exact h.newClear move hold
    · exact htarget.clear
  · intro move hmove
    rcases hcases move hmove with hold | ⟨_, _, htarget⟩
    · exact h.newUnused move hold
    · exact htarget.unused
  · intro move hmove other hother hne
    rcases hcases move hmove with hold | ⟨_, hfresh, htarget⟩
    · rcases hcases other hother with hold' | ⟨_, _, htarget'⟩
      · exact h.news move hold other hold' hne
      · exact (htarget'.pending move hold).2
    · rcases hcases other hother with hold' | ⟨hlegacy', hfresh', htarget'⟩
      · exact (htarget.pending other hold').1
      · -- two new folders in one place have different names
        intro hbegins
        obtain ⟨name, hname, hpath, _⟩ := hfresh
        obtain ⟨name', hname', hpath', _⟩ := hfresh'
        have hdir := hbase.proper h.toLaidOut
          (h.root_proper hlegacy'.1 hlegacy'.2)
        have hsame : move.newPath = other.newPath := by
          apply htarget.canonical.resolve_inj htarget'.canonical env.cwd
          apply hbegins.eq_of_length
          rw [hpath, hpath', resolve_concat hdir hname,
            resolve_concat hdir hname', List.length_append,
            List.length_append]
          rfl
        exact hne (List.inj_on_of_nodup_map hnews hmove hother hsame)

end

end AiTeam.Workspace
