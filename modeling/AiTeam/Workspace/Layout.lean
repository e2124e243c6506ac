/-
Where employees work: paths as the database stores them, and the names of the
folders made for conversations and for the employees in them.
-/
import Mathlib.Data.List.DropRight
import AiTeam.FileTree

namespace AiTeam.Workspace

open FileTree (Path existsAt)

/-! ### Stored paths -/

/-- The text of a path, split at every `/`. -/
abbrev PathText := List String

/-- The empty text. -/
def noPath : PathText := [""]

def textOf (path : Path) : PathText := "" :: path

/-- One name of a text, on the way to the path it means. -/
def enter (path : Path) (name : String) : Path :=
  if name = "" || name = "." then path
  else if name = ".." then path.dropLast
  else path ++ [name]

/-- `path.resolve`. -/
def resolve (cwd : Path) (text : PathText) : Path :=
  match text with
  | "" :: name :: rest => (name :: rest).foldl enter []
  | relative => relative.foldl enter cwd

/-- `path.basename`. -/
def basename (text : PathText) : String :=
  ((text.filter fun name => name ≠ "").getLast?).getD ""

/-- A name a folder can have. -/
def Proper (name : String) : Prop := name ≠ "" ∧ name ≠ "." ∧ name ≠ ".."

/-- The text `path.resolve` writes for a path. -/
def Canonical (text : PathText) : Prop :=
  ∃ path, path ≠ [] ∧ (∀ name ∈ path, Proper name) ∧ text = textOf path

theorem foldl_enter {names : List String} (h : ∀ name ∈ names, Proper name)
    (path : Path) : names.foldl enter path = path ++ names := by
  induction names generalizing path with
  | nil => rw [List.foldl_nil, List.append_nil]
  | cons name rest ih =>
      obtain ⟨hempty, hdot, hdots⟩ := h name List.mem_cons_self
      have hname : enter path name = path ++ [name] := by
        simp [enter, hempty, hdot, hdots]
      rw [List.foldl_cons, hname,
        ih fun other hother => h other (List.mem_cons_of_mem name hother),
        List.append_assoc, List.singleton_append]

variable {path : Path} {text : List Char} {taken : PathText → Bool}

theorem resolve_textOf (hpath : path ≠ []) (h : ∀ name ∈ path, Proper name)
    (cwd : Path) : resolve cwd (textOf path) = path := by
  cases path with
  | nil => exact absurd rfl hpath
  | cons name rest => exact foldl_enter h []

theorem Canonical.textOf_resolve {text : PathText} (h : Canonical text)
    (cwd : Path) : textOf (resolve cwd text) = text := by
  obtain ⟨path, hpath, hproper, rfl⟩ := h
  rw [resolve_textOf hpath hproper]

theorem Canonical.resolve_ne {text : PathText} (h : Canonical text)
    (cwd : Path) : resolve cwd text ≠ [] := by
  obtain ⟨path, hpath, hproper, rfl⟩ := h
  rw [resolve_textOf hpath hproper]
  exact hpath

/-! ### Names of folders -/

/-- `\s`. -/
def isSpace (c : Char) : Bool :=
  (0x09 ≤ c.toNat && c.toNat ≤ 0x0D) || (0x2000 ≤ c.toNat && c.toNat ≤ 0x200A) ||
    [0x20, 0xA0, 0x1680, 0x2028, 0x2029, 0x202F, 0x205F, 0x3000,
      0xFEFF].contains c.toNat

def isDot (c : Char) : Bool := c = '.'

/-- `[.\s]`. -/
def isDotOrSpace (c : Char) : Bool := isDot c || isSpace c

/-- `[\u0000-\u001f\u007f/\\:]`. -/
def isUnsafe (c : Char) : Bool :=
  c.toNat ≤ 0x1F || [0x7F, 0x2F, 0x5C, 0x3A].contains c.toNat

/-- `[*?"<>|]`. -/
def isHostile (c : Char) : Bool :=
  [0x2A, 0x3F, 0x22, 0x3C, 0x3E, 0x7C].contains c.toNat

/-- `[A-Za-z0-9_-]`. -/
def isWord (c : Char) : Bool := c.isAlphanum || c = '_' || c = '-'

def replaceRunsFrom (bad : Char → Bool) : Bool → List Char → List Char
  | _, [] => []
  | inRun, c :: rest =>
      if bad c then
        if inRun then replaceRunsFrom bad true rest
        else '_' :: replaceRunsFrom bad true rest
      else c :: replaceRunsFrom bad false rest

/-- `replace(/[...]+/gu, "_")`. -/
def replaceRuns (bad : Char → Bool) (text : List Char) : List Char :=
  replaceRunsFrom bad false text

/-- `trim()`. -/
def trim (text : List Char) : List Char :=
  (text.dropWhile isSpace).rdropWhile isSpace

/-- How many UTF-16 units a character takes. -/
def units (c : Char) : Nat := if c.toNat ≤ 0xFFFF then 1 else 2

/-- `slice(0, n)`, which counts UTF-16 units; half a pair is stored as the
replacement character. -/
def slice : Nat → List Char → List Char
  | _, [] => []
  | n, c :: rest =>
      if units c ≤ n then c :: slice (n - units c) rest
      else if n = 0 then []
      else [Char.ofNat 0xFFFD]

def safePathSegment (value fallback : List Char) : List Char :=
  let cleaned := trim (slice 64
    (trim ((replaceRuns isUnsafe value).dropWhile isDotOrSpace)))
  let plain := slice 64 (replaceRuns (fun c => !isWord c) fallback)
  if cleaned ≠ [] then cleaned else if plain ≠ [] then plain else ['_']

def nameChars : Nat := 40

/-- One folder name: separators, control and shell-hostile characters are
replaced. -/
def folderSegment (value fallback : String) : String :=
  let cleaned := replaceRuns isHostile
    (safePathSegment value.toList fallback.toList)
  let short := (cleaned.take nameChars).rdropWhile isDotOrSpace
  String.ofList (if short ≠ [] then short
    else safePathSegment fallback.toList fallback.toList)

/-- `UNTITLED`. -/
def untitled : String := "会话"

/-- The folder of all workspaces, the Agent's own folder and the hash. -/
structure Env where
  root : Path
  cwd : Path
  sha256 : String → String

/-- The clock, and the day a text stands for, today's if it is no date. -/
structure Clock where
  now : String
  day : String → String

/-- A text that is not blank, trimmed. -/
def filledName (text : Option String) : Option String :=
  match text with
  | some text =>
      if trim text.toList = [] then none
      else some (String.ofList (trim text.toList))
  | none => none

def conversationFolderBase (clock : Clock) (title employeeName : Option String)
    (createdAt : String) : String :=
  match filledName title with
  | some title => folderSegment title untitled
  | none =>
      folderSegment ((filledName employeeName).getD untitled ++ "-" ++
        clock.day createdAt) untitled

def shortId (env : Env) (id : String) (length : Nat) : String :=
  String.ofList ((env.sha256 id).toList.take length)

/-- The first of the paths that is free. -/
def firstFree {C : Type} (tree : FileTree.Tree C) (taken : PathText → Bool)
    (candidates : List Path) : Option Path :=
  candidates.find? fun path => !existsAt path tree && !taken (textOf path)

/-- `none` is the error that no name is free. -/
def conversationFolder {C : Type} (env : Env) (base conversationId : String)
    (tree : FileTree.Tree C) (taken : PathText → Bool) : Option Path :=
  firstFree tree taken ([6, 12, 24].map fun length =>
    env.root ++ [base ++ "-" ++ shortId env conversationId length])

def employeeFolder {C : Type} (env : Env) (conversationDir : Path)
    (displayName : Option String) (employeeId : String) (tree : FileTree.Tree C)
    (taken : PathText → Bool) : Option Path :=
  let name := folderSegment (displayName.getD "") employeeId
  firstFree tree taken
    ([name, name ++ "-" ++ shortId env employeeId 6,
      name ++ "-" ++ shortId env employeeId 24].map fun candidate =>
        conversationDir ++ [candidate])

/-- `LEGACY_WORKSPACE_NAME`. -/
def isLegacyName (name : String) : Bool :=
  let hex := name.toList.drop 13
  name.toList.take 13 = "conversation-".toList && hex.length = 24 &&
    hex.all fun c => c.isDigit || (0x61 ≤ c.toNat && c.toNat ≤ 0x66)

/-! ### The names are proper -/

/-- It starts with neither a dot nor a space. -/
def Started (text : List Char) : Prop :=
  ∀ c ∈ text.head?, isDotOrSpace c = false

theorem started_dropWhile (text : List Char) :
    Started (text.dropWhile isDotOrSpace) := by
  induction text with
  | nil => exact fun c hc => nomatch hc
  | cons c rest ih =>
      rw [List.dropWhile_cons]
      split
      · exact ih
      · next hc =>
          intro d hd
          rw [List.head?_cons, Option.mem_some_iff] at hd
          rw [← hd]
          exact Bool.eq_false_iff.mpr hc

theorem Started.prefix {front : List Char} (h : Started text)
    (hbegins : front <+: text) : Started front := by
  obtain ⟨rest, rfl⟩ := hbegins
  cases front with
  | nil => exact fun c hc => nomatch hc
  | cons c front => exact h

theorem Started.slice (h : Started text) (n : Nat) :
    Started (slice n text) := by
  cases text with
  | nil => exact h
  | cons c rest =>
      rw [AiTeam.Workspace.slice]
      split
      · exact h
      · split
        · exact fun c hc => nomatch hc
        · intro d hd
          rw [List.head?_cons, Option.mem_some_iff] at hd
          rw [← hd]
          decide

theorem Started.trim (h : Started text) : Started (trim text) := by
  have hkept : text.dropWhile isSpace = text := by
    cases text with
    | nil => rfl
    | cons c rest =>
        have hc := h c (by simp)
        rw [isDotOrSpace, Bool.or_eq_false_iff] at hc
        rw [List.dropWhile_cons, hc.2]
        rfl
  rw [AiTeam.Workspace.trim, hkept]
  exact h.prefix (List.rdropWhile_prefix isSpace text)

theorem replaceRunsFrom_all (bad : Char → Bool) (inRun : Bool)
    (text : List Char) :
    ∀ c ∈ replaceRunsFrom bad inRun text, c = '_' ∨ bad c = false := by
  induction text generalizing inRun with
  | nil => exact fun c hc => nomatch hc
  | cons d rest ih =>
      intro c hc
      rw [replaceRunsFrom] at hc
      split at hc
      · split at hc
        · exact ih true c hc
        · rcases List.mem_cons.mp hc with rfl | hrest
          · exact Or.inl rfl
          · exact ih true c hrest
      · next hd =>
          rcases List.mem_cons.mp hc with rfl | hrest
          · exact Or.inr (Bool.eq_false_iff.mpr hd)
          · exact ih false c hrest

theorem slice_all {p : Char → Prop} (hmark : p (Char.ofNat 0xFFFD))
    (h : ∀ c ∈ text, p c) (n : Nat) : ∀ c ∈ slice n text, p c := by
  induction text generalizing n with
  | nil => exact fun c hc => nomatch hc
  | cons d rest ih =>
      intro c hc
      rw [slice] at hc
      split at hc
      · rcases List.mem_cons.mp hc with rfl | hrest
        · exact h c List.mem_cons_self
        · exact ih (fun e he => h e (List.mem_cons_of_mem d he)) _ c hrest
      · split at hc
        · exact nomatch hc
        · rw [List.mem_singleton.mp hc]
          exact hmark

theorem safePathSegment_started (value fallback : List Char) :
    safePathSegment value fallback ≠ [] ∧
      ∀ c ∈ (safePathSegment value fallback).head?, isDot c = false := by
  rw [safePathSegment]
  split
  · next hcleaned =>
      refine ⟨hcleaned, fun c hc => ?_⟩
      have hstarted : Started (trim (slice 64
          (trim ((replaceRuns isUnsafe value).dropWhile isDotOrSpace)))) :=
        ((started_dropWhile _).trim.slice 64).trim
      have hc := hstarted c hc
      rw [isDotOrSpace, Bool.or_eq_false_iff] at hc
      exact hc.1
  · split
    · next hplain =>
        refine ⟨hplain, fun c hc => ?_⟩
        have hmem := List.mem_of_mem_head? hc
        have hword : ∀ c ∈ replaceRuns (fun c => !isWord c) fallback,
            isDot c = false := by
          intro c hc
          rcases replaceRunsFrom_all _ false _ c hc with rfl | hc
          · decide
          · cases hdot : isDot c with
            | false => rfl
            | true =>
                rw [isDot, decide_eq_true_eq] at hdot
                rw [hdot] at hc
                exact absurd hc (by decide)
        exact slice_all (by decide) hword 64 c hmem
    · refine ⟨List.cons_ne_nil _ _, fun c hc => ?_⟩
      rw [List.head?_cons, Option.mem_some_iff] at hc
      rw [← hc]
      decide

theorem proper_ofList (hempty : text ≠ []) (hdot : text ≠ ['.'])
    (hdots : text ≠ ['.', '.']) : Proper (String.ofList text) := by
  have htext : ∀ name : String, String.ofList text = name →
      text = name.toList := by
    rintro name rfl
    exact String.toList_ofList.symm
  refine ⟨fun h => hempty ?_, fun h => hdot ?_, fun h => hdots ?_⟩
  · simpa using htext _ h
  · simpa using htext _ h
  · simpa using htext _ h

theorem proper_of_head (hne : text ≠ [])
    (h : ∀ c ∈ text.head?, isDot c = false) : Proper (String.ofList text) := by
  apply proper_ofList hne
  · rintro rfl
    exact absurd (h '.' rfl) (by decide)
  · rintro rfl
    exact absurd (h '.' rfl) (by decide)

theorem proper_of_last (hne : text ≠ []) (h : isDot (text.getLast hne) = false)
    : Proper (String.ofList text) := by
  apply proper_ofList hne
  · rintro rfl
    exact Bool.noConfusion h
  · rintro rfl
    exact Bool.noConfusion h

/-- No folder is ever named after where it is. -/
theorem folderSegment_proper (value fallback : String) :
    Proper (folderSegment value fallback) := by
  rw [folderSegment]
  split
  · next hshort =>
      apply proper_of_last hshort
      have hlast := List.rdropWhile_last_not isDotOrSpace _ hshort
      rw [Bool.not_eq_true, isDotOrSpace, Bool.or_eq_false_iff] at hlast
      exact hlast.1
  · obtain ⟨hne, hhead⟩ :=
      safePathSegment_started fallback.toList fallback.toList
    exact proper_of_head hne hhead

theorem proper_dashed (left right : String) :
    Proper (left ++ "-" ++ right) := by
  have hdash : '-' ∈ (left ++ "-" ++ right).toList := by simp
  refine ⟨fun heq => ?_, fun heq => ?_, fun heq => ?_⟩
  · rw [heq] at hdash
    exact absurd hdash (by decide)
  · rw [heq] at hdash
    exact absurd hdash (by decide)
  · rw [heq] at hdash
    exact absurd hdash (by decide)

/-! ### The folders found are free -/

theorem firstFree_some {C : Type} {tree : FileTree.Tree C}
    {candidates : List Path} (h : firstFree tree taken candidates = some path) :
    path ∈ candidates ∧ existsAt path tree = false ∧
      taken (textOf path) = false := by
  have hfree := List.find?_some h
  rw [Bool.and_eq_true, Bool.not_eq_true', Bool.not_eq_true'] at hfree
  exact ⟨List.mem_of_find?_eq_some h, hfree⟩

theorem conversationFolder_some {C : Type} {env : Env} {base id : String}
    {tree : FileTree.Tree C}
    (h : conversationFolder env base id tree taken = some path) :
    ∃ name, Proper name ∧ path = env.root ++ [name] ∧
      existsAt path tree = false ∧ taken (textOf path) = false := by
  obtain ⟨hmem, hfree⟩ := firstFree_some h
  obtain ⟨length, _, rfl⟩ := List.mem_map.mp hmem
  exact ⟨_, proper_dashed _ _, rfl, hfree⟩

theorem employeeFolder_some {C : Type} {env : Env} {conversationDir : Path}
    {displayName : Option String} {employeeId : String}
    {tree : FileTree.Tree C}
    (h : employeeFolder env conversationDir displayName employeeId tree taken =
      some path) :
    ∃ name, Proper name ∧ path = conversationDir ++ [name] ∧
      existsAt path tree = false ∧ taken (textOf path) = false := by
  obtain ⟨hmem, hfree⟩ := firstFree_some h
  obtain ⟨name, hname, rfl⟩ := List.mem_map.mp hmem
  refine ⟨name, ?_, rfl, hfree⟩
  simp only [List.mem_cons, List.not_mem_nil, or_false] at hname
  rcases hname with rfl | rfl | rfl
  · exact folderSegment_proper _ _
  · exact proper_dashed _ _
  · exact proper_dashed _ _

end AiTeam.Workspace
