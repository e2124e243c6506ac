/-
The static server of a project folder: which file, redirect or status answers a
request, from the host and the method to the links and the names on the way.
-/
import Mathlib.Data.List.TakeWhile
import AiTeam.Percent

namespace AiTeam.ProjectRun.StaticServer

open Unicode (Bytes)
open Percent (slash names join encode encodePath unescape isUtf8)

/-! ### Files -/

/-- What `symlink_metadata` says is there. -/
inductive Kind where
  | file
  | dir
  | link
  | other
deriving DecidableEq

/-- An absolute path by its names. -/
abbrev Path := List Bytes

/-- A disk that stays as it is.  Below a link may be anything. -/
structure Disk where
  lstat : Path → Option Kind
  named : ∀ path name, lstat (path ++ [name]) ≠ none → Percent.IsName name

/-- The folder that is served. -/
structure Site extends Disk where
  root : Path
  folder : lstat root = some .dir

/-! ### Credential-like names -/

def ascii (s : String) : Bytes := s.toList.map fun c => c.toNat.toUInt8

def toAsciiLowercase (b : UInt8) : UInt8 :=
  if 0x41 ≤ b && b ≤ 0x5A then b + 0x20 else b

/-- `str::replace`, with bytes of the last match still to skip. -/
def replaceFrom (pattern replacement : Bytes) : Nat → Bytes → Bytes
  | _, [] => []
  | skip + 1, _ :: rest => replaceFrom pattern replacement skip rest
  | 0, b :: rest =>
      if pattern.isPrefixOf (b :: rest) then
        replacement ++
          replaceFrom pattern replacement (pattern.length - 1) rest
      else b :: replaceFrom pattern replacement 0 rest

def replace (pattern replacement text : Bytes) : Bytes :=
  replaceFrom pattern replacement 0 text

/-- `SENSITIVE_NAME_PARTS`. -/
def sensitiveNameParts : List Bytes :=
  ["env", "secret", "secrets", "credential", "credentials", "passwd", "token",
    "private", "apikey", "accesskey"].map ascii

/-- `SENSITIVE_EXTENSIONS`: key and certificate stores. -/
def sensitiveExtensions : List Bytes :=
  ["pem", "key", "p12", "pfx", "jks", "keystore", "ppk"].map ascii

def isSensitiveStem (stem : Bytes) : Bool :=
  let joined := ["api", "access"].foldl (fun text kind =>
    replace (ascii (kind ++ "-key")) (ascii (kind ++ "key"))
      (replace (ascii (kind ++ "_key")) (ascii (kind ++ "key")) text)) stem
  (joined.splitOnP fun b => (ascii "._- ").contains b).any
    sensitiveNameParts.contains

/-- `Path::file_stem` and `Path::extension` of a name. -/
def stemAndExtension (name : Bytes) : Bytes × Bytes :=
  if name = ascii "" ∨ name = ascii "." ∨ name = ascii ".." then ([], [])
  else
    let after := (name.reverse.takeWhile (· ≠ 0x2E)).reverse
    let before := name.take (name.length - after.length - 1)
    -- a name without a dot, or with its only dot in front, is all stem
    if after.length = name.length ∨ before = [] then (name, [])
    else (before, after)

def isSensitiveFile (name : Bytes) : Bool :=
  let parts := stemAndExtension name
  isSensitiveStem (parts.1.map toAsciiLowercase) ||
    sensitiveExtensions.contains (parts.2.map toAsciiLowercase)

/-! ### Requests -/

inductive Response where
  | file (path : Path)
  | redirect (location : Bytes)
  | status (code : Nat) (reason : String)
deriving DecidableEq

/-- `NOT_FOUND`. -/
def notFound : Response := .status 404 "Not Found"

/-- Strict percent decoding to UTF-8. -/
def percentDecode (text : Bytes) : Option Bytes :=
  (unescape text).filter isUtf8

/-- `.` and `..` start with a dot; `\` and `:` could name another folder on
Windows. -/
def isRefused (segment : Bytes) : Bool :=
  segment.head? == some 0x2E || [0x5C, 0x3A, 0].any segment.contains

/-- The way down from a folder, refusing links and hidden names. -/
def descend (disk : Disk) : Path → List Bytes → Option Path
  | current, [] => some current
  | current, segment :: rest =>
      if isRefused segment then none
      else if (disk.lstat (current ++ [segment])).any (· ≠ .link) then
        descend disk (current ++ [segment]) rest
      else none

def indexHtml : Bytes := ascii "index.html"

/-- The end of `resolve`: a regular file that is not credential-like. -/
def serve (site : Site) (current : Path) : Response :=
  let name := current.getLast?.getD []
  if site.lstat current ≠ some .file ∨ isSensitiveFile name ∨
      ¬ site.root <+: current then notFound
  else .file current

/-- The file for a decoded request path; folders serve their `index.html`. -/
def resolve (site : Site) (path : Bytes) : Response :=
  match descend site.toDisk site.root (names path) with
  | none => notFound
  | some current =>
      if site.lstat current = some .dir then
        if names path ≠ [] ∧ path.getLast? ≠ some slash then
          .redirect (slash :: encodePath path ++ [slash])
        else serve site (current ++ [indexHtml])
      else serve site current

def allowed (port : Nat) : List String :=
  [s!"127.0.0.1:{port}", s!"localhost:{port}"]

def route (method : String) (target : Bytes) (host : Option String)
    (site : Site) (port : Nat) : Response :=
  if !host.any (allowed port).contains then
    .status 421 "Misdirected Request"
  else if method ≠ "GET" ∧ method ≠ "HEAD" then
    .status 405 "Method Not Allowed"
  else
    -- up to the query or the fragment
    match target.takeWhile fun b => b ≠ 0x3F && b ≠ 0x23 with
    | [] => .status 400 "Bad Request"
    | first :: path =>
        if first = slash then
          match percentDecode path with
          | some path => resolve site path
          | none => .status 400 "Bad Request"
        else .status 400 "Bad Request"

/-! ### The way to a file -/

/-- A file below the root that the server shows: no name on the way is hidden or
could leave the folder, nothing on it is a link, and the file is regular and not
credential-like. -/
structure Shown (site : Site) (list : List Bytes) : Prop where
  names : ∀ name ∈ list, isRefused name = false
  steps : ∀ k, 0 < k → k ≤ list.length →
    ∃ kind, site.lstat (site.root ++ list.take k) = some kind ∧ kind ≠ .link
  file : site.lstat (site.root ++ list) = some .file
  plain : isSensitiveFile (list.getLast?.getD []) = false

theorem descend_iff {disk : Disk} (segments : List Bytes) :
    ∀ {current last : Path}, descend disk current segments = some last ↔
      last = current ++ segments ∧
      (∀ segment ∈ segments, isRefused segment = false) ∧
      ∀ k, 0 < k → k ≤ segments.length →
        ∃ kind, disk.lstat (current ++ segments.take k) = some kind ∧
          kind ≠ .link := by
  induction segments with
  | nil =>
      intro current last
      rw [descend, List.append_nil, Option.some_inj]
      constructor
      · rintro rfl
        refine ⟨rfl, fun _ h => (nomatch h), ?_⟩
        intro k hpos hle
        exact absurd hpos (Nat.not_lt.mpr hle)
      · exact fun h => h.1.symm
  | cons segment rest ih =>
      intro current last
      have hstep : (∀ k, 0 < k → k ≤ (segment :: rest).length →
          ∃ kind, disk.lstat (current ++ (segment :: rest).take k) = some kind ∧
            kind ≠ .link) ↔
          (∃ kind, disk.lstat (current ++ [segment]) = some kind ∧
            kind ≠ .link) ∧
          ∀ k, 0 < k → k ≤ rest.length → ∃ kind,
            disk.lstat ((current ++ [segment]) ++ rest.take k) = some kind ∧
              kind ≠ .link := by
        constructor
        · intro h
          refine ⟨h 1 Nat.one_pos (Nat.le_add_left _ _), ?_⟩
          intro k _ hle
          rw [List.append_assoc]
          exact h (k + 1) (Nat.succ_pos k) (Nat.succ_le_succ hle)
        · rintro ⟨hfirst, hrest⟩ k hpos hle
          obtain ⟨k, rfl⟩ := Nat.exists_eq_add_of_lt hpos
          rw [Nat.zero_add, List.take_succ_cons]
          rcases Nat.eq_zero_or_pos k with rfl | hk
          · exact hfirst
          · have hnext := hrest k hk (by simpa using hle)
            rwa [List.append_assoc] at hnext
      rw [descend, hstep, List.forall_mem_cons]
      by_cases hrefused : isRefused segment = true
      · rw [if_pos hrefused]
        simp [hrefused]
      by_cases hplain :
          (disk.lstat (current ++ [segment])).any (· ≠ .link) = true
      · rw [if_neg hrefused, if_pos hplain, ih, List.append_assoc]
        simp only [Option.any_eq_true, decide_eq_true_eq] at hplain
        simp only [Bool.not_eq_true] at hrefused
        simp only [hrefused, hplain, true_and]
        rfl
      · rw [if_neg hrefused, if_neg hplain]
        simp only [Option.any_eq_true, decide_eq_true_eq] at hplain
        simp [hplain]

variable {site : Site} {path : Path} {list : List Bytes} {port : Nat}
  {method : String}

theorem serve_file {current : Path} (h : serve site current = .file path) :
    path = current ∧ site.lstat current = some .file ∧
      isSensitiveFile (current.getLast?.getD []) = false := by
  rw [serve] at h
  split at h
  · exact nomatch h
  · rename_i hshown
    simp only [not_or, not_not, Bool.not_eq_true] at hshown
    exact ⟨(Response.file.inj h).symm, hshown.1, hshown.2.1⟩

theorem serve_ne_redirect (site : Site) (current : Path) (location : Bytes) :
    serve site current ≠ .redirect location := by
  rw [serve]
  split <;> exact Response.noConfusion

theorem resolve_cases (site : Site) (path : Bytes) :
    resolve site path = notFound ∨
    (descend site.toDisk site.root (names path) =
        some (site.root ++ names path) ∧
      (site.lstat (site.root ++ names path) = some .dir ∧ names path ≠ [] ∧
          path.getLast? ≠ some slash ∧
          resolve site path = .redirect (slash :: encodePath path ++ [slash]) ∨
        site.lstat (site.root ++ names path) = some .dir ∧
          (names path = [] ∨ path.getLast? = some slash) ∧
          resolve site path =
            serve site (site.root ++ names path ++ [indexHtml]) ∨
        site.lstat (site.root ++ names path) ≠ some .dir ∧
          resolve site path = serve site (site.root ++ names path))) := by
  rw [resolve]
  cases hdescend : descend site.toDisk site.root (names path) with
  | none => exact .inl rfl
  | some current =>
      obtain ⟨rfl, -, -⟩ := (descend_iff _).mp hdescend
      right
      refine ⟨rfl, ?_⟩
      dsimp only
      by_cases hdir : site.lstat (site.root ++ names path) = some .dir
      · rw [if_pos hdir]
        by_cases hmissing : names path ≠ [] ∧ path.getLast? ≠ some slash
        · rw [if_pos hmissing]
          exact .inl ⟨hdir, hmissing.1, hmissing.2, rfl⟩
        · rw [if_neg hmissing]
          refine .inr (.inl ⟨hdir, ?_, rfl⟩)
          rwa [not_and_or, not_not, not_not] at hmissing
      · rw [if_neg hdir]
        exact .inr (.inr ⟨hdir, rfl⟩)

/-- What `resolve` serves is shown. -/
theorem resolve_shown {text : Bytes} (h : resolve site text = .file path) :
    ∃ list, path = site.root ++ list ∧ Shown site list := by
  rcases resolve_cases site text with hnone | ⟨hdescend, hends⟩
  · rw [hnone] at h
    exact nomatch h
  obtain ⟨-, hnames, hsteps⟩ := (descend_iff _).mp hdescend
  rcases hends with ⟨-, -, -, hends⟩ | ⟨-, -, hends⟩ | ⟨-, hends⟩
  · rw [hends] at h
    exact nomatch h
  · obtain ⟨rfl, hfile, hplain⟩ := serve_file (hends.symm.trans h)
    refine ⟨names text ++ [indexHtml], List.append_assoc _ _ _, ?_⟩
    constructor
    case names =>
      intro name hname
      rcases List.mem_append.mp hname with hname | hname
      · exact hnames name hname
      · rw [List.mem_singleton.mp hname]
        decide
    case steps =>
      intro k hpos hle
      rcases Nat.lt_or_ge (names text).length k with hlast | hbefore
      · rw [List.take_of_length_le (by
          rwa [List.length_append, List.length_singleton]), ← List.append_assoc]
        exact ⟨.file, hfile, by decide⟩
      · rw [List.take_append_of_le_length hbefore]
        exact hsteps k hpos hbefore
    case file => rwa [← List.append_assoc]
    case plain =>
      rw [List.getLast?_concat]
      decide
  · obtain ⟨rfl, hfile, hplain⟩ := serve_file (hends.symm.trans h)
    refine ⟨names text, rfl, hnames, hsteps, hfile, ?_⟩
    by_cases hnil : names text = []
    · rw [hnil]
      decide
    · rwa [List.getLast?_append_of_ne_nil _ hnil] at hplain

/-! ### Every shown file has a target -/

theorem Shown.ne_nil (h : Shown site list) : list ≠ [] := by
  rintro rfl
  have hfile := h.file
  rw [List.append_nil, site.folder] at hfile
  exact nomatch hfile

theorem Shown.isName (h : Shown site list) :
    ∀ name ∈ list, Percent.IsName name := by
  intro name hname
  obtain ⟨k, hk, rfl⟩ := List.getElem_of_mem hname
  obtain ⟨kind, hkind, -⟩ := h.steps (k + 1) (Nat.succ_pos k) hk
  apply site.named (site.root ++ list.take k)
  rw [List.append_assoc, List.take_append_getElem hk, hkind]
  exact Option.some_ne_none kind

theorem resolve_shown_join (h : Shown site list) :
    resolve site (join list) = .file (site.root ++ list) := by
  have hnames : names (join list) = list :=
    Percent.names_join h.ne_nil h.isName
  have hdescend : descend site.toDisk site.root list = some (site.root ++ list) :=
    (descend_iff list).mpr ⟨rfl, h.names, h.steps⟩
  have hplain : isSensitiveFile ((site.root ++ list).getLast?.getD []) = false := by
    rw [List.getLast?_append_of_ne_nil _ h.ne_nil]
    exact h.plain
  rw [resolve, hnames, hdescend]
  dsimp only
  rw [h.file, if_neg (by decide), serve, if_neg]
  rintro (hfile | hsensitive | hroot)
  · exact hfile h.file
  · rw [hplain] at hsensitive
    exact nomatch hsensitive
  · exact hroot (List.prefix_append _ _)

/-- What an encoded path is written with. -/
def isPathByte (b : UInt8) : Bool :=
  Percent.isUnreserved b || b == Percent.percent || b == slash

theorem mem_join {b : UInt8} (h : b ∈ join list) :
    b = slash ∨ ∃ name ∈ list, b ∈ name := by
  induction list with
  | nil => exact nomatch h
  | cons name list ih =>
      cases list with
      | nil =>
          rw [join, List.intercalate_singleton] at h
          exact .inr ⟨name, List.mem_cons_self, h⟩
      | cons next list =>
          rw [Percent.join_cons_cons, List.mem_append, List.mem_cons] at h
          rcases h with h | h | h
          · exact .inr ⟨name, List.mem_cons_self, h⟩
          · exact .inl h
          · rcases ih h with h | ⟨other, hother, hb⟩
            · exact .inl h
            · exact .inr ⟨other, List.mem_cons_of_mem _ hother, hb⟩

theorem encodePath_bytes {path : Bytes} {b : UInt8} (h : b ∈ encodePath path) :
    isPathByte b = true := by
  rw [isPathByte, Bool.or_eq_true, Bool.or_eq_true, beq_iff_eq, beq_iff_eq]
  rcases mem_join h with h | ⟨name, hname, hb⟩
  · exact .inr h
  · obtain ⟨segment, -, rfl⟩ := List.mem_map.mp hname
    exact .inl (Percent.mem_encode hb)

theorem isPathByte_target (b : UInt8) (h : isPathByte b = true) :
    (b ≠ 0x3F && b ≠ 0x23) = true ∧ b ≠ 0x5C := by
  have hquery : b ≠ 0x3F := by
    rintro rfl
    exact absurd h (by decide)
  have hfragment : b ≠ 0x23 := by
    rintro rfl
    exact absurd h (by decide)
  refine ⟨by simp [hquery, hfragment], ?_⟩
  rintro rfl
  exact absurd h (by decide)

/-- The request for an absolute path in path bytes, from an allowed host. -/
theorem route_path (site : Site) {host : String}
    (hmethod : method = "GET" ∨ method = "HEAD") (hhost : host ∈ allowed port)
    {path : Bytes} (hpath : ∀ b ∈ path, isPathByte b = true) :
    route method (slash :: path) (some host) site port =
      match percentDecode path with
      | some path => resolve site path
      | none => .status 400 "Bad Request" := by
  have htarget : (slash :: path).takeWhile (fun b => b ≠ 0x3F && b ≠ 0x23) =
      slash :: path := by
    rw [List.takeWhile_eq_self_iff]
    intro b hb
    rcases List.mem_cons.mp hb with rfl | hb
    · decide
    · exact (isPathByte_target b (hpath b hb)).1
  have hallowed : (some host).any (allowed port).contains = true :=
    List.contains_iff_mem.mpr hhost
  rw [route, hallowed, htarget, if_neg (by decide), if_neg]
  · rfl
  · rintro ⟨hget, hhead⟩
    exact hmethod.elim hget hhead

theorem route_shown (h : Shown site list) (htext : isUtf8 (join list) = true)
    {host : String} (hmethod : method = "GET" ∨ method = "HEAD")
    (hhost : host ∈ allowed port) :
    route method (slash :: encodePath (join list)) (some host) site port =
      .file (site.root ++ list) := by
  have hnames : names (join list) = list :=
    Percent.names_join h.ne_nil h.isName
  have hdecode : percentDecode (encodePath (join list)) = some (join list) := by
    have hunescape := Percent.unescape_join list []
    rw [List.append_nil, unescape, Option.map_some, List.append_nil]
      at hunescape
    rw [percentDecode, encodePath, hnames, hunescape, Option.filter_some,
      if_pos htext]
  rw [route_path site hmethod hhost fun b hb => encodePath_bytes hb, hdecode]
  exact resolve_shown_join h

/-! ### Redirects -/

/-- An absolute path of the same host, ending in a slash: no second slash or
backslash makes it the name of another host. -/
def IsFolderPath (location : Bytes) : Prop :=
  (∃ first rest, location = slash :: first :: rest ∧ first ≠ slash) ∧
    (∀ b ∈ location, isPathByte b = true) ∧ location.getLast? = some slash

/-- A path that ends in a slash is not redirected. -/
theorem resolve_folder (site : Site) {path : Bytes}
    (h : path.getLast? = some slash) (location : Bytes) :
    resolve site path ≠ .redirect location := by
  rcases resolve_cases site path with hnone | ⟨-, hends⟩
  · rw [hnone]
    exact Response.noConfusion
  rcases hends with ⟨-, -, hmissing, -⟩ | ⟨-, -, hends⟩ | ⟨-, hends⟩
  · exact absurd h hmissing
  · rw [hends]
    exact serve_ne_redirect site _ location
  · rw [hends]
    exact serve_ne_redirect site _ location

theorem join_first (hne : list ≠ []) (h : ∀ name ∈ list, Percent.IsName name) :
    ∃ first rest, join list = first :: rest ∧ first ≠ slash := by
  obtain ⟨name, rest, rfl⟩ := List.exists_cons_of_ne_nil hne
  obtain ⟨hname, hslash⟩ := h name List.mem_cons_self
  obtain ⟨first, after, rfl⟩ := List.exists_cons_of_ne_nil hname
  have hfirst : first ≠ slash := by
    rintro rfl
    exact hslash List.mem_cons_self
  cases rest with
  | nil => exact ⟨first, after, List.intercalate_singleton, hfirst⟩
  | cons next rest =>
      refine ⟨first, after ++ slash :: join (next :: rest), ?_, hfirst⟩
      rw [Percent.join_cons_cons]
      rfl

theorem isName_encode {name : Bytes} (h : name ≠ []) :
    Percent.IsName (encode name) := by
  refine ⟨Percent.encode_ne_nil h, ?_⟩
  intro hslash
  rcases Percent.mem_encode hslash with h | h
  · exact absurd h (by decide)
  · exact absurd h (by decide)

/-- The answer to the location of a redirect is no redirect. -/
theorem route_location (site : Site) (path : Bytes) (method : String)
    (host : Option String) (port : Nat) (location : Bytes) :
    route method (slash :: encodePath path ++ [slash]) host site port ≠
      .redirect location := by
  have htarget : (slash :: encodePath path ++ [slash]).takeWhile
      (fun b => b ≠ 0x3F && b ≠ 0x23) = slash :: encodePath path ++ [slash] := by
    rw [List.takeWhile_eq_self_iff]
    intro b hb
    rw [List.cons_append, List.mem_cons, List.mem_append,
      List.mem_singleton] at hb
    rcases hb with rfl | hb | rfl
    · decide
    · exact (isPathByte_target b (encodePath_bytes hb)).1
    · decide
  rw [route, htarget]
  split
  · exact Response.noConfusion
  split
  · exact Response.noConfusion
  dsimp only [List.cons_append]
  rw [if_pos rfl]
  cases hdecode : percentDecode (encodePath path ++ [slash]) with
  | none => exact Response.noConfusion
  | some decoded =>
      obtain ⟨hunescape, -⟩ := Option.filter_eq_some_iff.mp hdecode
      rw [encodePath, Percent.unescape_join] at hunescape
      have hlast : decoded = join (names path) ++ [slash] :=
        (Option.some.inj hunescape).symm
      apply resolve_folder
      rw [hlast, List.getLast?_concat]

theorem route_redirect {target : Bytes} {host : Option String}
    {location : Bytes}
    (h : route method target host site port = .redirect location) :
    ∃ path, names path ≠ [] ∧
      location = slash :: encodePath path ++ [slash] := by
  rw [route] at h
  split at h
  · exact nomatch h
  split at h
  · exact nomatch h
  split at h
  · exact nomatch h
  split at h
  · split at h
    · rename_i text _
      rcases resolve_cases site text with hnone | ⟨-, hends⟩
      · rw [hnone] at h
        exact nomatch h
      rcases hends with ⟨-, hne, -, hends⟩ | ⟨-, -, hends⟩ | ⟨-, hends⟩
      · exact ⟨text, hne, (Response.redirect.inj (hends.symm.trans h)).symm⟩
      · exact absurd (hends.symm.trans h) (serve_ne_redirect site _ location)
      · exact absurd (hends.symm.trans h) (serve_ne_redirect site _ location)
    · exact nomatch h
  · exact nomatch h

theorem route_file {target : Bytes} {host : Option String}
    (h : route method target host site port = .file path) :
    (method = "GET" ∨ method = "HEAD") ∧
      (∃ name ∈ allowed port, host = some name) ∧
      ∃ list, path = site.root ++ list ∧ Shown site list := by
  rw [route] at h
  split at h
  · exact nomatch h
  rename_i hhost
  split at h
  · exact nomatch h
  rename_i hmethod
  have hallowed : ∃ name ∈ allowed port, host = some name := by
    cases host with
    | none => exact absurd rfl hhost
    | some name =>
        refine ⟨name, ?_, rfl⟩
        simpa using hhost
  refine ⟨by tauto, hallowed, ?_⟩
  split at h
  · exact nomatch h
  split at h
  · split at h
    · exact resolve_shown h
    · exact nomatch h
  · exact nomatch h

/-- Only files that are shown are served, only to reads from the loopback host
and port, and each of them has a target; a redirect leads to a folder of the
same host and no further. -/
theorem route_confined (site : Site) (port : Nat) :
    (∀ method target host path,
      route method target host site port = .file path →
        (method = "GET" ∨ method = "HEAD") ∧
          (∃ name ∈ allowed port, host = some name) ∧
          ∃ list, path = site.root ++ list ∧ Shown site list) ∧
    (∀ list, Shown site list → isUtf8 (join list) = true →
      ∀ method host, method = "GET" ∨ method = "HEAD" → host ∈ allowed port →
        route method (slash :: encodePath (join list)) (some host) site port =
          .file (site.root ++ list)) ∧
    (∀ method target host location,
      route method target host site port = .redirect location →
        IsFolderPath location ∧ ∀ method host port location',
          route method location host site port ≠ .redirect location') := by
  refine ⟨fun _ _ _ _ => route_file, ?_, ?_⟩
  · intro list hshown htext method host hmethod hhost
    exact route_shown hshown htext hmethod hhost
  · intro method target host location h
    obtain ⟨path, hne, rfl⟩ := route_redirect h
    refine ⟨⟨?_, ?_, List.getLast?_concat⟩, route_location site path⟩
    · have hencoded : ∀ name ∈ (names path).map encode, Percent.IsName name := by
        intro name hname
        obtain ⟨segment, hsegment, rfl⟩ := List.mem_map.mp hname
        have hnonempty := (List.mem_filter.mp hsegment).2
        exact isName_encode (of_decide_eq_true hnonempty)
      obtain ⟨first, rest, hjoin, hfirst⟩ := join_first
        (by rwa [ne_eq, List.map_eq_nil_iff]) hencoded
      refine ⟨first, rest ++ [slash], ?_, hfirst⟩
      rw [encodePath, hjoin]
      rfl
    · intro b hb
      rw [List.cons_append, List.mem_cons, List.mem_append,
        List.mem_singleton] at hb
      rcases hb with rfl | hb | rfl
      · decide
      · exact encodePath_bytes hb
      · decide

namespace ShopWitness

def entries : List (Path × Kind) :=
  [([ascii "shop"], .dir), ([ascii "shop", ascii "a b.txt"], .file),
    ([ascii "shop", ascii "out"], .link)]

def shop : Site where
  lstat path := (entries.find? fun entry => entry.1 = path).map Prod.snd
  named path name h := by
    obtain ⟨kind, hkind⟩ := Option.ne_none_iff_exists'.mp h
    obtain ⟨entry, hentry, -⟩ := Option.map_eq_some_iff.mp hkind
    have hpath : decide (entry.1 = path ++ [name]) = true :=
      @List.find?_some _ (fun entry : Path × Kind => entry.1 = path ++ [name])
        _ _ hentry
    have hlast : ∀ entry ∈ entries, Percent.IsName (entry.1.getLast?.getD []) := by
      simp only [Percent.IsName]
      decide +kernel
    have hname := hlast entry (List.mem_of_find?_eq_some hentry)
    rwa [of_decide_eq_true hpath, List.getLast?_concat] at hname
  root := [ascii "shop"]
  folder := by decide +kernel

def note : Bytes := ascii "a b.txt"

theorem note_shown : Shown shop [note] where
  names := by decide +kernel
  steps := by
    intro k hpos hle
    obtain rfl : k = 1 := Nat.le_antisymm hle hpos
    exact ⟨.file, by decide +kernel, by decide⟩
  file := by decide +kernel
  plain := by decide +kernel

end ShopWitness

open ShopWitness in
/-- The note is served, and nothing below the link is. -/
theorem route_confined_shop :
    route "GET" (slash :: encodePath (join [note])) (some "localhost:80") shop
        80 = .file (shop.root ++ [note]) ∧
      slash :: encodePath (join [note]) = ascii "/a%20b.txt" ∧
      route "GET" (ascii "/out/a%20b.txt") (some "localhost:80") shop 80 =
        notFound :=
  ⟨(route_confined shop 80).2.1 [note] note_shown (by decide +kernel) "GET"
    "localhost:80" (.inl rfl) (by decide +kernel), by decide +kernel,
    by decide +kernel⟩

end AiTeam.ProjectRun.StaticServer
