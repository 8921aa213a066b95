import Muster.Segments

/-!
# Host and project of a checkout (`gitmeta.py`, `naming.py`, `muster-chat.js`)

The Claude shim asks git for the common directory and the directory of the worktree, the
OpenCode plugin for the top of the checkout.  In the main checkout both get the name of its
directory.  In a linked worktree the shim has `repo~worktree`, and the plugin the name of the
worktree's own directory, wherever that is (`linked_apart`).

They also trim differently: `strip()` takes off U+001C to U+001F and U+0085, `trim()` takes off
U+FEFF.  The exact condition is `same_identity_iff`.
-/

namespace Muster

/-! ## Paths -/

/-- What can stand between two slashes of a path that is resolved. -/
structure IsName (s : PyStr) : Prop where
  ne_nil : s ≠ []
  noSlash : PyStr.slash ∉ s
  ne_dot : s ≠ lit "."
  ne_dots : s ≠ lit ".."

/-- An absolute path, without links. -/
structure Path where
  names : List PyStr
  isName : ∀ n ∈ names, IsName n

/-- Each name behind a slash. -/
def slashed (names : List PyStr) : PyStr := names.flatMap fun n => PyStr.slash :: n

def pathText (names : List PyStr) : PyStr := if names = [] then [PyStr.slash] else slashed names

def Path.text (p : Path) : PyStr := pathText p.names

/-- The last name; the root has none. -/
def Path.last (p : Path) : PyStr := p.names.getLast?.getD []

/-- `os.path.join(a, b)`. -/
def pathJoin (a b : PyStr) : PyStr :=
  if b.head? = some PyStr.slash then b
  else if a = [] ∨ a.getLast? = some PyStr.slash then a ++ b
  else a ++ PyStr.slash :: b

def enter (names : List PyStr) (n : PyStr) : List PyStr :=
  if n = [] ∨ n = lit "." then names
  else if n = lit ".." then names.dropLast
  else names ++ [n]

/-- The names of an absolute path. -/
def resolvePath (s : PyStr) : List PyStr := (PyStr.split s).foldl enter []

/-- `os.path.realpath(s)` of an absolute path, where there are no links. -/
def realpath (s : PyStr) : PyStr := pathText (resolvePath s)

/-- `os.path.basename(s)`. -/
def basename (s : PyStr) : PyStr := (s.reverse.takeWhile (· ≠ PyStr.slash)).reverse

/-- `os.path.dirname(s)`. -/
def dirname (s : PyStr) : PyStr :=
  let head := (s.reverse.dropWhile (· ≠ PyStr.slash)).reverse
  if head.all (· = PyStr.slash) then head else (head.reverse.dropWhile (· = PyStr.slash)).reverse

/-! ## The two shims -/

/-- `git_identity`, given what git prints for `--git-common-dir` and `--git-dir`; `none` where a
call fails. -/
def gitIdentity (cwd : PyStr) : Option (PyStr × PyStr) → Option PyStr × Option PyStr
  | none => (none, none)
  | some (common, gitdir) =>
    let commonAbs := realpath (pathJoin cwd (PyStr.strip common))
    let gitdirAbs := realpath (pathJoin cwd (PyStr.strip gitdir))
    let repo := basename (dirname commonAbs)
    (if repo = [] then none else some repo,
      if gitdirAbs ≠ commonAbs then some (basename gitdirAbs) else none)

/-- `seg`, of a string. -/
def jsSeg (v : PyStr) : PyStr := sanitize isJsSpace v

/-- `project`, given what git prints for `--show-toplevel`. -/
def jsProject (directory : PyStr) (toplevel : Option PyStr) : PyStr :=
  let repo := ((PyStr.split (trimBy isJsSpace (toplevel.getD []))).getLast?).getD []
  let base := lastName directory
  if repo ≠ [] then repo else if base ≠ [] then base else lit "-"

/-- `agent`. -/
def jsAgent (env : List (PyStr × PyStr)) (hostname directory : PyStr) (toplevel : Option PyStr)
    (pid : Nat) : PyStr :=
  let host := (env.lookup (lit "MUSTER_HOST")).getD []
  PyStr.join [jsSeg (if host ≠ [] then host else hostname), lit "opencode",
    jsSeg (jsProject directory toplevel), jsSeg (if pid = 0 then [] else PyStr.strNat pid)]

/-! ## What git reports -/

inductive Layout where
  | none
  | main (root : Path)
  /-- the worktree of this name of the repository in `main`, checked out in `root` -/
  | linked (main : Path) (w : PyStr) (isName : IsName w) (root : Path)

/-- A line that names a path; relative to the current directory only for the `.git` of a
directory above it. -/
inductive Line (cwd : Path) (names : List PyStr) : PyStr → Prop
  | absolute : Line cwd names (pathText names ++ lit "\n")
  | relative {above below : List PyStr} (hcwd : cwd.names = above ++ below)
      (hnames : names = above ++ [lit ".git"]) :
      Line cwd names ((List.replicate below.length (lit "../")).flatten ++ lit ".git" ++ lit "\n")

/-- What git prints for `--git-common-dir`, `--git-dir` and `--show-toplevel`. -/
structure GitOutput where
  commonDir : PyStr
  gitDir : PyStr
  toplevel : PyStr

inductive Reports (cwd : Path) : Layout → Option GitOutput → Prop
  | none : Reports cwd .none none
  | main {root : Path} {common gitdir : PyStr} (hcommon : Line cwd (root.names ++ [lit ".git"]) common)
      (hgitdir : Line cwd (root.names ++ [lit ".git"]) gitdir) :
      Reports cwd (.main root) (some ⟨common, gitdir, root.text ++ lit "\n"⟩)
  | linked {main root : Path} {w common gitdir : PyStr} {isName : IsName w}
      (hcommon : Line cwd (main.names ++ [lit ".git"]) common)
      (hgitdir : Line cwd (main.names ++ [lit ".git", lit "worktrees", w]) gitdir) :
      Reports cwd (.linked main w isName root) (some ⟨common, gitdir, root.text ++ lit "\n"⟩)

/-! ## When they agree -/

/-- The shim makes of `s` what the plugin makes of `t`. -/
def SameSegment (s t : PyStr) : Prop :=
  Alike (orDash (PyStr.strip s)) (orDash (trimBy isJsSpace t))

/-- A name that either makes the same of. -/
def Plain (s : PyStr) : Prop := EndsAlike PyStr.isSpace isJsSpace s

/-- What the end of a line is stripped to. -/
def rtrim (p : CodePoint → Bool) (s : PyStr) : PyStr := (s.reverse.dropWhile p).reverse

/-- What the shim reads as the worktree's name: the end of the line is stripped, and nothing or a
dot is the directory above, two dots the repository's own. -/
def worktreeName (w : PyStr) : Option PyStr :=
  let v := rtrim PyStr.isSpace w
  if v = [] ∨ v = lit "." then some (lit "worktrees") else if v = lit ".." then none else some v

/-- `f"{repo}~{worktree}" if worktree else repo`. -/
def tagged (repo : PyStr) : Option PyStr → PyStr
  | none => repo
  | some w => repo ++ lit "~" ++ w

/-- Of a repository in the root directory, and of a directory that has only blanks for a name, the
name is that of the current directory. -/
def SameProject (cwd : Path) : Layout → Prop
  | .none => Plain cwd.last
  | .main root =>
    if root.last = [] then Plain cwd.last
    else if trimBy isJsSpace root.last = [] then SameSegment root.last cwd.last
    else Plain root.last
  | .linked main w _ root =>
    SameSegment (if main.last = [] then cwd.last else tagged main.last (worktreeName w))
      (if trimBy isJsSpace root.last = [] then cwd.last else root.last)

/-- The host name both are given. -/
def hostOf (env : List (PyStr × PyStr)) (hostname : PyStr) : PyStr :=
  let host := (env.lookup (lit "MUSTER_HOST")).getD []
  if host ≠ [] then host else hostname

/-! ## Paths resolved -/

theorem resolvePath_slash (u v : PyStr) :
    resolvePath (u ++ PyStr.slash :: v) = (PyStr.split v).foldl enter (resolvePath u) := by
  unfold resolvePath
  rw [PyStr.split_slash, List.foldl_append]

theorem slashed_concat (names : List PyStr) (n : PyStr) :
    slashed (names ++ [n]) = slashed names ++ PyStr.slash :: n := by
  unfold slashed
  rw [List.flatMap_append, List.flatMap_singleton]

theorem enter_of_isName {n : PyStr} (h : IsName n) (names : List PyStr) : enter names n = names ++ [n] := by
  unfold enter
  rw [if_neg (not_or.2 ⟨h.ne_nil, h.ne_dot⟩), if_neg h.ne_dots]

theorem resolvePath_slashed {names : List PyStr} (h : ∀ n ∈ names, IsName n) :
    resolvePath (slashed names) = names := by
  induction names using List.reverseRecOn with
  | nil => rfl
  | append_singleton names n ih =>
    obtain ⟨hnames, hn⟩ := List.forall_mem_append.1 h
    have hn := hn n (List.mem_singleton_self n)
    rw [slashed_concat, resolvePath_slash, ih hnames, PyStr.split_of_noSlash hn.noSlash]
    exact enter_of_isName hn names

theorem resolvePath_pathText {names : List PyStr} (h : ∀ n ∈ names, IsName n) :
    resolvePath (pathText names) = names := by
  unfold pathText
  split
  · next hnil => rw [hnil]; rfl
  · exact resolvePath_slashed h

theorem isName_git : IsName (lit ".git") := ⟨by decide, by decide, by decide, by decide⟩

theorem isName_worktrees : IsName (lit "worktrees") := ⟨by decide, by decide, by decide, by decide⟩

/-! ## Lines stripped -/

theorem slashed_head? (names : List PyStr) (v : PyStr) :
    (slashed names ++ PyStr.slash :: v).head? = some PyStr.slash := by
  cases names with
  | nil => rfl
  | cons n names => rfl

theorem trimBy_slashed {p : CodePoint → Bool} (hp : p PyStr.slash = false) (names : List PyStr) (v : PyStr) :
    trimBy p (slashed names ++ PyStr.slash :: v) = slashed names ++ PyStr.slash :: rtrim p v := by
  have hfront : (slashed names ++ PyStr.slash :: v).dropWhile p = slashed names ++ PyStr.slash :: v := by
    cases names with
    | nil => exact List.dropWhile_cons_of_neg (by simp [hp])
    | cons n names => exact List.dropWhile_cons_of_neg (by simp [hp])
  unfold trimBy rtrim
  rw [hfront, List.reverse_append, List.reverse_cons, List.append_assoc, List.singleton_append,
    dropWhile_append_cons hp]
  simp

theorem rtrim_newline {p : CodePoint → Bool} (hp : p 10 = true) (v : PyStr) :
    rtrim p (v ++ lit "\n") = rtrim p v := by
  unfold rtrim
  rw [List.reverse_append]
  show ((10 :: v.reverse).dropWhile p).reverse = _
  rw [List.dropWhile_cons_of_pos hp]

theorem rtrim_sub {p : CodePoint → Bool} {s : PyStr} : ∀ c ∈ rtrim p s, c ∈ s := by
  intro c hc
  exact List.mem_reverse.1 ((List.dropWhile_sublist p).subset (List.mem_reverse.1 hc))

theorem pathText_concat (names : List PyStr) (n : PyStr) :
    pathText (names ++ [n]) = slashed names ++ PyStr.slash :: n := by
  unfold pathText
  rw [if_neg (by simp), slashed_concat]

theorem pathJoin_relative (p : Path) {r : PyStr} (hr : r.head? ≠ some PyStr.slash) :
    pathJoin p.text r = slashed p.names ++ PyStr.slash :: r := by
  unfold pathJoin Path.text
  rw [if_neg hr]
  rcases List.eq_nil_or_concat p.names with hnil | ⟨names, n, hnames⟩
  · rw [hnil]
    rfl
  · have hn : IsName n := p.isName n (by rw [hnames]; simp)
    have hend : ¬ (slashed names ++ PyStr.slash :: n = [] ∨
        (slashed names ++ PyStr.slash :: n).getLast? = some PyStr.slash) := by
      rintro (hnil | hlast)
      · simp at hnil
      · obtain ⟨m, c, rfl⟩ := (List.eq_nil_or_concat' n).resolve_left hn.ne_nil
        rw [← List.cons_append, ← List.append_assoc, List.getLast?_concat] at hlast
        exact hn.noSlash (by rw [Option.some.inj hlast]; simp)
    rw [hnames, List.concat_eq_append, pathText_concat, slashed_concat, if_neg hend]

/-- Up again from below. -/
theorem enter_ups (above below : List PyStr) :
    (PyStr.split ((List.replicate below.length (lit "../")).flatten ++ lit ".git")).foldl enter
      (above ++ below) = above ++ [lit ".git"] := by
  induction below using List.reverseRecOn with
  | nil => rw [List.append_nil]; exact enter_of_isName isName_git above
  | append_singleton below n ih =>
    have hup : (List.replicate (below ++ [n]).length (lit "../")).flatten ++ lit ".git" =
        lit ".." ++ PyStr.slash :: ((List.replicate below.length (lit "../")).flatten ++ lit ".git") := by
      rw [List.length_append, List.length_singleton, List.replicate_succ, List.flatten_cons]
      rfl
    have henter : enter (above ++ (below ++ [n])) (lit "..") = above ++ below := by
      rw [← List.append_assoc]
      exact List.dropLast_concat
    rw [hup, PyStr.split_slash, PyStr.split_of_noSlash (by decide), List.singleton_append, List.foldl_cons, henter, ih]

theorem strip_relative (k : Nat) :
    PyStr.strip ((List.replicate k (lit "../")).flatten ++ lit ".git" ++ lit "\n") =
      (List.replicate k (lit "../")).flatten ++ lit ".git" := by
  have hhead : ((List.replicate k (lit "../")).flatten ++ lit ".git" ++ lit "\n").dropWhile PyStr.isSpace =
      (List.replicate k (lit "../")).flatten ++ lit ".git" ++ lit "\n" := by
    cases k with
    | zero => rfl
    | succ k => rfl
  unfold PyStr.strip
  rw [hhead, List.reverse_append, List.reverse_append]
  generalize (List.replicate k (lit "../")).flatten = ups
  have hback : ((lit "\n").reverse ++ ((lit ".git").reverse ++ ups.reverse)).dropWhile PyStr.isSpace =
      (lit ".git").reverse ++ ups.reverse := rfl
  rw [hback, List.reverse_append, List.reverse_reverse, List.reverse_reverse]

/-- What the shim makes of a line that names a path. -/
theorem resolvePath_line {cwd : Path} {names : List PyStr} {n out : PyStr}
    (h : Line cwd (names ++ [n]) out) (hnames : ∀ m ∈ names, IsName m) (hn : PyStr.slash ∉ n) :
    resolvePath (pathJoin cwd.text (PyStr.strip out)) = enter names (rtrim PyStr.isSpace n) := by
  generalize hall : names ++ [n] = all at h
  cases h with
  | absolute =>
    have hstrip : PyStr.strip (pathText all ++ lit "\n") =
        slashed names ++ PyStr.slash :: rtrim PyStr.isSpace n := by
      rw [← hall, pathText_concat, List.append_assoc, List.cons_append, ← rtrim_newline (p := PyStr.isSpace) (by decide) n]
      exact trimBy_slashed (by decide) names _
    have hsplit : PyStr.slash ∉ rtrim PyStr.isSpace n := fun hc => hn (rtrim_sub _ hc)
    rw [hstrip, pathJoin, if_pos (slashed_head? _ _), resolvePath_slash, resolvePath_slashed hnames,
      PyStr.split_of_noSlash hsplit]
    rfl
  | @relative above below hcwd hgit =>
    obtain ⟨rfl, hgit'⟩ := List.append_inj' (hall.trans hgit) rfl
    obtain rfl := List.singleton_inj.1 hgit'
    have hrelative : ((List.replicate below.length (lit "../")).flatten ++ lit ".git").head? ≠ some PyStr.slash := by
      cases below.length with
      | zero => decide
      | succ k =>
        show some (46 : CodePoint) ≠ some PyStr.slash
        decide
    rw [strip_relative, pathJoin_relative cwd hrelative, resolvePath_slash, resolvePath_slashed cwd.isName,
      hcwd, enter_ups]
    exact (enter_of_isName isName_git names).symm

/-! ## What the shim makes of a layout -/

theorem takeWhile_reverse_slash {n : PyStr} (h : PyStr.slash ∉ n) (u : PyStr) :
    (u ++ PyStr.slash :: n).reverse.takeWhile (· ≠ PyStr.slash) = n.reverse ∧
      (u ++ PyStr.slash :: n).reverse.dropWhile (· ≠ PyStr.slash) = PyStr.slash :: u.reverse := by
  have hrev : (u ++ PyStr.slash :: n).reverse = n.reverse ++ PyStr.slash :: u.reverse := by simp
  have hn : ∀ c ∈ n.reverse, decide (c ≠ PyStr.slash) = true := by
    intro c hc
    rw [decide_eq_true_iff]
    rintro rfl
    exact h (List.mem_reverse.1 hc)
  rw [hrev, List.takeWhile_append_of_pos hn, List.dropWhile_append_of_pos hn]
  simp

theorem basename_slashed {n : PyStr} (h : PyStr.slash ∉ n) (names : List PyStr) :
    basename (pathText (names ++ [n])) = n := by
  unfold basename
  rw [pathText_concat, (takeWhile_reverse_slash h _).1, List.reverse_reverse]

/-- A name does not end in a slash. -/
theorem rstrip_name {n : PyStr} (h : IsName n) (u : PyStr) :
    ((u ++ PyStr.slash :: n).reverse.dropWhile (· = PyStr.slash)).reverse = u ++ PyStr.slash :: n := by
  obtain ⟨m, c, rfl⟩ := (List.eq_nil_or_concat' n).resolve_left h.ne_nil
  have hc : c ≠ PyStr.slash := by
    rintro rfl
    exact h.noSlash (by simp)
  rw [← List.cons_append, ← List.append_assoc, List.reverse_concat, List.dropWhile_cons_of_neg (by simpa using hc),
    ← List.reverse_concat, List.reverse_reverse]

theorem dirname_slashed {names : List PyStr} {n : PyStr} (hnames : ∀ m ∈ names, IsName m)
    (h : PyStr.slash ∉ n) : dirname (pathText (names ++ [n])) = pathText names := by
  unfold dirname
  rw [pathText_concat, (takeWhile_reverse_slash h _).2, List.reverse_cons, List.reverse_reverse]
  dsimp only
  rcases List.eq_nil_or_concat' names with rfl | ⟨names, m, rfl⟩
  · rfl
  · have hm : IsName m := hnames m (by simp)
    have hslashes : ¬ ((slashed names ++ PyStr.slash :: m ++ [PyStr.slash]).all (· = PyStr.slash)) = true := by
      intro hall
      obtain ⟨c, m, rfl⟩ := List.exists_cons_of_ne_nil hm.ne_nil
      have hc := List.all_eq_true.1 hall c (by simp)
      exact hm.noSlash (by rw [← of_decide_eq_true hc]; exact List.mem_cons_self)
    rw [slashed_concat, pathText_concat, if_neg hslashes, List.reverse_concat,
      List.dropWhile_cons_of_pos (by simp), rstrip_name hm]

/-- The repository's name. -/
theorem basename_main (p : Path) : basename (dirname (pathText (p.names ++ [lit ".git"]))) = p.last := by
  rw [dirname_slashed p.isName isName_git.noSlash]
  unfold Path.last
  rcases List.eq_nil_or_concat' p.names with hnil | ⟨names, m, hnames⟩
  · rw [hnil]
    rfl
  · have hm : IsName m := p.isName m (by simp [hnames])
    rw [hnames, basename_slashed hm.noSlash, List.getLast?_concat]
    rfl

theorem pathText_inj {ns ms : List PyStr} (hns : ∀ n ∈ ns, IsName n) (hms : ∀ m ∈ ms, IsName m) :
    pathText ns = pathText ms ↔ ns = ms := by
  refine ⟨fun h => ?_, congrArg pathText⟩
  rw [← resolvePath_pathText hns, h, resolvePath_pathText hms]

/-- Where the main checkout and its worktrees have their directories. -/
theorem gitIdentity_main {cwd root : Path} {common gitdir : PyStr}
    (hcommon : Line cwd (root.names ++ [lit ".git"]) common)
    (hgitdir : Line cwd (root.names ++ [lit ".git"]) gitdir) :
    gitIdentity cwd.text (some (common, gitdir)) = (if root.last = [] then none else some root.last, none) := by
  have hgit : ∀ {out}, Line cwd (root.names ++ [lit ".git"]) out →
      realpath (pathJoin cwd.text (PyStr.strip out)) = pathText (root.names ++ [lit ".git"]) := by
    intro out hout
    rw [realpath, resolvePath_line hout root.isName isName_git.noSlash]
    exact congrArg pathText (enter_of_isName isName_git root.names)
  unfold gitIdentity
  dsimp only
  rw [hgit hcommon, hgit hgitdir, basename_main, if_neg (not_not_intro rfl)]

theorem gitIdentity_linked {cwd main : Path} {w common gitdir : PyStr} (hw : IsName w)
    (hcommon : Line cwd (main.names ++ [lit ".git"]) common)
    (hgitdir : Line cwd (main.names ++ [lit ".git", lit "worktrees", w]) gitdir) :
    gitIdentity cwd.text (some (common, gitdir)) =
      (if main.last = [] then none else some main.last, worktreeName w) := by
  have hcommonAbs : realpath (pathJoin cwd.text (PyStr.strip common)) = pathText (main.names ++ [lit ".git"]) := by
    rw [realpath, resolvePath_line hcommon main.isName isName_git.noSlash]
    exact congrArg pathText (enter_of_isName isName_git main.names)
  have habove : ∀ n ∈ main.names ++ [lit ".git", lit "worktrees"], IsName n := by
    refine List.forall_mem_append.2 ⟨main.isName, ?_⟩
    simp only [List.mem_cons, List.not_mem_nil, or_false, forall_eq_or_imp, forall_eq]
    exact ⟨isName_git, isName_worktrees⟩
  have hgitdirAbs : realpath (pathJoin cwd.text (PyStr.strip gitdir)) =
      pathText (enter (main.names ++ [lit ".git", lit "worktrees"]) (rtrim PyStr.isSpace w)) := by
    have hgitdir' : Line cwd ((main.names ++ [lit ".git", lit "worktrees"]) ++ [w]) gitdir := by
      rwa [List.append_assoc]
    rw [realpath, resolvePath_line hgitdir' habove hw.noSlash]
  unfold gitIdentity
  dsimp only
  rw [hcommonAbs, hgitdirAbs, basename_main]
  congr 1
  have habove' : main.names ++ [lit ".git", lit "worktrees"] = (main.names ++ [lit ".git"]) ++ [lit "worktrees"] := by
    rw [List.append_assoc]
    rfl
  have hgit : ∀ n ∈ main.names ++ [lit ".git"], IsName n := by
    intro n hn
    apply habove
    rw [habove']
    exact List.mem_append_left _ hn
  have hother : ∀ {names : List PyStr}, (∀ n ∈ names, IsName n) → names.length ≠ (main.names ++ [lit ".git"]).length →
      pathText names ≠ pathText (main.names ++ [lit ".git"]) := by
    intro names hnames hlen heq
    exact hlen (congrArg _ ((pathText_inj hnames hgit).1 heq))
  unfold worktreeName
  dsimp only
  have hsub : PyStr.slash ∉ rtrim PyStr.isSpace w := fun hc => hw.noSlash (rtrim_sub _ hc)
  generalize rtrim PyStr.isSpace w = v at hsub
  unfold enter
  by_cases hdot : v = [] ∨ v = lit "."
  · rw [if_pos hdot, if_pos hdot, if_pos (hother habove (by simp)), habove', basename_slashed isName_worktrees.noSlash]
  · rw [if_neg hdot, if_neg hdot]
    by_cases hdots : v = lit ".."
    · rw [if_pos hdots, if_pos hdots, habove', List.dropLast_concat, if_neg (not_not_intro rfl)]
    · have hv : IsName v := ⟨fun h => hdot (.inl h), hsub, fun h => hdot (.inr h), hdots⟩
      have hall : ∀ n ∈ main.names ++ [lit ".git", lit "worktrees"] ++ [v], IsName n :=
        List.forall_mem_append.2 ⟨habove, by simpa using hv⟩
      rw [if_neg hdots, if_neg hdots, if_pos (hother hall (by simp)), basename_slashed hsub]

/-! ## The names of the projects -/

theorem Path.text_cases (p : Path) :
    (p.names = [] ∧ p.last = []) ∨ ∃ names, IsName p.last ∧ p.names = names ++ [p.last] := by
  unfold Path.last
  rcases List.eq_nil_or_concat' p.names with hnil | ⟨names, n, hnames⟩
  · rw [hnil]
    exact .inl ⟨rfl, rfl⟩
  · rw [hnames, List.getLast?_concat]
    exact .inr ⟨names, p.isName n (by simp [hnames]), rfl⟩

theorem Path.text_eq (p : Path) : ∃ names, p.text = slashed names ++ PyStr.slash :: p.last := by
  unfold Path.text
  rcases p.text_cases with ⟨hnil, hlast⟩ | ⟨names, -, hnames⟩
  · rw [hnil, hlast]
    exact ⟨[], rfl⟩
  · rw [hnames]
    exact ⟨names, pathText_concat names p.last⟩

theorem lastName_text (p : Path) : lastName p.text = p.last := by
  unfold lastName Path.text
  rcases p.text_cases with ⟨hnil, hlast⟩ | ⟨names, hname, hnames⟩
  · rw [hnil, hlast]
    rfl
  · rw [hnames, pathText_concat, rstrip_name hname, PyStr.split_slash, PyStr.split_of_noSlash hname.noSlash,
      List.getLast?_concat]
    rfl

theorem worktreeName_ne_nil (w : PyStr) : worktreeName w ≠ some [] := by
  unfold worktreeName
  dsimp only
  split
  · decide
  · next hdot =>
    split
    · rintro ⟨⟩
    · intro h
      exact hdot (.inl (Option.some.inj h))

/-- The name of the current directory, which is a `-` in the root. -/
def Path.fallback (p : Path) : PyStr := if p.last = [] then lit "-" else p.last

theorem deriveProject_eq (repo : PyStr) {worktree : Option PyStr} (hw : worktree ≠ some []) (cwd : Path) :
    deriveProject (if repo = [] then none else some repo, worktree) (some cwd.text) =
      if repo = [] then cwd.fallback else tagged repo worktree := by
  unfold deriveProject
  dsimp only
  by_cases hrepo : repo = []
  · rw [if_pos hrepo, if_pos hrepo, Option.getD_none, if_neg (not_not_intro rfl), Option.getD_some,
      lastName_text, ite_not]
    rfl
  · rw [if_neg hrepo, if_neg hrepo, Option.getD_some, if_pos hrepo]
    cases worktree with
    | none => exact if_neg (not_not_intro rfl)
    | some v =>
      rw [Option.getD_some, if_pos fun h => hw (by rw [h])]
      rfl

theorem jsProject_toplevel (cwd root : Path) :
    jsProject cwd.text (some (root.text ++ lit "\n")) =
      if rtrim isJsSpace root.last = [] then cwd.fallback else rtrim isJsSpace root.last := by
  have hlast : PyStr.slash ∉ rtrim isJsSpace root.last := by
    intro hc
    rcases root.text_cases with ⟨-, hnil⟩ | ⟨-, hname, -⟩
    · rw [hnil] at hc
      cases hc
    · exact hname.noSlash (rtrim_sub _ hc)
  obtain ⟨names, htext⟩ := root.text_eq
  have htrim : trimBy isJsSpace (root.text ++ lit "\n") =
      slashed names ++ PyStr.slash :: rtrim isJsSpace root.last := by
    rw [htext, List.append_assoc, List.cons_append, ← rtrim_newline (p := isJsSpace) (by decide) root.last]
    exact trimBy_slashed (by decide) names _
  unfold jsProject
  dsimp only
  rw [Option.getD_some, htrim, PyStr.split_slash, PyStr.split_of_noSlash hlast, List.getLast?_concat, Option.getD_some,
    lastName_text, ite_not, ite_not]
  rfl

theorem jsProject_none (cwd : Path) : jsProject cwd.text none = cwd.fallback := by
  have hrepo : ((PyStr.split (trimBy isJsSpace (none.getD []))).getLast?).getD [] = [] := rfl
  unfold jsProject
  dsimp only
  rw [if_neg (not_not_intro hrepo), lastName_text, ite_not]
  rfl

theorem sanitize_fallback {p : CodePoint → Bool} (hp : ∀ c, isGraph c = true → p c = false) (cwd : Path) :
    sanitize p cwd.fallback = sanitize p cwd.last := by
  unfold Path.fallback
  split
  · next hnil =>
    rw [hnil]
    exact sanitize_of_isSegment hp isSegment_dash
  · rfl

theorem rtrim_eq_nil_iff {p : CodePoint → Bool} {s : PyStr} : rtrim p s = [] ↔ trimBy p s = [] := by
  have hall : rtrim p s = [] ↔ ∀ c ∈ s, p c = true := by
    rw [rtrim, List.reverse_eq_nil_iff, List.dropWhile_eq_nil_iff]
    simp
  rw [hall, trimBy, List.reverse_eq_nil_iff, List.dropWhile_eq_nil_iff]
  constructor
  · intro h c hc
    exact h c ((List.dropWhile_sublist p).subset (List.mem_reverse.1 hc))
  · intro h c hc
    rw [← List.takeWhile_append_dropWhile (p := p) (l := s), List.mem_append] at hc
    rcases hc with hc | hc
    · exact List.mem_takeWhile_imp hc
    · exact h c (List.mem_reverse.2 hc)

theorem sanitize_rtrim (p : CodePoint → Bool) (s : PyStr) : sanitize p (rtrim p s) = sanitize p s := by
  have htrim : trimBy p (rtrim p s) = trimBy p s := by
    have hs : rtrim p s ++ (s.reverse.takeWhile p).reverse = s := by
      rw [rtrim, ← List.reverse_append, List.takeWhile_append_dropWhile, List.reverse_reverse]
    have hblank : ∀ c ∈ s.reverse.takeWhile p, p c = true := fun c hc => List.mem_takeWhile_imp hc
    generalize rtrim p s = t at hs
    generalize s.reverse.takeWhile p = e at hs hblank
    subst hs
    unfold trimBy
    rw [List.dropWhile_append]
    split
    · next hempty =>
      have hnil : e.reverse.dropWhile p = [] :=
        List.dropWhile_eq_nil_iff.2 fun c hc => hblank c (List.mem_reverse.1 hc)
      rw [List.isEmpty_iff.1 hempty, hnil]
    · rw [List.reverse_append, List.reverse_reverse, List.dropWhile_append_of_pos hblank]
  unfold sanitize
  rw [htrim]

/-! ## The two headers -/

section
variable [Python]

theorem seg_str (s : PyStr) : seg (.str s) = sanitize PyStr.isSpace s := by
  have : (Json.str s).or (.str []) = .str s := by
    cases s with
    | nil => rfl
    | cons c s => rfl
  rw [seg, this]
  rfl

theorem split_deriveAddress (env : List (PyStr × PyStr)) (runtime : Json)
    (gitId : Option PyStr × Option PyStr) (cwd : Option PyStr) (hostname : PyStr) (pid : Json) :
    PyStr.split (deriveAddress env runtime gitId cwd (.str hostname) pid) =
      [sanitize PyStr.isSpace (hostOf env hostname), seg runtime,
        sanitize PyStr.isSpace (deriveProject gitId cwd), seg pid] := by
  have hhost : (((env.lookup (lit "MUSTER_HOST")).map Json.str).getD .null).or (.str hostname) =
      .str (hostOf env hostname) := by
    unfold hostOf
    cases env.lookup (lit "MUSTER_HOST") with
    | none => rfl
    | some host =>
      cases host with
      | nil => rfl
      | cons c host => rfl
  unfold deriveAddress
  dsimp only
  rw [hhost, (parseAgentHeader_join [] (isSegment_seg _) (isSegment_seg _) (isSegment_seg _)
    (isSegment_seg _)).1, seg_str, seg_str]

omit [Python] in
theorem split_jsAgent (env : List (PyStr × PyStr)) (hostname directory : PyStr) (toplevel : Option PyStr)
    (pid : Nat) : PyStr.split (jsAgent env hostname directory toplevel pid) =
      [jsSeg (hostOf env hostname), lit "opencode", jsSeg (jsProject directory toplevel),
        jsSeg (if pid = 0 then [] else PyStr.strNat pid)] := by
  have hruntime : IsSegment (lit "opencode") := by
    have : lit "opencode" = jsSeg (lit "opencode") := by decide
    rw [this]
    exact isSegment_sanitize _ _
  exact (parseAgentHeader_join [] (isSegment_sanitize _ _) hruntime (isSegment_sanitize _ _)
    (isSegment_sanitize _ _)).1

omit [Python] in
/-- The projects the two shims are in. -/
theorem project_eq_iff {cwd : Path} {layout : Layout} {out : Option GitOutput} (h : Reports cwd layout out) :
    sanitize PyStr.isSpace
        (deriveProject (gitIdentity cwd.text (out.map fun o => (o.commonDir, o.gitDir))) (some cwd.text)) =
      jsSeg (jsProject cwd.text (out.map (·.toplevel))) ↔ SameProject cwd layout := by
  have hspace : ∀ c, isGraph c = true → PyStr.isSpace c = false := fun c hc => isSpace_of_isGraph hc
  have hjs : ∀ c, isGraph c = true → isJsSpace c = false := fun c hc => isJsSpace_of_isGraph hc
  have hplain : ∀ s, sanitize PyStr.isSpace s = sanitize isJsSpace s ↔ Plain s := sanitize_self_iff hspace hjs
  unfold jsSeg
  cases h with
  | none =>
    have hnone : (none : Option PyStr) ≠ some [] := by rintro ⟨⟩
    have hours := deriveProject_eq [] hnone cwd
    rw [Option.map_none, Option.map_none, jsProject_none, gitIdentity]
    rw [if_pos rfl, if_pos rfl] at hours
    rw [hours, sanitize_fallback hspace, sanitize_fallback hjs, hplain]
    rfl
  | @main root common gitdir hcommon hgitdir =>
    rw [Option.map_some, Option.map_some, gitIdentity_main hcommon hgitdir,
      deriveProject_eq _ (by rintro ⟨⟩), jsProject_toplevel, SameProject]
    by_cases hroot : root.last = []
    · have hrtrim : rtrim isJsSpace root.last = [] := by rw [hroot]; rfl
      rw [if_pos hroot, if_pos hroot, if_pos hrtrim, sanitize_fallback hspace, sanitize_fallback hjs, hplain]
    · rw [if_neg hroot, if_neg hroot, tagged]
      by_cases hblank : trimBy isJsSpace root.last = []
      · rw [if_pos hblank, if_pos (rtrim_eq_nil_iff.2 hblank), sanitize_fallback hjs]
        exact sanitize_eq_iff _ _ _ _
      · rw [if_neg hblank, if_neg (mt rtrim_eq_nil_iff.1 hblank), sanitize_rtrim, hplain]
  | @linked main root w common gitdir isName hcommon hgitdir =>
    rw [Option.map_some, Option.map_some, gitIdentity_linked isName hcommon hgitdir,
      deriveProject_eq _ (worktreeName_ne_nil w), jsProject_toplevel, SameProject]
    have hours : sanitize PyStr.isSpace
          (if main.last = [] then cwd.fallback else tagged main.last (worktreeName w)) =
        sanitize PyStr.isSpace (if main.last = [] then cwd.last else tagged main.last (worktreeName w)) := by
      split
      · exact sanitize_fallback hspace cwd
      · rfl
    have htheirs : sanitize isJsSpace
          (if rtrim isJsSpace root.last = [] then cwd.fallback else rtrim isJsSpace root.last) =
        sanitize isJsSpace (if trimBy isJsSpace root.last = [] then cwd.last else root.last) := by
      by_cases hblank : trimBy isJsSpace root.last = []
      · rw [if_pos hblank, if_pos (rtrim_eq_nil_iff.2 hblank), sanitize_fallback hjs]
      · rw [if_neg hblank, if_neg (mt rtrim_eq_nil_iff.1 hblank), sanitize_rtrim]
    rw [hours, htheirs]
    exact sanitize_eq_iff _ _ _ _

/-- **When the shims agree on host and project.** -/
theorem same_identity_iff (env : List (PyStr × PyStr)) (hostname : PyStr) (runtime pid : Json)
    (jsPid : Nat) {cwd : Path} {layout : Layout} {out : Option GitOutput} (h : Reports cwd layout out) :
    let ours := PyStr.split (deriveAddress env runtime
      (gitIdentity cwd.text (out.map fun o => (o.commonDir, o.gitDir))) (some cwd.text) (.str hostname) pid)
    let theirs := PyStr.split (jsAgent env hostname cwd.text (out.map (·.toplevel)) jsPid)
    (ours[0]? = theirs[0]? ∧ ours[2]? = theirs[2]?) ↔
      Plain (hostOf env hostname) ∧ SameProject cwd layout := by
  have hhost : sanitize PyStr.isSpace (hostOf env hostname) = jsSeg (hostOf env hostname) ↔
      Plain (hostOf env hostname) :=
    sanitize_self_iff (fun c hc => isSpace_of_isGraph hc) (fun c hc => isJsSpace_of_isGraph hc) _
  intro ours theirs
  have hours : ours = _ := split_deriveAddress env runtime _ (some cwd.text) hostname pid
  have htheirs : theirs = _ := split_jsAgent env hostname cwd.text _ jsPid
  rw [hours, htheirs, ← project_eq_iff h, ← hhost]
  simp only [List.getElem?_cons_zero, List.getElem?_cons_succ, Option.some.injEq]

end

/-! ## Linked worktrees -/

/-- **Apart as soon as the worktree is a linked one**, unless its directory has a `~` in its name as
well. -/
theorem linked_apart {cwd main root : Path} {w : PyStr} {isName : IsName w} (hmain : main.last ≠ [])
    (hw : worktreeName w ≠ none) (hcwd : (126 : CodePoint) ∉ cwd.last) (hroot : (126 : CodePoint) ∉ root.last) :
    ¬ SameProject cwd (.linked main w isName root) := by
  have htilde : isWord 126 = true := by decide
  intro h
  rw [SameProject, if_neg hmain] at h
  obtain ⟨v, hv⟩ := Option.ne_none_iff_exists'.1 hw
  have hours : (126 : CodePoint) ∈ tagged main.last (worktreeName w) := by
    rw [hv, tagged, List.append_assoc]
    exact List.mem_append_right _ (List.mem_append_left _ (by decide))
  have htheirs := (Alike.word_mem_iff h htilde).1
    ((mem_orDash htilde).2 ((mem_trimBy (p := PyStr.isSpace) (by decide)).2 hours))
  rw [mem_orDash htilde, mem_trimBy (by decide)] at htheirs
  split at htheirs
  · exact hcwd htheirs
  · exact hroot htheirs

theorem isName_lit {s : String} (h : (lit s != [] && !(lit s).contains PyStr.slash && lit s != lit "." &&
    lit s != lit "..") = true) : IsName (lit s) := by
  simp only [Bool.and_eq_true, bne_iff_ne, Bool.not_eq_true', List.contains_eq_mem, decide_eq_false_iff_not] at h
  obtain ⟨⟨⟨hnil, hslash⟩, hdot⟩, hdots⟩ := h
  exact ⟨hnil, hslash, hdot, hdots⟩

/-- `/src/s`. -/
def srcPath (s : String) (h : IsName (lit s)) : Path :=
  ⟨[lit "src", lit s], by simpa using ⟨isName_lit rfl, h⟩⟩

/-- The worktree `fix` of the repository in `/src/app`, checked out in `/src/fix`. -/
def fixRoot : Path := srcPath "fix" (isName_lit rfl)

def fixLayout : Layout := .linked (srcPath "app" (isName_lit rfl)) (lit "fix") (isName_lit rfl) fixRoot

def fixOutput : GitOutput :=
  ⟨lit "/src/app/.git\n", lit "/src/app/.git/worktrees/fix\n", lit "/src/fix\n"⟩

theorem fix_reports : Reports fixRoot fixLayout (some fixOutput) :=
  .linked .absolute .absolute

/-- The shim is in `app~fix`, the plugin in `fix`. -/
theorem fix_differs :
    let _ : Python := Python.plain
    Reports fixRoot fixLayout (some fixOutput) ∧
    (PyStr.split (deriveAddress [] (.str (lit "claude"))
      (gitIdentity fixRoot.text (some (fixOutput.commonDir, fixOutput.gitDir))) (some fixRoot.text)
      (.str (lit "box")) (.int 7)))[2]? = some (lit "app~fix") ∧
    (PyStr.split (jsAgent [] (lit "box") fixRoot.text (some fixOutput.toplevel) 8))[2]? = some (lit "fix") := by
  intro _
  refine ⟨fix_reports, ?_, ?_⟩
  · rw [split_deriveAddress]
    decide +kernel
  · rw [split_jsAgent]
    decide +kernel

theorem same_identity_iff_fix :
    let _ : Python := Python.plain
    let ours := PyStr.split (deriveAddress [] (.str (lit "claude"))
      (gitIdentity fixRoot.text ((some fixOutput).map fun o => (o.commonDir, o.gitDir))) (some fixRoot.text)
      (.str (lit "box")) (.int 7))
    let theirs := PyStr.split (jsAgent [] (lit "box") fixRoot.text ((some fixOutput).map (·.toplevel)) 8)
    (ours[0]? = theirs[0]? ∧ ours[2]? = theirs[2]?) ↔
      Plain (hostOf [] (lit "box")) ∧ SameProject fixRoot fixLayout := by
  intro _
  exact same_identity_iff [] (lit "box") (.str (lit "claude")) (.int 7) 8 fix_reports

end Muster
