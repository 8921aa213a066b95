import Muster.Sse
import Muster.Identity

/-!
# The client's half of an address (`naming.py`)

A segment is whatever it is given, made printable: runs of anything else and slashes become
`-`, and nothing at all is `-` as well.  So the header of four segments is one that the
server takes (`derived_address_accepted`).

`sanitize` has the blanks as a parameter, since the OpenCode plugin's `trim()` takes off other
ones than `strip()`.
-/

namespace Muster

/-- `[\x21-\x7e]`. -/
def isGraph (c : CodePoint) : Bool := 0x21 ≤ c && c ≤ 0x7E

def dash : CodePoint := 45

/-- `re.sub(r"[^\x21-\x7e]+|/", "-", s)`; `inRun` within a run that has had its `-`. -/
def dashes (inRun : Bool) : PyStr → PyStr
  | [] => []
  | c :: s =>
    if c = PyStr.slash then dash :: dashes false s
    else if isGraph c then c :: dashes false s
    else if inRun then dashes true s
    else dash :: dashes true s

def sanitize (space : CodePoint → Bool) (s : PyStr) : PyStr :=
  let t := dashes false (trimBy space s)
  if t = [] then [dash] else t

/-- `s.rstrip("/").rsplit("/", 1)[-1]`. -/
def lastName (s : PyStr) : PyStr :=
  ((PyStr.split (s.reverse.dropWhile (· = PyStr.slash)).reverse).getLast?).getD []

/-- `derive_project`. -/
def deriveProject (gitId : Option PyStr × Option PyStr) (cwd : Option PyStr) : PyStr :=
  let repo := gitId.1.getD []
  let worktree := gitId.2.getD []
  if repo ≠ [] then
    if worktree ≠ [] then repo ++ lit "~" ++ worktree else repo
  else
    let base := lastName (cwd.getD [])
    if base ≠ [] then base else lit "-"

section
variable [Python]

/-- `_seg`. -/
def seg (value : Json) : PyStr := sanitize PyStr.isSpace (value.or (.str [])).text

/-- `derive_address`. -/
def deriveAddress (env : List (PyStr × PyStr)) (runtime : Json) (gitId : Option PyStr × Option PyStr)
    (cwd : Option PyStr) (hostname pid : Json) : PyStr :=
  let host := (((env.lookup (lit "MUSTER_HOST")).map Json.str).getD .null).or hostname
  PyStr.join [seg host, seg runtime, seg (.str (deriveProject gitId cwd)), seg pid]

end

/-! ## Segments -/

theorem isGraph_dash : isGraph dash = true := by decide

/-- Printable, without a slash and not empty. -/
structure IsSegment (s : PyStr) : Prop where
  graph : ∀ c ∈ s, isGraph c = true
  noSlash : PyStr.slash ∉ s
  ne_nil : s ≠ []

theorem dashes_graph (inRun : Bool) (s : PyStr) :
    ∀ c ∈ dashes inRun s, isGraph c = true ∧ c ≠ PyStr.slash := by
  have hdash : isGraph dash = true ∧ dash ≠ PyStr.slash := by decide
  induction s generalizing inRun with
  | nil =>
    intro c hc
    cases hc
  | cons a s ih =>
    intro c hc
    unfold dashes at hc
    split at hc
    · rcases List.mem_cons.1 hc with rfl | hc
      · exact hdash
      · exact ih _ c hc
    · next hslash =>
      split at hc
      · next hgraph =>
        rcases List.mem_cons.1 hc with rfl | hc
        · exact ⟨hgraph, hslash⟩
        · exact ih _ c hc
      · split at hc
        · exact ih _ c hc
        · rcases List.mem_cons.1 hc with rfl | hc
          · exact hdash
          · exact ih _ c hc

/-- Nothing is left to replace. -/
theorem dashes_of_graph {s : PyStr} (hgraph : ∀ c ∈ s, isGraph c = true) (hslash : PyStr.slash ∉ s) :
    dashes false s = s := by
  induction s with
  | nil => rfl
  | cons c s ih =>
    obtain ⟨hc, hs⟩ := List.forall_mem_cons.1 hgraph
    obtain ⟨hne, hrest⟩ := List.ne_and_not_mem_of_not_mem_cons hslash
    rw [dashes, if_neg (Ne.symm hne), if_pos hc, ih hs hrest]

theorem isSegment_dash : IsSegment [dash] := ⟨by simp [isGraph_dash], by decide, by decide⟩

theorem isSegment_sanitize (space : CodePoint → Bool) (s : PyStr) : IsSegment (sanitize space s) := by
  unfold sanitize
  dsimp only
  split
  · exact isSegment_dash
  · next hne =>
    exact ⟨fun c hc => (dashes_graph false _ c hc).1,
      fun hslash => (dashes_graph false _ _ hslash).2 rfl, hne⟩

theorem trimBy_of_none {p : CodePoint → Bool} {s : PyStr} (h : ∀ c ∈ s, p c = false) :
    trimBy p s = s := by
  have hdrop : ∀ t : PyStr, (∀ c ∈ t, p c = false) → t.dropWhile p = t := by
    intro t ht
    cases t with
    | nil => rfl
    | cons c t => exact List.dropWhile_cons_of_neg (by simp [ht c List.mem_cons_self])
  unfold trimBy
  rw [hdrop s h, hdrop s.reverse fun c hc => h c (List.mem_reverse.1 hc), List.reverse_reverse]

theorem sanitize_of_isSegment {space : CodePoint → Bool}
    (hspace : ∀ c, isGraph c = true → space c = false) {s : PyStr} (h : IsSegment s) :
    sanitize space s = s := by
  unfold sanitize
  rw [trimBy_of_none fun c hc => hspace c (h.graph c hc), dashes_of_graph h.graph h.noSlash]
  exact if_neg h.ne_nil

theorem isSpace_of_isGraph {c : CodePoint} (h : isGraph c = true) : PyStr.isSpace c = false := by
  simp only [isGraph, Bool.and_eq_true, decide_eq_true_eq, Fin.le_def] at h
  simp only [PyStr.isSpace, Bool.or_eq_false_iff, Bool.and_eq_false_iff, decide_eq_false_iff_not,
    beq_eq_false_iff_ne, Fin.le_def, ne_eq, Fin.ext_iff]
  omega

theorem isJsSpace_of_isGraph {c : CodePoint} (h : isGraph c = true) : isJsSpace c = false := by
  simp only [isGraph, Bool.and_eq_true, decide_eq_true_eq, Fin.le_def] at h
  simp only [isJsSpace, Bool.or_eq_false_iff, Bool.and_eq_false_iff, decide_eq_false_iff_not,
    beq_eq_false_iff_ne, Fin.le_def, ne_eq, Fin.ext_iff]
  omega

section
variable [Python]

theorem isSegment_seg (value : Json) : IsSegment (seg value) := isSegment_sanitize _ _

theorem seg_seg (value : Json) : seg (.str (seg value)) = seg value := by
  have htruthy : Json.truthy (.str (seg value)) = true := bne_iff_ne.2 (isSegment_seg value).ne_nil
  rw [seg, Json.or_of_truthy htruthy]
  exact sanitize_of_isSegment (fun c hc => isSpace_of_isGraph hc) (isSegment_seg value)

omit [Python] in
/-- Any four segments make a header that is taken. -/
theorem parseAgentHeader_join (user : PyStr) {h r p s : PyStr} (hh : IsSegment h) (hr : IsSegment r)
    (hp : IsSegment p) (hs : IsSegment s) :
    PyStr.split (PyStr.join [h, r, p, s]) = [h, r, p, s] ∧
      parseAgentHeader user (PyStr.join [h, r, p, s]) = .ok ⟨user, h, r, p, s⟩ := by
  have hsplit : PyStr.split (PyStr.join [h, r, p, s]) = [h, r, p, s] := by
    refine PyStr.split_join ?_ (List.cons_ne_nil _ _)
    simp only [List.mem_cons, List.not_mem_nil, or_false, forall_eq_or_imp, forall_eq]
    exact ⟨hh.noSlash, hr.noSlash, hp.noSlash, hs.noSlash⟩
  refine ⟨hsplit, ?_⟩
  unfold parseAgentHeader
  rw [hsplit]
  exact if_neg (by simp [hh.ne_nil, hr.ne_nil, hp.ne_nil, hs.ne_nil])

omit [Python] in
theorem join_graph {segments : List PyStr} (h : ∀ s ∈ segments, ∀ c ∈ s, isGraph c = true) :
    ∀ c ∈ PyStr.join segments, isGraph c = true := by
  have hslash : isGraph PyStr.slash = true := by decide
  induction segments with
  | nil =>
    intro c hc
    cases hc
  | cons s segments ih =>
    obtain ⟨hs, hrest⟩ := List.forall_mem_cons.1 h
    intro c hc
    cases segments with
    | nil => exact hs c (by simpa [PyStr.join] using hc)
    | cons t segments =>
      rw [PyStr.join, List.intercalate_cons_cons, List.mem_append, List.mem_append,
        List.mem_singleton] at hc
      rcases hc with (hc | rfl) | hc
      · exact hs c hc
      · exact hslash
      · exact ih hrest c hc

/-- **The derived header is always accepted**: it is printable, and its four segments are those of
the address, whoever the user is. -/
theorem derived_address_accepted (env : List (PyStr × PyStr)) (runtime : Json)
    (gitId : Option PyStr × Option PyStr) (cwd : Option PyStr) (hostname pid : Json) :
    let header := deriveAddress env runtime gitId cwd hostname pid
    (∀ c ∈ header, isGraph c = true) ∧
    (∃ host rt project session, PyStr.split header = [host, rt, project, session] ∧
      (host ≠ [] ∧ rt ≠ [] ∧ project ≠ [] ∧ session ≠ []) ∧
      ∀ user, ∃ a, parseAgentHeader user header = .ok a ∧ a = ⟨user, host, rt, project, session⟩ ∧
        a.text = user ++ lit "/" ++ header) ∧
    ∀ value, seg (.str (seg value)) = seg value := by
  intro header
  refine ⟨?_, ?_, seg_seg⟩
  · refine join_graph ?_
    simp only [List.mem_cons, List.not_mem_nil, or_false, forall_eq_or_imp, forall_eq]
    exact ⟨(isSegment_seg _).graph, (isSegment_seg _).graph, (isSegment_seg _).graph, (isSegment_seg _).graph⟩
  · have hparse := fun user => parseAgentHeader_join user
      (isSegment_seg ((((env.lookup (lit "MUSTER_HOST")).map Json.str).getD .null).or hostname))
      (isSegment_seg runtime) (isSegment_seg (.str (deriveProject gitId cwd))) (isSegment_seg pid)
    refine ⟨_, _, _, _, (hparse []).1, ⟨(isSegment_seg _).ne_nil, (isSegment_seg _).ne_nil,
      (isSegment_seg _).ne_nil, (isSegment_seg _).ne_nil⟩, fun user => ⟨_, (hparse user).2, rfl, ?_⟩⟩
    rw [text_of_parseAgentHeader (hparse user).2, List.append_assoc]
    rfl

end

end Muster
