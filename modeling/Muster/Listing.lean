import Muster.OpenCode
import Muster.StoreRuns
import Muster.Lib.Lines

/-!
# What both rosters list

A roster lists its rows when, line by line, it has a heading for each project and below it a
line for each row of the project, and the hidden projects at the end (`Listing`).  The two
shims' do for all rows with an object for metadata, unless some text breaks a line, a project is
named like a property of every object or a branch cannot be converted to a string
(`rosters_list_alike_iff`).
-/

namespace Muster

open Groups

/-! ## Listings -/

def shownCount (e : PyStr × Nat) : PyStr := e.1 ++ lit " ×" ++ PyStr.strNat e.2

/-- The heading of a project, and a line for each of the rows that starts with its address. -/
def Block (g : PyStr × List Row) (block : List PyStr) : Prop :=
  ∃ lines, block = (g.1 ++ lit ":") :: lines ∧
    List.Forall₂ (fun a line => lit "- " ++ a.addr <+: line) g.2 lines

/-- Each hidden project once, with its count. -/
def Foot (tail : PyStr) (hidden : List (PyStr × Nat)) (foot : List PyStr) : Prop :=
  (hidden = [] ∧ foot = []) ∨ (hidden ≠ [] ∧ ∃ (title : PyStr) (counts : List (PyStr × Nat)),
    (title = lit "Offline" ∨ title = lit "Online") ∧ counts.Perm hidden ∧
    foot = [title ++ lit ": " ++ (lit " · ").intercalate (counts.map shownCount) ++ tail])

/-- The text has a block for each group, in the order of `groups`, between its first line and its
foot. -/
structure Listing (tail : PyStr) (rows : List Row) (hidden : List (PyStr × Nat))
    (groups : List (PyStr × List Row)) (text : PyStr) : Prop where
  grouping : IsGrouping Row.project rows groups
  lines : ∃ head blocks foot, text.splitOn 10 = head :: blocks.flatten ++ foot ∧
    List.Forall₂ Block groups blocks ∧ Foot tail hidden foot

/-- What the tool of the shim suggests. -/
def shimTail : PyStr :=
  lit " — roster \x7b\"status\":\"all\"\x7d or \x7b\"project\":\"…\"\x7d to list them"

def pluginTail : PyStr :=
  lit " — muster_roster \x7b\"status\":\"all\"\x7d or \x7b\"project\":\"…\"\x7d to list them"

/-- Both answer with a listing of the rows, under the same headings. -/
def ListAlike (rows : List Row) (hidden : List (PyStr × Nat)) (shim : Except ShimExn PyStr)
    (plugin : Option PyStr) : Prop :=
  ∃ text text' groups groups', shim = .ok text ∧ plugin = some text' ∧
    Listing shimTail rows hidden groups text ∧ Listing pluginTail rows hidden groups' text' ∧
    (groups.map Prod.fst).Perm (groups'.map Prod.fst) ∧
    ∀ project addr, (∃ g ∈ groups, g.1 = project ∧ ∃ a ∈ g.2, a.addr = addr) ↔
      ∃ g ∈ groups', g.1 = project ∧ ∃ a ∈ g.2, a.addr = addr

/-- A text made of items that should be its lines. -/
def rosterItems (head : PyStr) (line : Row → PyStr) (groups : List (PyStr × List Row))
    (foot : List PyStr) : List PyStr :=
  head :: (groups.map fun g => (g.1 ++ lit ":") :: g.2.map line).flatten ++ foot

section
variable {rows : List Row} {hidden : List (PyStr × Nat)} {tail : PyStr}

theorem Foot.length {foot : List PyStr} (h : Foot tail hidden foot) :
    foot.length = if hidden = [] then 0 else 1 := by
  rcases h with ⟨hnil, rfl⟩ | ⟨hne, title, counts, -, -, rfl⟩
  · rw [if_pos hnil]
    rfl
  · rw [if_neg hne]
    rfl

theorem length_blocks {groups : List (PyStr × List Row)} {blocks : List (List PyStr)}
    (h : List.Forall₂ Block groups blocks) :
    blocks.flatten.length = groups.length + (groups.map fun g => g.2.length).sum := by
  induction h with
  | nil => rfl
  | cons hblock _ ih =>
    obtain ⟨lines, rfl, hlines⟩ := hblock
    rw [List.flatten_cons, List.length_append, ih, List.length_cons, List.length_cons, List.map_cons,
      List.sum_cons, hlines.length_eq]
    omega

/-- As many lines as there are projects and rows, and one or two more. -/
theorem length_listing {groups : List (PyStr × List Row)} {blocks : List (List PyStr)} {foot : List PyStr}
    (hgrouping : IsGrouping Row.project rows groups) (hblocks : List.Forall₂ Block groups blocks)
    (hfoot : Foot tail hidden foot) (head : PyStr) :
    (head :: blocks.flatten ++ foot).length =
      1 + ((rows.map Row.project).dedup.length + rows.length) + if hidden = [] then 0 else 1 := by
  rw [List.cons_append, List.length_cons, List.length_append, length_blocks hblocks, hgrouping.length_keys,
    hgrouping.sum_length, hfoot.length]
  omega

theorem blocks_items {line : Row → PyStr} (hline : ∀ a, lit "- " ++ a.addr <+: line a)
    (groups : List (PyStr × List Row)) :
    List.Forall₂ Block groups (groups.map fun g => (g.1 ++ lit ":") :: g.2.map line) := by
  rw [List.forall₂_map_right_iff]
  refine List.forall₂_same.2 fun g _ => ⟨g.2.map line, rfl, ?_⟩
  rw [List.forall₂_map_right_iff]
  exact List.forall₂_same.2 fun a _ => hline a

theorem rosterItems_ne_nil {head : PyStr} {line : Row → PyStr} {groups : List (PyStr × List Row)}
    {foot : List PyStr} : rosterItems head line groups foot ≠ [] := List.cons_ne_nil _ _

/-- **Items are the lines of a listing iff none has a line break of its own.** -/
theorem listing_iff {line : Row → PyStr} (hline : ∀ a, lit "- " ++ a.addr <+: line a)
    {groups : List (PyStr × List Row)} (hgrouping : IsGrouping Row.project rows groups) {foot : List PyStr}
    (hfoot : Foot tail hidden foot) (head : PyStr) :
    ((∃ groups', Listing tail rows hidden groups' ((lit "\n").intercalate (rosterItems head line groups foot))) ↔
      ∀ item ∈ rosterItems head line groups foot, OneLine item) ∧
    ((∀ item ∈ rosterItems head line groups foot, OneLine item) →
      Listing tail rows hidden groups ((lit "\n").intercalate (rosterItems head line groups foot))) := by
  have hlisting : (∀ item ∈ rosterItems head line groups foot, OneLine item) →
      Listing tail rows hidden groups ((lit "\n").intercalate (rosterItems head line groups foot)) := by
    intro h
    exact ⟨hgrouping, head, _, foot, List.splitOn_intercalate 10 h rosterItems_ne_nil,
      blocks_items hline groups, hfoot⟩
  refine ⟨⟨?_, fun h => ⟨groups, hlisting h⟩⟩, hlisting⟩
  rintro ⟨groups', hgrouping', head', blocks', foot', hsplit, hblocks', hfoot'⟩
  refine (Lines.length_lines_iff 10 rosterItems_ne_nil).1 ?_
  refine (congrArg List.length hsplit).trans ?_
  rw [length_listing hgrouping' hblocks' hfoot', rosterItems,
    length_listing hgrouping (blocks_items hline groups) hfoot]

end

/-! ## The roster of the shim -/

/-- `status`, as the tools take it. -/
def statusText : Option Status → PyStr
  | none => lit "all"
  | some st => st.text

def headLine (agent : PyStr) (rows : List Row) (asked : Option Status) : PyStr :=
  let label := if statusText asked = lit "all" then lit "visible" else statusText asked
  if rows = [] then lit "You are \"" ++ agent ++ lit "\". No " ++ label ++ lit " agents visible."
  else lit "You are \"" ++ agent ++ lit "\". " ++ PyStr.strNat rows.length ++ lit " " ++ label ++
    lit " agent(s):"

/-- The line of a row, but for its branch. -/
def rowLine (now : Int) (asked : Option Status) (branch : Row → PyStr) (a : Row) : PyStr :=
  lit "- " ++ a.addr ++ (if statusText asked = lit "all" then lit " — " ++ a.status.text else []) ++ branch a ++
    if a.status = .offline ∧ a.lastConnect ≠ 0 then
      lit " (last connect " ++ age now a.lastConnect ++ lit " ago)"
    else []

def footLine (asked : Option Status) (counts : List (PyStr × Nat)) (tail : PyStr) : List PyStr :=
  if counts = [] then []
  else [(if statusText asked = lit "online" then lit "Offline" else lit "Online") ++ lit ": " ++
    (lit " · ").intercalate (counts.map shownCount) ++ tail]

/-- What a comprehension without exceptions makes. -/
theorem mapM_eq_pure {α β : Type} {m : Type → Type} [Monad m] [LawfulMonad m] {f : α → m β} {g : α → β}
    {l : List α} (h : ∀ x ∈ l, f x = pure (g x)) : l.mapM f = pure (l.map g) := by
  induction l with
  | nil => rfl
  | cons x l ih =>
    obtain ⟨hx, hl⟩ := List.forall_mem_cons.1 h
    rw [List.mapM_cons, hx, ih hl, pure_bind, pure_bind, List.map_cons]

section
variable [Python] (now : Int) (asked : Option Status) (agent : PyStr) (rows : List Row)
  (hidden : List (PyStr × Nat))

/-- The branch as the shim shows it. -/
def shimBranch (a : Row) : PyStr := if a.branch.truthy then lit " @" ++ a.branch.text else []

def shimGroups : List (PyStr × List Row) :=
  ((rows.map Row.project).dedup.insertionSort (· ≤ ·)).map fun p =>
    (p, (rows.filter (·.project = p)).insertionSort fun a b => a.addr ≤ b.addr)

theorem fmtAgent_eq {a : Row} (h : ∃ kvs, a.metadata = .obj kvs) :
    fmtAgent now a (statusText asked = lit "all") = .ok (rowLine now asked shimBranch a) := by
  obtain ⟨kvs, hmeta⟩ := h
  have hor : a.metadata.or (.obj []) = .obj kvs := by
    rw [hmeta]
    cases kvs with
    | nil => rfl
    | cons kv kvs => rfl
  unfold fmtAgent rowLine shimBranch Row.branch
  rw [hor, hmeta]
  simp only [decide_eq_true_eq, List.append_assoc]

theorem fmtRoster_eq (hmeta : ∀ a ∈ rows, ∃ kvs, a.metadata = .obj kvs) :
    fmtRoster now agent rows hidden (statusText asked) =
      .ok ((lit "\n").intercalate (rosterItems (headLine agent rows asked) (rowLine now asked shimBranch)
        (shimGroups rows) (footLine asked (hidden.insertionSort moreHidden) shimTail))) := by
  have hproject : ∀ p, fmtProject now rows (statusText asked = lit "all") p =
      .ok ((p ++ lit ":") :: ((rows.filter (·.project = p)).insertionSort fun a b => a.addr ≤ b.addr).map
        (rowLine now asked shimBranch)) := by
    intro p
    unfold fmtProject
    dsimp only
    rw [mapM_eq_pure (g := rowLine now asked shimBranch)]
    · rfl
    · intro a ha
      rw [List.mem_insertionSort, List.mem_filter] at ha
      exact fmtAgent_eq now asked (hmeta a ha.1)
  unfold fmtRoster
  dsimp only
  rw [mapM_eq_pure fun p _ => hproject p]
  have hnil : hidden.insertionSort moreHidden = [] ↔ hidden = [] := by
    rw [← List.length_eq_zero_iff, List.length_insertionSort, List.length_eq_zero_iff]
  unfold rosterItems shimGroups footLine headLine
  rw [List.map_map]
  simp only [hnil]
  rfl

end

/-! ## The roster of the plugin -/

/-- The branch can be shown. -/
def Row.Convertible [JsNumbers] (a : Row) : Prop := a.branch.jsTruthy = true → a.branch.jsString ≠ none

theorem mapM_some {α β : Type} {f : α → Option β} {l : List α} {ys : List β} (h : l.mapM f = some ys) :
    ∀ x ∈ l, f x ≠ none := by
  induction l generalizing ys with
  | nil => exact List.forall_mem_nil _
  | cons x l ih =>
    rw [List.mapM_cons] at h
    cases hx : f x with
    | none =>
      rw [hx] at h
      cases h
    | some y =>
      cases hl : l.mapM f with
      | none =>
        rw [hx, hl] at h
        cases h
      | some ys' => exact List.forall_mem_cons.2 ⟨by rw [hx]; rintro ⟨⟩, ih hl⟩

theorem groupJs_some {byProject m : List (PyStr × List Row)} {rows : List Row}
    (h : ∀ p ∈ byProject.map Prod.fst, p ∉ objectMembers) (hm : groupJs byProject rows = some m) :
    ∀ a ∈ rows, a.project ∉ objectMembers := by
  induction rows generalizing byProject with
  | nil => exact List.forall_mem_nil _
  | cons a rows ih =>
    rw [groupJs] at hm
    split at hm
    · cases hm
    · next hinherited =>
      have ha : a.project ∉ objectMembers := by
        intro hmem
        by_cases hown : a.project ∈ byProject.map Prod.fst
        · exact h _ hown hmem
        · exact hinherited ⟨hown, hmem⟩
      refine List.forall_mem_cons.2 ⟨ha, ih ?_ hm⟩
      intro p hp
      rw [push_keys] at hp
      split at hp
      · exact h p hp
      · rcases List.mem_append.1 hp with hp | hp
        · exact h p hp
        · rw [List.mem_singleton.1 hp]
          exact ha

theorem groupJs_eq {rows : List Row} (h : ∀ a ∈ rows, a.project ∉ objectMembers)
    (byProject : List (PyStr × List Row)) :
    groupJs byProject rows = some (rows.foldl (fun m a => push Row.project a m) byProject) := by
  induction rows generalizing byProject with
  | nil => rfl
  | cons a rows ih =>
    obtain ⟨ha, hrows⟩ := List.forall_mem_cons.1 h
    rw [groupJs, if_neg fun hinherited => ha hinherited.2, ih hrows]
    rfl

theorem isGrouping_foldl {rows done : List Row} {m : List (PyStr × List Row)} (h : IsGrouping Row.project done m) :
    IsGrouping Row.project (done ++ rows) (rows.foldl (fun m a => push Row.project a m) m) := by
  induction rows generalizing done m with
  | nil => rwa [List.append_nil]
  | cons a rows ih =>
    have := ih (isGrouping_push h a)
    rwa [List.append_assoc, List.singleton_append] at this

section
variable [JsNumbers] (collate : PyStr → PyStr → Bool) (now : Int) (asked : Option Status) (agent : PyStr)
  (rows : List Row) (hidden : List (PyStr × Nat))

/-- The branch as the plugin shows it. -/
def pluginBranch (a : Row) : PyStr :=
  if a.branch.jsTruthy then lit " @" ++ a.branch.jsString.getD [] else []

def pluginGroups : List (PyStr × List Row) :=
  let byProject := rows.foldl (fun m a => push Row.project a m) []
  ((byProject.map Prod.fst).insertionSort fun x y => utf16 x ≤ utf16 y).map fun p =>
    (p, (membersOf byProject p).insertionSort fun x y => collate x.addr y.addr)

def pluginHidden : List (PyStr × Nat) :=
  (objectEntries hidden).insertionSort fun x y => y.2 < x.2 ∨ (x.2 = y.2 ∧ collate x.1 y.1 = true)

theorem fmtAgentJs_eq {a : Row} (h : a.Convertible) :
    fmtAgentJs now a (statusText asked = lit "all") = some (rowLine now asked pluginBranch a) := by
  unfold fmtAgentJs rowLine pluginBranch
  by_cases htruthy : a.branch.jsTruthy = true
  · obtain ⟨t, ht⟩ := Option.ne_none_iff_exists'.1 (h htruthy)
    rw [if_pos htruthy, if_pos htruthy, ht]
    simp only [decide_eq_true_eq]
    rfl
  · rw [if_neg htruthy, if_neg htruthy]
    simp only [decide_eq_true_eq]
    rfl

theorem convertible_of_fmtAgentJs {a : Row} {showStatus : Bool} (h : fmtAgentJs now a showStatus ≠ none) :
    a.Convertible := by
  intro htruthy hnone
  unfold fmtAgentJs at h
  rw [if_pos htruthy, hnone] at h
  exact h rfl

omit [JsNumbers] in
/-- What has been pushed is grouped. -/
theorem isGrouping_pushed : IsGrouping Row.project rows (rows.foldl (fun m a => push Row.project a m) []) :=
  isGrouping_foldl isGrouping_nil

omit [JsNumbers] in
variable {rows} in
theorem mem_of_membersOf {p : PyStr} {a : Row}
    (hp : p ∈ (rows.foldl (fun m a => push Row.project a m) []).map Prod.fst)
    (ha : a ∈ membersOf (rows.foldl (fun m a => push Row.project a m) []) p) : a ∈ rows :=
  List.mem_of_mem_filter (((isGrouping_pushed rows).membersOf_perm hp).mem_iff.1 ha)

theorem fmtRosterJs_eq (hproject : ∀ a ∈ rows, a.project ∉ objectMembers)
    (hbranch : ∀ a ∈ rows, a.Convertible) :
    fmtRosterJs collate now agent rows hidden (statusText asked) =
      some ((lit "\n").intercalate (rosterItems (headLine agent rows asked) (rowLine now asked pluginBranch)
        (pluginGroups collate rows) (footLine asked (pluginHidden collate hidden) pluginTail))) := by
  unfold fmtRosterJs
  dsimp only
  rw [groupJs_eq hproject, Option.bind_eq_bind, Option.bind_some]
  rw [mapM_eq_pure (m := Option) (g := fun p => (p ++ lit ":") ::
    ((membersOf (rows.foldl (fun m a => push Row.project a m) []) p).insertionSort fun x y =>
      collate x.addr y.addr).map (rowLine now asked pluginBranch))]
  · unfold rosterItems pluginGroups footLine headLine pluginHidden
    rw [List.map_map]
    rfl
  · intro p hp
    rw [List.mem_insertionSort] at hp
    rw [mapM_eq_pure (m := Option) (g := rowLine now asked pluginBranch)]
    · rfl
    · intro a ha
      rw [List.mem_insertionSort] at ha
      exact fmtAgentJs_eq now asked (hbranch a (mem_of_membersOf hp ha))

theorem fmtRosterJs_some {text : PyStr}
    (h : fmtRosterJs collate now agent rows hidden (statusText asked) = some text) :
    (∀ a ∈ rows, a.project ∉ objectMembers) ∧ ∀ a ∈ rows, a.Convertible := by
  unfold fmtRosterJs at h
  dsimp only at h
  obtain ⟨m, hm, h⟩ := Option.bind_eq_some_iff.1 h
  have hproject := groupJs_some (by rintro p ⟨⟩) hm
  obtain rfl : _ = m := Option.some.inj ((groupJs_eq hproject []).symm.trans hm)
  refine ⟨hproject, fun a ha => ?_⟩
  obtain ⟨blocks, hblocks, -⟩ := Option.bind_eq_some_iff.1 h
  have hkey := ((isGrouping_pushed rows).keys a.project).2 ⟨a, ha, rfl⟩
  have hblock := mapM_some hblocks a.project ((List.mem_insertionSort _).2 hkey)
  obtain ⟨block, hblock⟩ := Option.ne_none_iff_exists'.1 hblock
  obtain ⟨lines, hlines, -⟩ := Option.bind_eq_some_iff.1 hblock
  refine convertible_of_fmtAgentJs now (mapM_some hlines a ((List.mem_insertionSort _).2 ?_))
  exact ((isGrouping_pushed rows).membersOf_perm hkey).mem_iff.2 (List.mem_filter.2 ⟨ha, by simp⟩)

end

/-! ## Lines -/

section
variable {now : Int} {asked : Option Status} {agent : PyStr} {rows : List Row} {hidden : List (PyStr × Nat)}

theorem oneLine_strNat (n : Nat) : OneLine (PyStr.strNat n) := oneLine_printable (PyStr.printable_strNat n)

theorem oneLine_age (now ts : Int) : OneLine (age now ts) := by
  have hint : ∀ n : Int, OneLine (PyStr.strInt n) := fun n => oneLine_printable (PyStr.printable_strInt n)
  unfold age
  dsimp only
  split
  · exact oneLine_append.2 ⟨hint _, by decide⟩
  · split
    · exact oneLine_append.2 ⟨hint _, by decide⟩
    · split
      · exact oneLine_append.2 ⟨hint _, by decide⟩
      · exact oneLine_append.2 ⟨hint _, by decide⟩

theorem oneLine_headLine : OneLine (headLine agent rows asked) ↔ OneLine agent := by
  have hlabel : OneLine (if statusText asked = lit "all" then lit "visible" else statusText asked) := by
    cases asked with
    | none => decide
    | some st => cases st <;> decide
  have hyou : OneLine (lit "You are \"") := by decide
  have hno : OneLine (lit "\". No ") := by decide
  have hvisible : OneLine (lit " agents visible.") := by decide
  have hdot : OneLine (lit "\". ") := by decide
  have hspace : OneLine (lit " ") := by decide
  have hagents : OneLine (lit " agent(s):") := by decide
  unfold headLine
  dsimp only
  split
  · rw [oneLine_append, oneLine_append, oneLine_append, oneLine_append, and_iff_left hvisible,
      and_iff_left hlabel, and_iff_left hno, and_iff_right hyou]
  · rw [oneLine_append, oneLine_append, oneLine_append, oneLine_append, oneLine_append, oneLine_append,
      and_iff_left hagents, and_iff_left hlabel, and_iff_left hspace, and_iff_left (oneLine_strNat _),
      and_iff_left hdot, and_iff_right hyou]

theorem oneLine_rowLine {branch : Row → PyStr} {a : Row} :
    OneLine (rowLine now asked branch a) ↔ OneLine a.addr ∧ OneLine (branch a) := by
  have hdash : OneLine (lit "- ") := by decide
  have hstatus : OneLine (if statusText asked = lit "all" then lit " — " ++ a.status.text else []) := by
    split
    · cases a.status <;> decide
    · decide
  have hage : OneLine (if a.status = .offline ∧ a.lastConnect ≠ 0 then
      lit " (last connect " ++ age now a.lastConnect ++ lit " ago)" else []) := by
    split
    · exact oneLine_append.2 ⟨oneLine_append.2 ⟨by decide, oneLine_age _ _⟩, by decide⟩
    · decide
  unfold rowLine
  rw [oneLine_append, oneLine_append, oneLine_append, oneLine_append, and_iff_left hage, and_iff_left hstatus,
    and_iff_right hdash]

theorem oneLine_footLine {counts : List (PyStr × Nat)} {tail : PyStr} (htail : OneLine tail) :
    (∀ line ∈ footLine asked counts tail, OneLine line) ↔ ∀ e ∈ counts, OneLine e.1 := by
  have hcount : ∀ e : PyStr × Nat, OneLine (shownCount e) ↔ OneLine e.1 := by
    intro e
    have htimes : OneLine (lit " ×") := by decide
    rw [shownCount, oneLine_append, oneLine_append, and_iff_left (oneLine_strNat _), and_iff_left htimes]
  have htitle : OneLine ((if statusText asked = lit "online" then lit "Offline" else lit "Online") ++ lit ": ") := by
    split
    · decide
    · decide
  have hdot : OneLine (lit " · ") := by decide
  unfold footLine
  by_cases hnil : counts = []
  · rw [if_pos hnil, hnil]
    exact iff_of_true (List.forall_mem_nil _) (List.forall_mem_nil _)
  · rw [if_neg hnil, List.forall_mem_singleton, oneLine_append, oneLine_append, and_iff_left htail,
      and_iff_right htitle, oneLine_intercalate hdot, List.forall_mem_map]
    exact forall₂_congr fun e _ => hcount e

/-- Which texts can break a line. -/
theorem items_line_iff {branch : Row → PyStr} {groups : List (PyStr × List Row)}
    (hgrouping : IsGrouping Row.project rows groups) {counts : List (PyStr × Nat)}
    (hcounts : counts.Perm hidden) {tail : PyStr} (htail : OneLine tail) :
    (∀ item ∈ rosterItems (headLine agent rows asked) (rowLine now asked branch) groups
      (footLine asked counts tail), OneLine item) ↔
    OneLine agent ∧ (∀ a ∈ rows, OneLine a.project ∧ OneLine a.addr ∧ OneLine (branch a)) ∧
      ∀ e ∈ hidden, OneLine e.1 := by
  have hcolon : OneLine (lit ":") := by decide
  have hhidden : (∀ e ∈ counts, OneLine e.1) ↔ ∀ e ∈ hidden, OneLine e.1 :=
    forall_congr' fun e => by rw [hcounts.mem_iff]
  have hblocks : (∀ item ∈ (groups.map fun g => (g.1 ++ lit ":") :: g.2.map (rowLine now asked branch)).flatten,
      OneLine item) ↔ ∀ a ∈ rows, OneLine a.project ∧ OneLine a.addr ∧ OneLine (branch a) := by
    constructor
    · intro h a ha
      obtain ⟨g, hg, hproject, hmem⟩ := hgrouping.mem_iff.2 ⟨ha, rfl⟩
      have hblock : ∀ item ∈ (g.1 ++ lit ":") :: g.2.map (rowLine now asked branch), OneLine item :=
        fun item hitem => h item (List.mem_flatten.2 ⟨_, List.mem_map_of_mem hg, hitem⟩)
      have hline := hblock _ (List.mem_cons_of_mem _ (List.mem_map_of_mem hmem))
      rw [← hproject]
      exact ⟨(oneLine_append.1 (hblock _ List.mem_cons_self)).1, oneLine_rowLine.1 hline⟩
    · intro h item hitem
      obtain ⟨block, hblock, hitem⟩ := List.mem_flatten.1 hitem
      obtain ⟨g, hg, rfl⟩ := List.mem_map.1 hblock
      rcases List.mem_cons.1 hitem with rfl | hitem
      · obtain ⟨a, ha, hproject⟩ := (hgrouping.keys g.1).1 (List.mem_map_of_mem hg)
        rw [← hproject]
        exact oneLine_append.2 ⟨(h a ha).1, hcolon⟩
      · obtain ⟨a, ha, rfl⟩ := List.mem_map.1 hitem
        exact oneLine_rowLine.2 (h a (hgrouping.mem_iff.1 ⟨g, hg, rfl, ha⟩).1).2
  unfold rosterItems
  rw [List.cons_append, List.forall_mem_cons, oneLine_headLine, List.forall_mem_append, hblocks,
    oneLine_footLine htail, hhidden]

end

/-! ## Both rosters -/

theorem isGrouping_shimGroups (rows : List Row) : IsGrouping Row.project rows (shimGroups rows) := by
  refine isGrouping_ofKeys ?_ ?_ fun p _ => List.perm_insertionSort _ _
  · exact (List.perm_insertionSort _ _).nodup_iff.2 (List.nodup_dedup _)
  · intro p
    rw [List.mem_insertionSort, List.mem_dedup, List.mem_map]

theorem isGrouping_pluginGroups (collate : PyStr → PyStr → Bool) (rows : List Row) :
    IsGrouping Row.project rows (pluginGroups collate rows) := by
  have hpushed := isGrouping_pushed rows
  refine isGrouping_ofKeys ?_ ?_ fun p hp => ?_
  · exact (List.perm_insertionSort _ _).nodup_iff.2 hpushed.distinct
  · intro p
    rw [List.mem_insertionSort, hpushed.keys]
  · rw [List.mem_insertionSort] at hp
    exact (List.perm_insertionSort _ _).trans (hpushed.membersOf_perm hp)

theorem foot_footLine (asked : Option Status) {hidden counts : List (PyStr × Nat)} (h : counts.Perm hidden)
    (tail : PyStr) : Foot tail hidden (footLine asked counts tail) := by
  unfold footLine
  by_cases hnil : counts = []
  · subst hnil
    exact .inl ⟨List.nil_perm.1 h, if_pos rfl⟩
  · refine .inr ⟨?_, _, counts, ?_, h, if_neg hnil⟩
    · rintro rfl
      exact hnil (List.perm_nil.1 h)
    · split
      · exact .inl rfl
      · exact .inr rfl

theorem pluginHidden_perm (collate : PyStr → PyStr → Bool) (hidden : List (PyStr × Nat)) :
    (pluginHidden collate hidden).Perm hidden := by
  refine (List.perm_insertionSort _ _).trans ?_
  exact ((List.perm_insertionSort _ _).append_right _).trans (List.filter_append_perm _ _)

theorem prefix_rowLine (now : Int) (asked : Option Status) (branch : Row → PyStr) (a : Row) :
    lit "- " ++ a.addr <+: rowLine now asked branch a := by
  unfold rowLine
  rw [List.append_assoc, List.append_assoc]
  exact List.prefix_append _ _

/-- The same addresses under the same headings, whatever the order. -/
theorem IsGrouping.addr_iff {rows : List Row} {groups : List (PyStr × List Row)}
    (h : IsGrouping Row.project rows groups) (project addr : PyStr) :
    (∃ g ∈ groups, g.1 = project ∧ ∃ a ∈ g.2, a.addr = addr) ↔
      ∃ a ∈ rows, a.project = project ∧ a.addr = addr := by
  constructor
  · rintro ⟨g, hg, hproject, a, ha, haddr⟩
    obtain ⟨hrow, hproject⟩ := h.mem_iff.1 ⟨g, hg, hproject, ha⟩
    exact ⟨a, hrow, hproject, haddr⟩
  · rintro ⟨a, ha, hproject, haddr⟩
    obtain ⟨g, hg, hproject, hmem⟩ := h.mem_iff.2 ⟨ha, hproject⟩
    exact ⟨g, hg, hproject, a, hmem, haddr⟩

/-- The row is shown by both, on a line of its own. -/
structure Row.Plain (a : Row) : Prop where
  inherited : a.project ∉ objectMembers
  project : OneLine a.project
  addr : OneLine a.addr
  branch : a.branch.jsPlain = true

section
variable [JsNumbers]

theorem pluginBranch_line {a : Row} (h : a.Convertible) : OneLine (pluginBranch a) ↔ a.branch.jsPlain = true := by
  unfold pluginBranch
  by_cases htruthy : a.branch.jsTruthy = true
  · obtain ⟨t, ht⟩ := Option.ne_none_iff_exists'.1 (h htruthy)
    have hat : OneLine (lit " @") := by decide
    rw [if_pos htruthy, Json.jsPlain_iff, ht, Option.getD_some, oneLine_append, and_iff_right hat]
    exact ⟨fun h => ⟨t, rfl, h⟩, by rintro ⟨_, ⟨⟩, h⟩; exact h⟩
  · rw [if_neg htruthy]
    exact iff_of_true (by rintro ⟨⟩) (Json.jsPlain_of_falsy (Bool.eq_false_of_not_eq_true htruthy))

theorem convertible_of_plain {a : Row} (h : a.branch.jsPlain = true) : a.Convertible := by
  obtain ⟨t, ht, -⟩ := (Json.jsPlain_iff _).1 h
  intro _ hnone
  rw [ht] at hnone
  cases hnone

omit [JsNumbers] in
theorem shimBranch_line [Python] {a : Row} (h : a.branch.jsPlain = true) : OneLine (shimBranch a) := by
  unfold shimBranch
  split
  · exact oneLine_append.2 ⟨by decide, Json.text_line_of_jsPlain h⟩
  · rintro ⟨⟩

variable [Python] {agent agent' : PyStr} {rows : List Row}

/-- **When both rosters list their rows.**  Iff no project is named like an inherited property, no
branch is, or is a list with, an object that has a `toString`, and no line break is in a name or
in a string of a branch. -/
theorem rosters_list_alike_iff (collate : PyStr → PyStr → Bool) (now now' : Int) (asked : Option Status)
    (hidden : List (PyStr × Nat)) (hmeta : ∀ a ∈ rows, ∃ kvs, a.metadata = .obj kvs) :
    ListAlike rows hidden (fmtRoster now agent rows hidden (statusText asked))
        (fmtRosterJs collate now' agent' rows hidden (statusText asked)) ↔
      (∀ a ∈ rows, a.Plain) ∧ (∀ e ∈ hidden, OneLine e.1) ∧ OneLine agent ∧ OneLine agent' := by
  have hshimTail : OneLine shimTail := by decide
  have hpluginTail : OneLine pluginTail := by decide
  have hshimItems := @items_line_iff now asked agent rows hidden shimBranch _ (isGrouping_shimGroups rows) _
    (List.perm_insertionSort moreHidden hidden) _ hshimTail
  have hpluginItems := @items_line_iff now' asked agent' rows hidden pluginBranch _
    (isGrouping_pluginGroups collate rows) _ (pluginHidden_perm collate hidden) _ hpluginTail
  have hpluginListing := listing_iff (prefix_rowLine now' asked pluginBranch) (isGrouping_pluginGroups collate rows)
    (foot_footLine asked (pluginHidden_perm collate hidden) pluginTail) (headLine agent' rows asked)
  have hshimListing := listing_iff (prefix_rowLine now asked shimBranch) (isGrouping_shimGroups rows)
    (foot_footLine asked (List.perm_insertionSort moreHidden hidden) shimTail) (headLine agent rows asked)
  rw [fmtRoster_eq now asked agent rows hidden hmeta]
  constructor
  · rintro ⟨text, text', groups, groups', hshim, hplugin, hlisting, hlisting', -, -⟩
    obtain ⟨hproject, hbranch⟩ := fmtRosterJs_some _ _ _ _ _ _ hplugin
    rw [fmtRosterJs_eq _ _ _ _ _ _ hproject hbranch] at hplugin
    obtain rfl := Except.ok.inj hshim
    obtain rfl := Option.some.inj hplugin
    obtain ⟨hown, -, -⟩ := hshimItems.1 (hshimListing.1.1 ⟨groups, hlisting⟩)
    obtain ⟨hown', hrows, hhidden⟩ := hpluginItems.1 (hpluginListing.1.1 ⟨groups', hlisting'⟩)
    refine ⟨fun a ha => ?_, hhidden, hown, hown'⟩
    obtain ⟨hline, haddr, hb⟩ := hrows a ha
    exact ⟨hproject a ha, hline, haddr, (pluginBranch_line (hbranch a ha)).1 hb⟩
  · rintro ⟨hrows, hhidden, hown, hown'⟩
    have hbranch : ∀ a ∈ rows, a.Convertible := fun a ha => convertible_of_plain (hrows a ha).branch
    rw [fmtRosterJs_eq _ _ _ _ _ _ (fun a ha => (hrows a ha).inherited) hbranch]
    refine ⟨_, _, _, _, rfl, rfl, hshimListing.2 (hshimItems.2 ⟨hown, fun a ha => ?_, hhidden⟩),
      hpluginListing.2 (hpluginItems.2 ⟨hown', fun a ha => ?_, hhidden⟩), ?_, ?_⟩
    · exact ⟨(hrows a ha).project, (hrows a ha).addr, shimBranch_line (hrows a ha).branch⟩
    · exact ⟨(hrows a ha).project, (hrows a ha).addr, (pluginBranch_line (hbranch a ha)).2 (hrows a ha).branch⟩
    · exact (isGrouping_shimGroups rows).keys_perm.trans (isGrouping_pluginGroups collate rows).keys_perm.symm
    · intro project addr
      rw [IsGrouping.addr_iff (isGrouping_shimGroups rows),
        IsGrouping.addr_iff (isGrouping_pluginGroups collate rows)]

end

/-! ## A project named like an inherited property -/

/-- Numbers as they are in JSON. -/
@[reducible] def JsNumbers.plain : JsNumbers where
  int := PyStr.strInt
  float x := x.text
  int_line n := oneLine_printable (PyStr.printable_strInt n)
  float_line := PyFloat.text_line

def ownAgent : PyStr := lit "box/claude/web/s1"

def ctorAddr : Address := ⟨lit "bob", lit "desk", lit "claude", lit "constructor", lit "s2"⟩

def ctorRow : Row := Row.of ctorAddr.text (.of ctorAddr [lit "team"] (.obj []) 5) true

/-- The address is accepted, and the plugin shows no roster with it. -/
theorem constructor_unlisted :
    let _ : Python := Python.plain
    let _ : JsNumbers := JsNumbers.plain
    parseAgentHeader (lit "bob") (lit "desk/claude/constructor/s2") = .ok ctorAddr ∧
    ¬ ListAlike [ctorRow] [] (fmtRoster 60 ownAgent [ctorRow] [] (lit "online"))
      (fmtRosterJs (fun x y => x ≤ y) 60 ownAgent [ctorRow] [] (lit "online")) := by
  intro _ _
  refine ⟨rfl, ?_⟩
  rintro ⟨-, text', -, -, -, hplugin, -⟩
  cases hplugin

def docsAddr : Address := ⟨lit "bob", lit "desk", lit "claude", lit "docs", lit "s2"⟩

def docsRow : Row := Row.of docsAddr.text (.of docsAddr [lit "team"] (.obj []) 5) true

theorem rosters_list_alike_iff_docs :
    let _ : Python := Python.plain
    let _ : JsNumbers := JsNumbers.plain
    ListAlike [docsRow] [(lit "web", 2)] (fmtRoster 60 ownAgent [docsRow] [(lit "web", 2)] (statusText (some .online)))
        (fmtRosterJs (fun x y => x ≤ y) 60 ownAgent [docsRow] [(lit "web", 2)] (statusText (some .online))) ↔
      (∀ a ∈ [docsRow], a.Plain) ∧ (∀ e ∈ [(lit "web", 2)], OneLine e.1) ∧ OneLine ownAgent ∧ OneLine ownAgent := by
  intro _ _
  refine rosters_list_alike_iff _ 60 60 (some .online) _ fun a ha => ?_
  rw [List.mem_singleton.1 ha]
  exact ⟨_, rfl⟩

end Muster
