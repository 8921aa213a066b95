import Muster.Naming

/-!
# When two texts make the same segment

A segment forgets what stood between the words of the text: a run of characters that are not
printable, a slash and a `-` all come out as `-`.  Texts that differ in nothing else are
`Alike`, and these are the ones that are made the same (`alike_iff`).

A text that two shims trim differently makes the same segment of both iff its ends are no
business of either (`sanitize_self_iff`).
-/

namespace Muster

/-- A character that comes out as itself and as nothing else does. -/
def isWord (c : CodePoint) : Bool := isGraph c && !(c == dash) && !(c == PyStr.slash)

/-- A `-`, a slash, or a whole run of what is not printable, with `s` behind it. -/
inductive IsMark : PyStr → PyStr → Prop
  | dash (s : PyStr) : IsMark [dash] s
  | slash (s : PyStr) : IsMark [PyStr.slash] s
  | run {m s : PyStr} (ne_nil : m ≠ []) (hidden : ∀ c ∈ m, isGraph c = false)
      (whole : ∀ c ∈ s.head?, isGraph c = true) : IsMark m s

/-- The same words with marks between them. -/
inductive Alike : PyStr → PyStr → Prop
  | nil : Alike [] []
  | word {c : CodePoint} {s t : PyStr} (hc : isWord c = true) (h : Alike s t) : Alike (c :: s) (c :: t)
  | mark {m n s t : PyStr} (hm : IsMark m s) (hn : IsMark n t) (h : Alike s t) : Alike (m ++ s) (n ++ t)

theorem isWord_iff {c : CodePoint} :
    isWord c = true ↔ isGraph c = true ∧ c ≠ dash ∧ c ≠ PyStr.slash := by
  simp [isWord, and_assoc]

theorem isGraph_slash : isGraph PyStr.slash = true := by decide

/-! ## What `dashes` makes of words and marks -/

theorem dashes_cons_graph {c : CodePoint} (h : isGraph c = true) (b : Bool) (s : PyStr) :
    dashes b (c :: s) = (if c = PyStr.slash then dash else c) :: dashes false s := by
  by_cases hslash : c = PyStr.slash
  · rw [dashes, if_pos hslash, if_pos hslash]
  · rw [dashes, if_neg hslash, if_neg hslash, if_pos h]

theorem dashes_word {c : CodePoint} (h : isWord c = true) (s : PyStr) :
    dashes false (c :: s) = c :: dashes false s := by
  obtain ⟨hgraph, -, hslash⟩ := isWord_iff.1 h
  rw [dashes_cons_graph hgraph, if_neg hslash]

theorem dashes_hidden {m : PyStr} (hidden : ∀ c ∈ m, isGraph c = false) (s : PyStr) :
    dashes true (m ++ s) = dashes true s := by
  induction m with
  | nil => rfl
  | cons c m ih =>
    obtain ⟨hc, hm⟩ := List.forall_mem_cons.1 hidden
    have hslash : c ≠ PyStr.slash := by
      rintro rfl
      rw [isGraph_slash] at hc
      cases hc
    rw [List.cons_append, dashes, if_neg hslash, if_neg (by simp [hc]), if_pos rfl, ih hm]

theorem dashes_whole {s : PyStr} (whole : ∀ c ∈ s.head?, isGraph c = true) (b : Bool) :
    dashes b s = dashes false s := by
  cases s with
  | nil => rfl
  | cons c s =>
    have hc : isGraph c = true := whole c rfl
    rw [dashes_cons_graph hc, dashes_cons_graph hc]

theorem dashes_run {m : PyStr} (ne_nil : m ≠ []) (hidden : ∀ c ∈ m, isGraph c = false) (s : PyStr) :
    dashes false (m ++ s) = dash :: dashes true s := by
  cases m with
  | nil => exact absurd rfl ne_nil
  | cons c m =>
    obtain ⟨hc, hm⟩ := List.forall_mem_cons.1 hidden
    have hslash : c ≠ PyStr.slash := by
      rintro rfl
      rw [isGraph_slash] at hc
      cases hc
    rw [List.cons_append, dashes, if_neg hslash, if_neg (by simp [hc]), if_neg (by simp),
      dashes_hidden hm]

theorem dashes_mark {m s : PyStr} (h : IsMark m s) : dashes false (m ++ s) = dash :: dashes false s := by
  cases h with
  | dash =>
    rw [List.singleton_append, dashes_cons_graph isGraph_dash, if_neg (by decide)]
  | slash =>
    rw [List.singleton_append, dashes_cons_graph isGraph_slash, if_pos rfl]
  | run ne_nil hidden whole => rw [dashes_run ne_nil hidden, dashes_whole whole]

/-- Every text starts with a word or a mark. -/
theorem front_cases (s : PyStr) :
    s = [] ∨ (∃ c t, isWord c = true ∧ s = c :: t) ∨
      ∃ m t, IsMark m t ∧ t.length < s.length ∧ s = m ++ t := by
  cases s with
  | nil => exact .inl rfl
  | cons c s =>
    by_cases hc : isGraph c = true
    · by_cases hdash : c = dash
      · exact .inr (.inr ⟨[dash], s, .dash s, Nat.lt_succ_self _, by rw [hdash]; rfl⟩)
      · by_cases hslash : c = PyStr.slash
        · exact .inr (.inr ⟨[PyStr.slash], s, .slash s, Nat.lt_succ_self _, by rw [hslash]; rfl⟩)
        · exact .inr (.inl ⟨c, s, isWord_iff.2 ⟨hc, hdash, hslash⟩, rfl⟩)
    · have hhidden : (!isGraph c) = true := by simpa using hc
      refine .inr (.inr ⟨c :: s.takeWhile (!isGraph ·), s.dropWhile (!isGraph ·), .run ?_ ?_ ?_, ?_, ?_⟩)
      · exact List.cons_ne_nil _ _
      · refine List.forall_mem_cons.2 ⟨by simpa using hc, fun d hd => ?_⟩
        simpa using List.mem_takeWhile_imp hd
      · intro d hd
        have := List.head?_dropWhile_not (!isGraph ·) s
        rw [Option.mem_def.1 hd] at this
        simpa using this
      · exact Nat.lt_succ_of_le (List.length_dropWhile_le _ _)
      · rw [List.cons_append, List.takeWhile_append_dropWhile]

/-- **Alike is what is made the same.** -/
theorem alike_iff (s t : PyStr) : Alike s t ↔ dashes false s = dashes false t := by
  constructor
  · intro h
    induction h with
    | nil => rfl
    | word hc h ih => rw [dashes_word hc, dashes_word hc, ih]
    | mark hm hn h ih => rw [dashes_mark hm, dashes_mark hn, ih]
  · induction hlen : s.length using Nat.strong_induction_on generalizing s t with
    | _ n ih =>
      intro h
      rcases front_cases s with rfl | ⟨c, s', hc, rfl⟩ | ⟨m, s', hm, hshort, rfl⟩
      · rcases front_cases t with rfl | ⟨d, t', hd, rfl⟩ | ⟨n, t', hn, -, rfl⟩
        · exact .nil
        · rw [dashes_word hd] at h
          cases h
        · rw [dashes_mark hn] at h
          cases h
      · rw [dashes_word hc] at h
        rcases front_cases t with rfl | ⟨d, t', hd, rfl⟩ | ⟨n, t', hn, -, rfl⟩
        · cases h
        · rw [dashes_word hd] at h
          obtain ⟨rfl, hrest⟩ := List.cons.inj h
          exact .word hc (ih _ (by rw [← hlen]; exact Nat.lt_succ_self _) s' t' rfl hrest)
        · rw [dashes_mark hn] at h
          exact absurd (List.cons.inj h).1 (isWord_iff.1 hc).2.1
      · rw [dashes_mark hm] at h
        rcases front_cases t with rfl | ⟨d, t', hd, rfl⟩ | ⟨n, t', hn, -, rfl⟩
        · cases h
        · rw [dashes_word hd] at h
          exact absurd (List.cons.inj h).1.symm (isWord_iff.1 hd).2.1
        · rw [dashes_mark hn] at h
          exact .mark hm hn (ih _ (by rw [← hlen]; exact hshort) s' t' rfl (List.cons.inj h).2)

/-- Marks have no words in them. -/
theorem IsMark.word_not_mem {m s : PyStr} (h : IsMark m s) {c : CodePoint} (hc : isWord c = true) : c ∉ m := by
  obtain ⟨hgraph, hdash, hslash⟩ := isWord_iff.1 hc
  cases h with
  | dash => exact fun hmem => hdash (List.mem_singleton.1 hmem)
  | slash => exact fun hmem => hslash (List.mem_singleton.1 hmem)
  | run _ hidden _ =>
    intro hmem
    rw [hidden c hmem] at hgraph
    cases hgraph

theorem Alike.word_mem_iff {s t : PyStr} (h : Alike s t) {c : CodePoint} (hc : isWord c = true) :
    c ∈ s ↔ c ∈ t := by
  induction h with
  | nil => exact Iff.rfl
  | word _ _ ih => rw [List.mem_cons, List.mem_cons, ih]
  | mark hm hn _ ih =>
    rw [List.mem_append, List.mem_append, or_iff_right (hm.word_not_mem hc), or_iff_right (hn.word_not_mem hc), ih]

/-! ## Segments of differently trimmed texts -/

/-- Nothing becomes a `-` as well. -/
def orDash (t : PyStr) : PyStr := if t = [] then [dash] else t

theorem dashes_ne_nil {s : PyStr} (h : s ≠ []) : dashes false s ≠ [] := by
  rcases front_cases s with rfl | ⟨c, s', hc, rfl⟩ | ⟨m, s', hm, -, rfl⟩
  · exact absurd rfl h
  · rw [dashes_word hc]
    exact List.cons_ne_nil _ _
  · rw [dashes_mark hm]
    exact List.cons_ne_nil _ _

theorem sanitize_eq (p : CodePoint → Bool) (s : PyStr) : sanitize p s = dashes false (orDash (trimBy p s)) := by
  unfold sanitize orDash
  dsimp only
  by_cases h : trimBy p s = []
  · rw [h]
    rfl
  · rw [if_neg (dashes_ne_nil h), if_neg h]

theorem sanitize_eq_iff (p q : CodePoint → Bool) (s t : PyStr) :
    sanitize p s = sanitize q t ↔ Alike (orDash (trimBy p s)) (orDash (trimBy q t)) := by
  rw [sanitize_eq, sanitize_eq, alike_iff]

theorem mem_trimBy {p : CodePoint → Bool} {s : PyStr} {c : CodePoint} (hp : p c = false) :
    c ∈ trimBy p s ↔ c ∈ s := by
  have hdrop : ∀ t : PyStr, c ∈ t.dropWhile p ↔ c ∈ t := by
    intro t
    refine ⟨fun h => (List.dropWhile_sublist p).subset h, fun h => ?_⟩
    rw [← List.takeWhile_append_dropWhile (p := p) (l := t), List.mem_append] at h
    refine h.resolve_left fun hmem => ?_
    have := List.mem_takeWhile_imp hmem
    rw [hp] at this
    cases this
  rw [trimBy, List.mem_reverse, hdrop, List.mem_reverse, hdrop]

theorem mem_orDash {t : PyStr} {c : CodePoint} (hc : isWord c = true) : c ∈ orDash t ↔ c ∈ t := by
  unfold orDash
  split
  · next hnil =>
    rw [hnil]
    exact iff_of_false (fun h => (isWord_iff.1 hc).2.1 (List.mem_singleton.1 h)) (by simp)
  · exact Iff.rfl

/-! ## The segments of one text -/

/-- Blanks are taken off and these are not blanks alone, so that a `-` is left of them. -/
def leaves (p : CodePoint → Bool) (m : PyStr) : Bool := m.any (!p ·)

/-- What is not printable before and behind the rest. -/
def hiddenFront (s : PyStr) : PyStr := s.takeWhile (!isGraph ·)

def hiddenBack (s : PyStr) : PyStr := (s.reverse.takeWhile (!isGraph ·)).reverse

/-- Either end leaves a `-` of both or of neither, or nothing is printable at all; or there are
marks only, and as many of both. -/
def EndsAlike (p q : CodePoint → Bool) (s : PyStr) : Prop :=
  (∀ c ∈ s, isGraph c = false) ∨
  (leaves p (hiddenFront s) = leaves q (hiddenFront s) ∧
    leaves p (hiddenBack s) = leaves q (hiddenBack s)) ∨
  ((∀ c ∈ s, isWord c = false) ∧ leaves p (hiddenFront s) = leaves q (hiddenBack s) ∧
    leaves p (hiddenBack s) = leaves q (hiddenFront s))

/-- The rest, from the first printable character to the last. -/
structure IsCore (s : PyStr) : Prop where
  ne_nil : s ≠ []
  head : ∀ c ∈ s.head?, isGraph c = true
  last : ∀ c ∈ s.getLast?, isGraph c = true

theorem hidden_of_takeWhile {s : PyStr} : ∀ c ∈ s.takeWhile (!isGraph ·), isGraph c = false := by
  intro c hc
  simpa using List.mem_takeWhile_imp hc

theorem graph_of_dropWhile {s : PyStr} : ∀ c ∈ (s.dropWhile (!isGraph ·)).head?, isGraph c = true := by
  intro c hc
  have := List.head?_dropWhile_not (!isGraph ·) s
  rw [Option.mem_def.1 hc] at this
  simpa using this

theorem exists_core {s : PyStr} (h : ¬ ∀ c ∈ s, isGraph c = false) :
    ∃ core, IsCore core ∧ s = hiddenFront s ++ core ++ hiddenBack s := by
  have hsplit : hiddenFront s ++ s.dropWhile (!isGraph ·) = s := List.takeWhile_append_dropWhile
  have hhead := graph_of_dropWhile (s := s)
  have hne : s.dropWhile (!isGraph ·) ≠ [] := by
    intro hnil
    apply h
    intro c hc
    simpa using List.dropWhile_eq_nil_iff.1 hnil c hc
  generalize s.dropWhile (!isGraph ·) = rest at hsplit hhead hne
  have hgraph : ∃ c ∈ rest.reverse, isGraph c = true := by
    obtain ⟨c, r, rfl⟩ := List.exists_cons_of_ne_nil hne
    exact ⟨c, List.mem_reverse.2 List.mem_cons_self, hhead c rfl⟩
  have hrest : (rest.reverse.dropWhile (!isGraph ·)).reverse ++ (rest.reverse.takeWhile (!isGraph ·)).reverse = rest := by
    rw [← List.reverse_append, List.takeWhile_append_dropWhile, List.reverse_reverse]
  have hcore : rest.reverse.dropWhile (!isGraph ·) ≠ [] := by
    intro hnil
    obtain ⟨c, hc, hcgraph⟩ := hgraph
    have := List.dropWhile_eq_nil_iff.1 hnil c hc
    rw [hcgraph] at this
    cases this
  have hback : hiddenBack s = (rest.reverse.takeWhile (!isGraph ·)).reverse := by
    unfold hiddenBack
    rw [← hsplit, List.reverse_append, List.takeWhile_append, if_neg]
    intro hlen
    have hall := (List.takeWhile_prefix (l := rest.reverse) (!isGraph ·)).eq_of_length hlen
    obtain ⟨c, hc, hcgraph⟩ := hgraph
    rw [← hall] at hc
    rw [hidden_of_takeWhile c hc] at hcgraph
    cases hcgraph
  refine ⟨(rest.reverse.dropWhile (!isGraph ·)).reverse, ⟨?_, ?_, ?_⟩, ?_⟩
  · exact fun hnil => hcore (List.reverse_eq_nil_iff.1 hnil)
  · intro c hc
    apply hhead
    rw [← hrest, List.head?_append_of_ne_nil _ fun hnil => hcore (List.reverse_eq_nil_iff.1 hnil)]
    exact hc
  · rw [List.getLast?_reverse]
    exact graph_of_dropWhile
  · rw [hback, List.append_assoc, hrest, hsplit]

theorem dropWhile_append_cons {p : CodePoint → Bool} {c : CodePoint} (hc : p c = false) (u v : PyStr) :
    (u ++ c :: v).dropWhile p = u.dropWhile p ++ c :: v := by
  rw [List.dropWhile_append]
  split
  · next hempty =>
    rw [List.isEmpty_iff.1 hempty, List.dropWhile_cons_of_neg (by simp [hc]), List.nil_append]
  · rfl

theorem trimBy_core {p : CodePoint → Bool} (hp : ∀ c, isGraph c = true → p c = false)
    {m core n : PyStr} (hcore : IsCore core) :
    trimBy p (m ++ core ++ n) = m.dropWhile p ++ core ++ (n.reverse.dropWhile p).reverse := by
  have hdrop : ∀ u v w : PyStr, v ≠ [] → (∀ c ∈ v.head?, isGraph c = true) →
      (u ++ (v ++ w)).dropWhile p = u.dropWhile p ++ (v ++ w) := by
    intro u v w hv hhead
    obtain ⟨c, v, rfl⟩ := List.exists_cons_of_ne_nil hv
    exact dropWhile_append_cons (hp c (hhead c rfl)) u (v ++ w)
  unfold trimBy
  rw [List.append_assoc, hdrop m core n hcore.ne_nil hcore.head, List.reverse_append, List.reverse_append,
    List.append_assoc, hdrop _ _ _ (by simp [hcore.ne_nil])]
  · simp
  · intro c hc
    rw [List.head?_reverse] at hc
    exact hcore.last c hc

theorem dashes_append {u : PyStr} (hne : u ≠ []) (hlast : ∀ c ∈ u.getLast?, isGraph c = true)
    (b : Bool) (v : PyStr) : dashes b (u ++ v) = dashes b u ++ dashes false v := by
  induction u generalizing b with
  | nil => exact absurd rfl hne
  | cons c u ih =>
    by_cases hu : u = []
    · subst hu
      have hc : isGraph c = true := hlast c rfl
      rw [List.singleton_append, dashes_cons_graph hc, dashes_cons_graph hc]
      rfl
    · have hlast' : ∀ d ∈ u.getLast?, isGraph d = true := by
        intro d hd
        apply hlast d
        rw [List.getLast?_cons, Option.mem_def.1 hd]
        rfl
      rw [List.cons_append, dashes, dashes, ih hu hlast', ih hu hlast']
      split
      · rfl
      · split
        · rfl
        · split
          · rfl
          · rfl

theorem dashes_core {m core n : PyStr} (hm : ∀ c ∈ m, isGraph c = false) (hn : ∀ c ∈ n, isGraph c = false)
    (hcore : IsCore core) :
    dashes false (m ++ core ++ n) =
      (if m = [] then [] else [dash]) ++ dashes false core ++ (if n = [] then [] else [dash]) := by
  have hfront : ∀ v : PyStr, dashes false (m ++ (core ++ v)) =
      (if m = [] then [] else [dash]) ++ dashes false (core ++ v) := by
    intro v
    by_cases hm' : m = []
    · rw [hm', if_pos rfl]
      rfl
    · rw [dashes_run hm' hm, if_neg hm', dashes_whole]
      · rfl
      · intro c hc
        rw [List.head?_append_of_ne_nil _ hcore.ne_nil] at hc
        exact hcore.head c hc
  have hback : dashes false n = if n = [] then [] else [dash] := by
    by_cases hn' : n = []
    · rw [hn', if_pos rfl]
      rfl
    · rw [if_neg hn', ← List.append_nil n, dashes_run hn' hn]
      rfl
  rw [List.append_assoc, hfront, dashes_append hcore.ne_nil hcore.last, hback, List.append_assoc]

theorem dropWhile_eq_nil_iff_leaves {p : CodePoint → Bool} {m : PyStr} :
    m.dropWhile p = [] ↔ leaves p m = false := by
  rw [List.dropWhile_eq_nil_iff]
  unfold leaves
  simp

def mark (b : Bool) : PyStr := if b then [dash] else []

/-- The printable part, and a `-` for what is left at either end. -/
theorem sanitize_core {p : CodePoint → Bool} (hp : ∀ c, isGraph c = true → p c = false)
    {m core n : PyStr} (hm : ∀ c ∈ m, isGraph c = false) (hn : ∀ c ∈ n, isGraph c = false)
    (hcore : IsCore core) :
    sanitize p (m ++ core ++ n) = mark (leaves p m) ++ dashes false core ++ mark (leaves p n) := by
  have hmark : ∀ u : PyStr, (if u.dropWhile p = [] then [] else [dash]) = mark (leaves p u) := by
    intro u
    unfold mark
    by_cases hu : leaves p u = true
    · rw [if_pos hu, if_neg]
      rw [dropWhile_eq_nil_iff_leaves, hu]
      rintro ⟨⟩
    · rw [if_neg hu, if_pos (dropWhile_eq_nil_iff_leaves.2 (by simpa using hu))]
  have hback : (if (n.reverse.dropWhile p).reverse = [] then [] else [dash]) = mark (leaves p n) := by
    have hleaves : leaves p n.reverse = leaves p n := by
      unfold leaves
      rw [List.any_reverse]
    rw [← hleaves, ← hmark]
    simp only [List.reverse_eq_nil_iff]
  have hne : mark (leaves p m) ++ dashes false core ++ mark (leaves p n) ≠ [] := by
    simp [dashes_ne_nil hcore.ne_nil]
  unfold sanitize
  rw [trimBy_core hp hcore, dashes_core _ _ hcore, hmark, hback]
  · exact if_neg hne
  · intro c hc
    exact hm c ((List.dropWhile_sublist p).subset hc)
  · intro c hc
    exact hn c (List.mem_reverse.1 ((List.dropWhile_sublist p).subset (List.mem_reverse.1 hc)))

theorem dash_cons_eq_concat_iff {x : PyStr} : dash :: x = x ++ [dash] ↔ ∀ c ∈ x, c = dash := by
  constructor
  · intro h
    induction x with
    | nil => simp
    | cons c x ih =>
      obtain ⟨rfl, hrest⟩ := List.cons.inj h
      exact List.forall_mem_cons.2 ⟨rfl, ih hrest⟩
  · intro h
    rw [List.eq_replicate_of_mem h, ← List.replicate_succ, List.replicate_succ']

/-- Marks at the ends can only be told apart by where they stand. -/
theorem ends_eq_iff {a b a' b' : Bool} {x : PyStr} :
    mark a ++ x ++ mark b = mark a' ++ x ++ mark b' ↔
      (a = a' ∧ b = b') ∨ ((∀ c ∈ x, c = dash) ∧ a = b' ∧ b = a') := by
  have hlong : x ≠ dash :: (x ++ [dash]) := by
    intro h
    have := congrArg List.length h
    rw [List.length_cons, List.length_append] at this
    omega
  cases a <;> cases b <;> cases a' <;> cases b' <;>
    simp [mark, ← dash_cons_eq_concat_iff, eq_comm, hlong]

theorem isWord_of_hidden {c : CodePoint} (h : isGraph c = false) : isWord c = false := by
  simp [isWord, h]

theorem dashes_all_dash_iff (b : Bool) (s : PyStr) :
    (∀ c ∈ dashes b s, c = dash) ↔ ∀ c ∈ s, isWord c = false := by
  induction s generalizing b with
  | nil => exact iff_of_true (by intro c hc; cases hc) (by intro c hc; cases hc)
  | cons c s ih =>
    rw [List.forall_mem_cons]
    by_cases hc : isGraph c = true
    · rw [dashes_cons_graph hc, List.forall_mem_cons, ih]
      refine and_congr_left fun _ => ?_
      by_cases hslash : c = PyStr.slash
      · rw [if_pos hslash]
        exact iff_of_true rfl (by rw [hslash]; decide)
      · rw [if_neg hslash]
        simp [isWord, hc, hslash]
    · have hhidden : isGraph c = false := by simpa using hc
      have hslash : c ≠ PyStr.slash := by
        rintro rfl
        exact hc isGraph_slash
      rw [dashes, if_neg hslash, if_neg hc]
      split
      · rw [ih]
        simp [isWord_of_hidden hhidden]
      · rw [List.forall_mem_cons, ih]
        simp [isWord_of_hidden hhidden]

theorem sanitize_hidden {s : PyStr} (h : ∀ c ∈ s, isGraph c = false) (p : CodePoint → Bool) :
    sanitize p s = [dash] := by
  have hsub : ∀ c ∈ trimBy p s, isGraph c = false := by
    intro c hc
    have hc := (List.dropWhile_sublist p).subset (List.mem_reverse.1 hc)
    exact h c ((List.dropWhile_sublist p).subset (List.mem_reverse.1 hc))
  rw [sanitize_eq, orDash]
  split
  · rfl
  · next hne =>
    rw [← List.append_nil (trimBy p s), dashes_run hne hsub]
    rfl

/-- **When two shims make the same of one text.** -/
theorem sanitize_self_iff {p q : CodePoint → Bool} (hp : ∀ c, isGraph c = true → p c = false)
    (hq : ∀ c, isGraph c = true → q c = false) (s : PyStr) :
    sanitize p s = sanitize q s ↔ EndsAlike p q s := by
  unfold EndsAlike
  by_cases hall : ∀ c ∈ s, isGraph c = false
  · exact iff_of_true ((sanitize_hidden hall p).trans (sanitize_hidden hall q).symm) (.inl hall)
  · obtain ⟨core, hcore, hs⟩ := exists_core hall
    have hfront : ∀ c ∈ hiddenFront s, isGraph c = false := hidden_of_takeWhile
    have hback : ∀ c ∈ hiddenBack s, isGraph c = false :=
      fun c hc => hidden_of_takeWhile c (List.mem_reverse.1 hc)
    have hwords : (∀ c ∈ core, isWord c = false) ↔ ∀ c ∈ s, isWord c = false := by
      refine ⟨fun h c hc => ?_, fun h c hc => h c ?_⟩
      · rw [hs, List.mem_append, List.mem_append] at hc
        rcases hc with (hc | hc) | hc
        · exact isWord_of_hidden (hfront c hc)
        · exact h c hc
        · exact isWord_of_hidden (hback c hc)
      · rw [hs, List.mem_append, List.mem_append]
        exact .inl (.inr hc)
    have hsp := sanitize_core hp hfront hback hcore
    have hsq := sanitize_core hq hfront hback hcore
    rw [← hs] at hsp hsq
    rw [hsp, hsq, ends_eq_iff, dashes_all_dash_iff, hwords, or_iff_right hall]

end Muster
