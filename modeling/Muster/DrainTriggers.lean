import Muster.Drain

/-!
# No trigger is dropped

A call of `drainInbox` that finds a drain in flight leaves word in `again`, and the drain
fetches once more before it ends.  It does so at the end of its loop only: a failed
wake or a failed fetch ends the drain at once.  So every trigger is served exactly as
long as no drain fails after a call has been turned away since its last fetch
(`triggers_served`); `failed_fetch_drops_trigger` is a run where one does.
-/

namespace Muster

/-- Calls turned away and fetches issued. -/
def DrainEvent.marks : DrainEvent → Bool
  | .asked => true
  | .turnedAway => true
  | _ => false

/-- No fetch has been issued since a call was last turned away. -/
def Unserved (hist : List DrainEvent) : Prop :=
  (hist.filter DrainEvent.marks).getLast? = some .turnedAway

/-- The plugin is idle only where every trigger has been served. -/
def Plugin.Served (s : Plugin) : Prop :=
  s.disposed = false → s.relaying = false → ¬ Unserved s.hist

/-- A drain fails only where no call has been turned away since its last fetch. -/
def EndsServed (s : Plugin) (l : PluginStep) : Prop :=
  s.disposed = false → Unserved s.hist →
    l ≠ .answer .failed ∧ l ≠ .answer .malformed ∧ l ≠ .wakeEnd false

theorem not_unserved_asked (hist : List DrainEvent) : ¬ Unserved (hist ++ [.asked]) := by
  unfold Unserved
  rw [List.filter_append]
  simp [DrainEvent.marks]

theorem unserved_append {hist : List DrainEvent} {e : DrainEvent} (he : e.marks = false) :
    Unserved (hist ++ [e]) ↔ Unserved hist := by
  unfold Unserved
  rw [List.filter_append]
  simp [he]

/-- `Served`, with what makes it last: word of a call turned away is kept until the next fetch. -/
structure Plugin.Noted (s : Plugin) : Prop where
  served : s.Served
  noted : s.again = false → ¬ Unserved s.hist

section
variable {s s' : Plugin} {l : PluginStep}

/-- Steps that neither issue a fetch nor turn a call away, with the drain going on. -/
theorem Plugin.Noted.of_hist (h : s.Noted) (hd : s'.disposed = false → s.disposed = false)
    (hr : s'.relaying = s.relaying) (ha : s'.again = s.again)
    (hh : Unserved s'.hist ↔ Unserved s.hist) : s'.Noted where
  served := by
    intro hdis hrel
    rw [hh]
    exact h.served (hd hdis) (hr ▸ hrel)
  noted := by
    rw [ha, hh]
    exact h.noted

/-- A drain that ends where nothing is unserved. -/
theorem Plugin.Noted.leave (h : s.Noted) (hd : s.disposed = false → ¬ Unserved s.hist)
    (hh : s'.hist = s.hist) (hdis : s'.disposed = s.disposed) (ha : s'.again = false → s.again = false) :
    s'.Noted where
  served := by
    intro hdis' _
    rw [hh]
    exact hd (hdis ▸ hdis')
  noted := by
    intro hagain
    rw [hh]
    exact h.noted (ha hagain)

theorem Plugin.Noted.fetch (s : Plugin) : s.fetch.Noted where
  served := fun _ _ => not_unserved_asked s.hist
  noted := fun _ => not_unserved_asked s.hist

/-- **One step.** -/
theorem Plugin.Noted.step (h : s.Noted) (hok : EndsServed s l) (hs : plugin.step s l = some s') :
    s'.Noted := by
  cases Plugin.next_of_step hs with
  | failed => exact h.leave (fun hd hu => (hok hd hu).1 rfl) rfl rfl id
  | malformed => exact h.leave (fun hd hu => (hok hd hu).2.1 rfl) rfl rfl id
  | messages => exact h.of_hist id rfl rfl (unserved_append rfl)
  | refetch => exact .fetch _
  | finish _ hagain =>
    refine h.leave (fun hd => h.noted (hagain hd)) rfl rfl ?_
    intro ha
    exact (Bool.or_eq_false_iff.1 ha).1
  | skip => exact h.of_hist id rfl rfl Iff.rfl
  | wake => exact h.of_hist id rfl rfl Iff.rfl
  | woke => exact h.of_hist id rfl rfl (unserved_append rfl)
  | stale => exact h.leave (fun hd hu => (hok hd hu).2.2 rfl) rfl rfl id
  | started => exact .fetch _
  | turnedAway sid _ _ hrel =>
    refine ⟨?_, ?_⟩
    · intro _ hr
      rw [hrel] at hr
      cases hr
    · intro ha
      cases ha
  | shown => exact h.of_hist id rfl rfl (unserved_append rfl)
  | apart sid disposed _ _ hd =>
    refine h.of_hist (fun hdis : disposed = false => ?_) rfl rfl Iff.rfl
    cases hsd : s.disposed with
    | false => rfl
    | true =>
      rw [hd hsd] at hdis
      cases hdis

/-- A failure with a trigger unserved leaves it so. -/
theorem not_served_of_failure (hok : ¬ EndsServed s l) (hs : plugin.step s l = some s') :
    ¬ s'.Served := by
  unfold EndsServed at hok
  push Not at hok
  obtain ⟨hd, hu, hl⟩ := hok
  intro hserved
  cases Plugin.next_of_step hs with
  | failed => exact hserved hd rfl hu
  | malformed => exact hserved hd rfl hu
  | stale => exact hserved hd rfl hu
  | started _ hout | turnedAway _ hout | apart _ _ hout =>
    cases l <;> simp [PluginStep.outside] at hout hl
  | _ => simp at hl

end

/-- **No trigger is dropped**, as long as no drain fails with one unserved, and only so long. -/
theorem triggers_served {s : Plugin} (h : plugin.Run EndsServed .start s) :
    s.Served ∧ ∀ l s', plugin.step s l = some s' → (s'.Served ↔ EndsServed s l) := by
  have hstart : Plugin.start.Noted := by
    refine ⟨fun _ _ => ?_, fun _ => ?_⟩
    all_goals
      intro hu
      cases hu
  have hI : s.Noted := h.inv Plugin.Noted hstart fun _ _ _ hI hok hs => hI.step hok hs
  refine ⟨hI.served, ?_⟩
  intro l s' hs
  constructor
  · intro hserved
    by_contra hok
    exact not_served_of_failure hok hs hserved
  · intro hok
    exact (hI.step hok hs).served

/-! ## A trigger during a fetch that fails -/

instance Unserved.instDecidable (hist : List DrainEvent) : Decidable (Unserved hist) :=
  inferInstanceAs (Decidable (_ = _))

/-- `EndsServed`, computed. -/
def endsServed (s : Plugin) (l : PluginStep) : Bool :=
  s.disposed || !decide (Unserved s.hist) ||
    match l with
    | .answer .failed => false
    | .answer .malformed => false
    | .wakeEnd false => false
    | _ => true

theorem endsServed_sound (s : Plugin) (l : PluginStep) (h : endsServed s l = true) : EndsServed s l := by
  intro hd hu
  unfold endsServed at h
  rw [hd, decide_eq_true hu] at h
  refine ⟨?_, ?_, ?_⟩
  all_goals
    rintro rfl
    cases h

/-- A session, and a nudge while its first fetch is out. -/
def nudged : List PluginStep :=
  [.session (lit "s"), .event (lit "deliver") (.obj (dict [("kind", .str (lit "chat"))]))]

/-- The fetch comes back, and the drain fetches again for the nudge. -/
theorem triggers_served_nudge : ∃ s : Plugin, s.Served ∧ s.relaying = false ∧
    s.hist = [.asked, .turnedAway, .fetched [], .asked, .fetched []] := by
  have htrace : plugin.trace endsServed .start
    (nudged ++ [.answer (.messages []), .turn, .answer (.messages []), .turn]) = some _ := rfl
  exact ⟨_, (triggers_served (Machine.Run.trace endsServed_sound .start htrace)).1, rfl, rfl⟩

/-- The fetch fails: the drain ends, the session is known, and the nudge is forgotten. -/
theorem failed_fetch_drops_trigger : ∃ s : Plugin,
    plugin.Run (fun _ _ => True) .start s ∧ ¬ s.Served ∧ s.disposed = false ∧ s.relaying = false ∧
    s.again = true ∧ s.hist = [.asked, .turnedAway] := by
  have htrace : plugin.trace (fun _ _ => true) .start (nudged ++ [.answer .failed]) = some _ := rfl
  refine ⟨_, Machine.Run.trace (fun _ _ _ => trivial) .start htrace, ?_, rfl, rfl, rfl, rfl⟩
  intro hserved
  exact hserved rfl rfl rfl

end Muster
