import Mathlib.Data.List.Basic

/-!
# Transition systems with a history

A run is read together with the list of labels it took, most recent first. `Path` is the
relation between two such configurations, and a guard restricts the steps a path may take.
An unguarded run uses the guard that accepts everything, so a theorem about guarded runs
specialises to all runs. The two induction rules are `RunWhere.invariant`, for a property of
every configuration reached, and `Path.stable`, for a property that no later step can undo.
-/

namespace Backit.Lib

/-- A labelled transition system. -/
structure System (σ ℓ : Type*) where
  initial : σ → Prop
  step : σ → ℓ → σ → Prop

namespace System

variable {σ ℓ : Type*}

/-- A condition on a step: the labels taken so far, the state it starts from, and its label. -/
abbrev Guard (σ ℓ : Type*) := List ℓ → σ → ℓ → Prop

/-- The guard that accepts every step. -/
def anyStep : Guard σ ℓ := fun _ _ _ => True

/-- `Path sys guard h s h' s'` takes finitely many guarded steps from state `s` with history `h`
to state `s'` with history `h'`. -/
inductive Path (sys : System σ ℓ) (guard : Guard σ ℓ) : List ℓ → σ → List ℓ → σ → Prop where
  | refl (history state) : Path sys guard history state history state
  | tail {history state middle current label next} : Path sys guard history state middle current →
      sys.step current label next → guard middle current label →
      Path sys guard history state (label :: middle) next

/-- A path from an initial state with an empty history. -/
def RunWhere (sys : System σ ℓ) (guard : Guard σ ℓ) (history : List ℓ) (state : σ) : Prop :=
  ∃ start, sys.initial start ∧ Path sys guard [] start history state

/-- An unguarded run. -/
abbrev Run (sys : System σ ℓ) (history : List ℓ) (state : σ) : Prop :=
  sys.RunWhere anyStep history state

variable {sys : System σ ℓ} {guard weaker : Guard σ ℓ}

/-- Two paths that meet compose. -/
theorem Path.trans {h₁ h₂ h₃ : List ℓ} {s₁ s₂ s₃ : σ}
    (first : Path sys guard h₁ s₁ h₂ s₂) (rest : Path sys guard h₂ s₂ h₃ s₃) :
    Path sys guard h₁ s₁ h₃ s₃ := by
  induction rest with
  | refl => exact first
  | tail _ hstep hguard ih => exact .tail ih hstep hguard

variable {h : List ℓ} {h₁ h₂ : List ℓ}

/-- Weakening the guard keeps every path. -/
theorem Path.mono (hweak : ∀ h s l, guard h s l → weaker h s l) {s₁ s₂ : σ}
    (path : Path sys guard h₁ s₁ h₂ s₂) :
    Path sys weaker h₁ s₁ h₂ s₂ := by
  induction path with
  | refl => exact .refl _ _
  | tail _ hstep hguard ih => exact .tail ih hstep (hweak _ _ _ hguard)

theorem RunWhere.start {s : σ} (hs : sys.initial s) : sys.RunWhere guard [] s := ⟨s, hs, .refl _ _⟩

/-- A run extends along a path. -/
theorem RunWhere.trans {s₁ s₂ : σ} (run : sys.RunWhere guard h₁ s₁)
    (path : Path sys guard h₁ s₁ h₂ s₂) : sys.RunWhere guard h₂ s₂ := by
  obtain ⟨start, hstart, hpath⟩ := run
  exact ⟨start, hstart, hpath.trans path⟩

theorem RunWhere.tail {s s' : σ} {l : ℓ} (run : sys.RunWhere guard h s)
    (hstep : sys.step s l s') (hguard : guard h s l) : sys.RunWhere guard (l :: h) s' :=
  run.trans (.tail (.refl _ _) hstep hguard)

/-- A guarded run is a run. -/
theorem RunWhere.run {s : σ} (run : sys.RunWhere guard h s) : sys.Run h s := by
  obtain ⟨start, hstart, hpath⟩ := run
  exact ⟨start, hstart, hpath.mono fun _ _ _ _ => trivial⟩

/-- Induction over runs: the property holds initially, and every guarded step taken from a
configuration that a run reaches preserves it. -/
theorem RunWhere.invariant {I : List ℓ → σ → Prop} (hinit : ∀ s, sys.initial s → I [] s)
    (hstep : ∀ h s l s', sys.RunWhere guard h s → I h s → sys.step s l s' → guard h s l →
      I (l :: h) s') {s : σ} (run : sys.RunWhere guard h s) : I h s := by
  obtain ⟨start, hstart, hpath⟩ := run
  suffices H : ∀ h₁ s₁ h₂ s₂, Path sys guard h₁ s₁ h₂ s₂ → sys.RunWhere guard h₁ s₁ →
      I h₁ s₁ → I h₂ s₂ from H _ _ _ _ hpath (.start hstart) (hinit _ hstart)
  intro h₁ s₁ h₂ s₂ path hrun hI
  induction path with
  | refl => exact hI
  | tail hprefix hs hg ih => exact hstep _ _ _ _ (hrun.trans hprefix) ih hs hg

/-- A path only adds to the history. -/
theorem Path.suffix {s₁ s₂ : σ} (path : Path sys guard h₁ s₁ h₂ s₂) : h₁ <:+ h₂ := by
  induction path with
  | refl => exact List.suffix_rfl
  | tail _ _ _ ih => exact ih.trans (List.suffix_cons _ _)

/-- A property that guarded steps from reachable configurations preserve is never lost. -/
theorem Path.stable {P : List ℓ → σ → Prop} {s₁ s₂ : σ}
    (path : Path sys guard h₁ s₁ h₂ s₂) (hrun : sys.RunWhere guard h₁ s₁)
    (hstep : ∀ h s l s', sys.RunWhere guard h s → P h s → sys.step s l s' → guard h s l →
      P (l :: h) s')
    (hP : P h₁ s₁) : P h₂ s₂ := by
  induction path with
  | refl => exact hP
  | tail hprefix hs hg ih => exact hstep _ _ _ _ (hrun.trans hprefix) ih hs hg

/-- The last step of a nonempty run. -/
theorem RunWhere.last {s' : σ} {l : ℓ} (run : sys.RunWhere guard (l :: h) s') :
    ∃ s, sys.RunWhere guard h s ∧ sys.step s l s' ∧ guard h s l := by
  obtain ⟨start, hstart, hpath⟩ := run
  cases hpath with
  | tail hprefix hs hg => exact ⟨_, ⟨start, hstart, hprefix⟩, hs, hg⟩

/-- A run all of whose steps satisfy a further condition is a run under that condition. -/
theorem RunWhere.strengthen {extra : Guard σ ℓ}
    (hextra : ∀ h s l s', sys.RunWhere guard h s → sys.step s l s' → guard h s l → extra h s l)
    {s : σ} (run : sys.RunWhere guard h s) : sys.RunWhere extra h s := by
  refine run.invariant (I := fun h s => sys.RunWhere extra h s) (fun s hs => .start hs) ?_
  intro h s l s' hrun ih hs hg
  exact ih.tail hs (hextra h s l s' hrun hs hg)

/-- The run that reaches a configuration took the step `l` from the state `s`. -/
def Took (sys : System σ ℓ) (guard : Guard σ ℓ) (history : List ℓ) (state : σ) (l : ℓ) (s : σ) :
    Prop :=
  ∃ older s', sys.RunWhere guard older s ∧ sys.step s l s' ∧ guard older s l ∧
    Path sys guard (l :: older) s' history state

theorem RunWhere.took {s s' : σ} {l : ℓ} (run : sys.RunWhere guard h s)
    (hstep : sys.step s l s') (hguard : guard h s l) : Took sys guard (l :: h) s' l s :=
  ⟨h, s', run, hstep, hguard, .refl _ _⟩

/-- What a run took is in its history. -/
theorem Took.mem {s s₀ : σ} {l₀ : ℓ} (htook : Took sys guard h s l₀ s₀) : l₀ ∈ h := by
  obtain ⟨older, _, -, -, -, hpath⟩ := htook
  exact hpath.suffix.subset (.head older)

/-- What a run took stays taken. -/
theorem Took.tail {s s' s₀ : σ} {l l₀ : ℓ} (htook : Took sys guard h s l₀ s₀)
    (hstep : sys.step s l s') (hguard : guard h s l) : Took sys guard (l :: h) s' l₀ s₀ := by
  obtain ⟨older, s₁, hrun, hs₀, hg₀, hpath⟩ := htook
  exact ⟨older, s₁, hrun, hs₀, hg₀, .tail hpath hstep hguard⟩

/-- Everything in the history of a run was taken. -/
theorem RunWhere.took_of_mem {s : σ} (run : sys.RunWhere guard h s) :
    ∀ l ∈ h, ∃ s₀, Took sys guard h s l s₀ := by
  refine run.invariant (I := fun h s => ∀ l ∈ h, ∃ s₀, Took sys guard h s l s₀)
    (fun _ _ _ hl => absurd hl List.not_mem_nil) ?_
  intro h s l s' hrun ih hstep hguard l₀ hl₀
  obtain rfl | hl₀ := List.mem_cons.mp hl₀
  · exact ⟨s, hrun.took hstep hguard⟩
  · obtain ⟨s₀, htook⟩ := ih l₀ hl₀
    exact ⟨s₀, htook.tail hstep hguard⟩

end System

/-!
## Replaying scripts

A script is a list of inputs to a partial step function. A script that succeeds, every step of it
allowed, is a path of any system whose steps the function computes.
-/

namespace System

variable {σ ℓ ι : Type*}

/-- Run a script as long as each input succeeds with an allowed step. -/
def replay (next : σ → ι → Option (ℓ × σ)) (allowed : List ℓ → σ → ℓ → Bool) :
    List ι → List ℓ × σ → Option (List ℓ × σ)
  | [], reached => some reached
  | input :: rest, (history, state) =>
    match next state input with
    | some (label, state') =>
      if allowed history state label then
        replay next allowed rest (label :: history, state')
      else none
    | none => none

/-- Allows every step. -/
def anything : List ℓ → σ → ℓ → Bool := fun _ _ _ => true

theorem anything_allowed (h : List ℓ) (s : σ) (l : ℓ) (_ : anything h s l = true) :
    anyStep h s l := trivial

variable {sys : System σ ℓ} {guard : Guard σ ℓ} {next : σ → ι → Option (ℓ × σ)}
  {allowed : List ℓ → σ → ℓ → Bool}

/-- A script that succeeds is a path of the system. -/
theorem replay_path (hnext : ∀ s input l s', next s input = some (l, s') → sys.step s l s')
    (hallowed : ∀ h s l, allowed h s l = true → guard h s l) {script : List ι} {h h' : List ℓ}
    {s s' : σ} (hreplay : replay next allowed script (h, s) = some (h', s')) :
    Path sys guard h s h' s' := by
  induction script generalizing h s with
  | nil =>
    cases hreplay
    exact .refl _ _
  | cons input rest ih =>
    simp only [replay] at hreplay
    cases hstep : next s input with
    | none => simp [hstep] at hreplay
    | some reached =>
      obtain ⟨label, state⟩ := reached
      simp only [hstep] at hreplay
      split at hreplay
      · next hallow =>
        have hfirst : Path sys guard h s (label :: h) state :=
          .tail (.refl _ _) (hnext _ _ _ _ hstep) (hallowed _ _ _ hallow)
        exact hfirst.trans (ih hreplay)
      · cases hreplay

/-- A script replayed from an initial state, kept together with where it leads. -/
structure Replayed (sys : System σ ℓ) (next : σ → ι → Option (ℓ × σ))
    (allowed : List ℓ → σ → ℓ → Bool) where
  start : σ
  initial : sys.initial start
  script : List ι
  history : List ℓ
  state : σ
  replays : replay next allowed script ([], start) = some (history, state)

/-- Replay a script that is known to succeed. -/
def Replayed.of (start : σ) (initial : sys.initial start) (script : List ι)
    (succeeds : (replay next allowed script ([], start)).isSome = true) :
    Replayed sys next allowed where
  start := start
  initial := initial
  script := script
  history := ((replay next allowed script ([], start)).get succeeds).1
  state := ((replay next allowed script ([], start)).get succeeds).2
  replays := (Option.some_get succeeds).symm

/-- A replayed script is a run. -/
theorem Replayed.run (r : Replayed sys next allowed)
    (hnext : ∀ s input l s', next s input = some (l, s') → sys.step s l s')
    (hallowed : ∀ h s l, allowed h s l = true → guard h s l) :
    sys.RunWhere guard r.history r.state :=
  ⟨r.start, r.initial, replay_path hnext hallowed r.replays⟩

end System

end Backit.Lib
