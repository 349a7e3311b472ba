/-
# EdgeFrame.Lib.Runs -- runs of a system

A system that always answers is a function `step : σ → ε → σ`; a run feeds it a list
of events, and `EachStep` says that a property holds of every step of the run. A
system that may refuse is a relation `step : σ → ε → σ → Prop`, and `Trace` relates
the two ends of a run. The rules reduce what is said of runs to one step.
-/
import Mathlib

namespace EdgeFrame.Lib

variable {σ ε : Type*} {step : σ → ε → σ}

/-- `Q` holds of every step of the run of `es` from `s`: at the state the step
starts from and the event it consumes. -/
def EachStep (step : σ → ε → σ) (Q : σ → ε → Prop) : σ → List ε → Prop
  | _, [] => True
  | s, e :: es => Q s e ∧ EachStep step Q (step s e) es

@[simp] theorem eachStep_cons {Q : σ → ε → Prop} {s : σ} {e : ε} {es : List ε} :
    EachStep step Q s (e :: es) ↔ Q s e ∧ EachStep step Q (step s e) es := Iff.rfl

instance decidableEachStep {Q : σ → ε → Prop} [∀ s e, Decidable (Q s e)] :
    ∀ (s : σ) (es : List ε), Decidable (EachStep step Q s es)
  | _, [] => isTrue trivial
  | s, e :: es =>
    haveI := decidableEachStep (Q := Q) (step s e) es
    inferInstanceAs (Decidable (Q s e ∧ EachStep step Q (step s e) es))

/-- **The exchange rule for runs.** If, wherever the invariant `I` holds, `A` and `Q` agree on a
step, and an `A`-step keeps `I`, then from a state in `I` a run consists of `A`-steps exactly when
it consists of `Q`-steps. -/
theorem eachStep_iff_of_invariant {I : σ → Prop} {A Q : σ → ε → Prop}
    (hkeep : ∀ s e, I s → A s e → I (step s e)) (hiff : ∀ s e, I s → (A s e ↔ Q s e)) :
    ∀ {es : List ε} {s : σ}, I s → (EachStep step A s es ↔ EachStep step Q s es) := by
  intro es
  induction es with
  | nil =>
    intro _ _
    exact Iff.rfl
  | cons e es ih =>
    intro s hs
    rw [eachStep_cons, eachStep_cons, hiff s e hs]
    refine and_congr_right fun hq => ?_
    exact ih (hkeep s e hs ((hiff s e hs).mpr hq))

/-- **The exact rule for runs.** If, wherever the invariant `I` holds, a step keeps `G` exactly when
`Q` holds of it, then a run keeps `G` exactly when `Q` holds of each of its steps. -/
theorem foldl_iff_eachStep {I G : σ → Prop} {Q : σ → ε → Prop}
    (hkeep : ∀ s e, I s → I (step s e)) (hiff : ∀ s e, I s → (G (step s e) ↔ G s ∧ Q s e)) :
    ∀ (es : List ε) {s : σ}, I s → (G (es.foldl step s) ↔ G s ∧ EachStep step Q s es) := by
  intro es
  induction es with
  | nil =>
    intro s _
    exact (and_iff_left trivial).symm
  | cons e es ih =>
    intro s hs
    rw [List.foldl_cons, ih (hkeep s e hs), hiff s e hs, eachStep_cons, and_assoc]

/-- **The history rule for steps**: a property of every step is one of the events before each event. -/
theorem eachStep_iff_history {Q : σ → ε → Prop} {es : List ε} : ∀ {s : σ},
    EachStep step Q s es ↔
      ∀ before e after, es = before ++ e :: after → Q (before.foldl step s) e := by
  induction es with
  | nil =>
    intro s
    refine iff_of_true trivial ?_
    intro before e after h
    cases (List.append_eq_nil_iff.mp h.symm).2
  | cons e es ih =>
    intro s
    rw [eachStep_cons, ih]
    constructor
    · rintro ⟨he, hrest⟩ before e' after h
      cases before with
      | nil =>
        obtain ⟨rfl, -⟩ := List.cons.inj h
        exact he
      | cons e₁ before =>
        obtain ⟨rfl, htail⟩ := List.cons.inj h
        exact hrest before e' after htail
    · intro h
      exact ⟨h [] e es rfl, fun before e' after hes => h (e :: before) e' after (by rw [hes]; rfl)⟩

/-! ## Systems that may refuse -/

/-- A run from one state to another, with the events it consumes. -/
def Trace (step : σ → ε → σ → Prop) : σ → List ε → σ → Prop
  | s, [], s' => s' = s
  | s, e :: es, s'' => ∃ s', step s e s' ∧ Trace step s' es s''

variable {rel : σ → ε → σ → Prop}

theorem trace_append {es es' : List ε} : ∀ {s s'' : σ},
    Trace rel s (es ++ es') s'' ↔ ∃ s', Trace rel s es s' ∧ Trace rel s' es' s'' := by
  induction es with
  | nil =>
    intro s s''
    exact ⟨fun h => ⟨s, rfl, h⟩, fun ⟨s', hs', h⟩ => hs' ▸ h⟩
  | cons e es ih =>
    intro s s''
    constructor
    · rintro ⟨s₁, hstep, hrest⟩
      obtain ⟨s', hes, hes'⟩ := ih.mp hrest
      exact ⟨s', ⟨s₁, hstep, hes⟩, hes'⟩
    · rintro ⟨s', ⟨s₁, hstep, hes⟩, hes'⟩
      exact ⟨s₁, hstep, ih.mpr ⟨s', hes, hes'⟩⟩

theorem trace_snoc {es : List ε} {e : ε} {s s'' : σ} :
    Trace rel s (es ++ [e]) s'' ↔ ∃ s', Trace rel s es s' ∧ rel s' e s'' := by
  rw [trace_append]
  refine exists_congr fun s' => and_congr_right fun _ => ?_
  exact ⟨fun ⟨s₁, hstep, hs⟩ => hs ▸ hstep, fun hstep => ⟨s'', hstep, rfl⟩⟩

/-- The state in which an event of a run was consumed, and the one it led to. -/
theorem Trace.of_mem {es : List ε} {e : ε} {s s'' : σ} (h : Trace rel s es s'') (he : e ∈ es) :
    ∃ before after s₁ s₂, es = before ++ e :: after ∧ Trace rel s before s₁ ∧ rel s₁ e s₂ ∧
      Trace rel s₂ after s'' := by
  obtain ⟨before, after, rfl⟩ := List.append_of_mem he
  obtain ⟨s₁, hbefore, s₂, hstep, hafter⟩ := trace_append.mp h
  exact ⟨before, after, s₁, s₂, rfl, hbefore, hstep, hafter⟩

/-- Where every step has one result, so has every run. -/
theorem Trace.unique (hdet : ∀ s e s₁ s₂, rel s e s₁ → rel s e s₂ → s₁ = s₂) {es : List ε} :
    ∀ {s s₁ s₂ : σ}, Trace rel s es s₁ → Trace rel s es s₂ → s₁ = s₂ := by
  induction es with
  | nil =>
    intro s s₁ s₂ h₁ h₂
    exact h₁.trans h₂.symm
  | cons e es ih =>
    rintro s s₁ s₂ ⟨t₁, he₁, h₁⟩ ⟨t₂, he₂, h₂⟩
    rw [hdet s e t₁ t₂ he₁ he₂] at h₁
    exact ih h₁ h₂

/-- **The rule of going on**: where a step can be taken exactly when `A` holds of it, a run goes through
its events exactly when `A` holds wherever one of them is to be consumed. -/
theorem trace_exists_iff {A : σ → ε → Prop} (hdet : ∀ s e s₁ s₂, rel s e s₁ → rel s e s₂ → s₁ = s₂)
    (hiff : ∀ s e, (∃ s', rel s e s') ↔ A s e) {s₀ : σ} (es : List ε) :
    (∃ s, Trace rel s₀ es s) ↔
      ∀ before e after s, es = before ++ e :: after → Trace rel s₀ before s → A s e := by
  constructor
  · rintro ⟨s'', h⟩ before e after s rfl hbefore
    obtain ⟨s₁, h₁, s', hstep, -⟩ := trace_append.mp h
    rw [Trace.unique hdet hbefore h₁]
    exact (hiff s₁ e).mp ⟨s', hstep⟩
  · induction es using List.reverseRecOn with
    | nil =>
      intro _
      exact ⟨s₀, rfl⟩
    | append_singleton es e ih =>
      intro hall
      obtain ⟨s, hs⟩ := ih fun before e' after s hes =>
        hall before e' (after ++ [e]) s (by rw [hes, List.append_assoc]; rfl)
      obtain ⟨s', hstep⟩ := (hiff s e).mpr (hall es e [] s rfl hs)
      exact ⟨s', trace_snoc.mpr ⟨s, hs, hstep⟩⟩

/-- **The projection rule**: what a part of a system does in a run is a run of that part. -/
theorem Trace.project {σ' ε' : Type*} {rel' : σ' → ε' → σ' → Prop} (f : σ → σ') (g : ε → ε')
    (hstep : ∀ s e s', rel s e s' → rel' (f s) (g e) (f s')) : ∀ {es : List ε} {s s' : σ},
    Trace rel s es s' → Trace rel' (f s) (es.map g) (f s') := by
  intro es
  induction es with
  | nil =>
    intro _ _ h
    exact congrArg f h
  | cons e es ih =>
    intro s s' h
    obtain ⟨s₁, he, h⟩ := h
    exact ⟨f s₁, hstep s e s₁ he, ih h⟩

/-- **The history rule**: what holds at the start and is kept by every step, with the events so far
at hand, holds at the end of every run. -/
theorem Trace.history {s₀ : σ} {H : List ε → σ → Prop} (hinit : H [] s₀)
    (hstep : ∀ es s e s', Trace rel s₀ es s → H es s → rel s e s' → H (es ++ [e]) s') :
    ∀ {es : List ε} {s : σ}, Trace rel s₀ es s → H es s := by
  intro es
  induction es using List.reverseRecOn with
  | nil =>
    rintro s rfl
    exact hinit
  | append_singleton es e ih =>
    intro s' h
    obtain ⟨s, hes, he⟩ := trace_snoc.mp h
    exact hstep es s e s' hes (ih hes) he

/-- The history rule for a run whose events all have `Q`. -/
theorem Trace.history_of_forall {Q : ε → Prop} {s₀ : σ} {H : List ε → σ → Prop} (hinit : H [] s₀)
    (hstep : ∀ es s e s', Trace rel s₀ es s → H es s → Q e → rel s e s' → H (es ++ [e]) s')
    {es : List ε} {s : σ} (h : Trace rel s₀ es s) (hall : ∀ e ∈ es, Q e) : H es s := by
  revert hall
  refine Trace.history (H := fun es s => (∀ e ∈ es, Q e) → H es s) (fun _ => hinit) ?_ h
  intro es s e s' hes ih he hall
  have hbefore := ih fun u hu => hall u (List.mem_append_left _ hu)
  exact hstep es s e s' hes hbefore (hall e (by simp)) he

/-- **The invariant rule.** -/
theorem Trace.invariant {I : σ → Prop} (hstep : ∀ s e s', I s → rel s e s' → I s') {s₀ : σ}
    (hinit : I s₀) {es : List ε} {s : σ} (h : Trace rel s₀ es s) : I s :=
  Trace.history (H := fun _ s => I s) hinit (fun _ _ _ _ _ hs he => hstep _ _ _ hs he) h

/-- Where the steps are computed, so are the runs. -/
theorem Trace.of_foldlM {next : σ → ε → Option σ} {es : List ε} : ∀ {s s' : σ},
    es.foldlM next s = some s' → Trace (fun s e s' => next s e = some s') s es s' := by
  induction es with
  | nil =>
    intro s s' h
    exact (Option.some_inj.mp h).symm
  | cons e es ih =>
    intro s s' h
    rw [List.foldlM_cons] at h
    obtain ⟨s₁, hstep, hrest⟩ := Option.bind_eq_some_iff.mp h
    exact ⟨s₁, hstep, ih hrest⟩

/-- **The potential rule**: where every step that costs something takes as much from a potential, a run
costs no more than the potential it started with. -/
theorem Trace.potential {I : σ → Prop} {potential : σ → Nat} {cost : ε → Nat}
    (hstep : ∀ s e s', I s → rel s e s' → I s' ∧ cost e + potential s' ≤ potential s) {es : List ε} :
    ∀ {s s' : σ}, I s → Trace rel s es s' → (es.map cost).sum + potential s' ≤ potential s := by
  induction es with
  | nil =>
    rintro s _ - rfl
    exact Nat.le_of_eq (Nat.zero_add _)
  | cons e es ih =>
    rintro s s'' hs ⟨s', he, hes⟩
    obtain ⟨hs', hle⟩ := hstep s e s' hs he
    have hrest := ih hs' hes
    rw [List.map_cons, List.sum_cons]
    omega

end EdgeFrame.Lib
