/-
# EdgeFrame.Lib.Atomic -- calls that run under a lock

An object is called by any number of threads. A call waits for the object's one lock,
makes its accesses one after the other, each with what the earlier ones told it, and
unlocks before it returns; the other threads take steps in between. Such a run is
linearizable when it looks like one in which every call takes effect at a single moment
between its invocation and its response, and the effects, in the order of these moments,
are what a sequential object does. That reduces to what a call does when nobody
disturbs it (`Implements`), since under the lock nobody does.

  * `Linearizes`: a log is the history with the moments at which the calls took effect. The
    points of one thread alternate (`Phase.Next`), so that a call takes effect once, after it
    was made and before it has returned.
  * `Use`: the object, its lock and the places of its callers; `Guarded` says that the lock
    is with the thread between `lock` and `unlock`.
  * `Implements`: what has to be shown of an object. `Mid` holds between the accesses of one
    call; the access that decides its answer leaves the object as the specification says.
  * `coherent`: every run has a log, which grows by the effect of a call at its last access.

What a user of the object reads off it are `returned_subperm` and `effects_subperm`, and
`quiet` for the moments at which no call is under way. The threads, the calls, the
answers and the shared state are of any types.
-/
import EdgeFrame.Lib.Mutex
import EdgeFrame.Lib.Runs
import Mathlib

namespace EdgeFrame.Lib

/-! ## Histories -/

/-- What is seen of a call, and the moment at which it takes effect. -/
inductive Point (C R : Type) where
  | invoke (call : C)
  | effect (call : C) (answer : R)
  | respond (call : C) (answer : R)
  deriving DecidableEq, Repr

/-- How far a thread has come with its call. -/
inductive Phase (C R : Type) where
  | idle
  | invoked (call : C)
  | answered (call : C) (answer : R)
  deriving DecidableEq, Repr

/-- A thread makes one call at a time, which takes effect once. -/
inductive Phase.Next {C R : Type} : Phase C R → Point C R → Phase C R → Prop
  | invoke (call : C) : Next .idle (.invoke call) (.invoked call)
  | effect (call : C) (answer : R) :
    Next (.invoked call) (.effect call answer) (.answered call answer)
  | respond (call : C) (answer : R) : Next (.answered call answer) (.respond call answer) .idle

namespace Phase

variable {C R : Type}

/-- The call that has not taken effect yet. -/
def open? : Phase C R → List C
  | .invoked call => [call]
  | _ => []

/-- The call that has not returned yet, and what it will return. -/
def owed : Phase C R → List (C × R)
  | .answered call answer => [(call, answer)]
  | _ => []

end Phase

namespace Point

variable {C R : Type}

/-- Seen from outside. -/
def visible : Point C R → Bool
  | .effect _ _ => false
  | _ => true

/-- The call that is made. -/
def invoke? : Point C R → Option C
  | .invoke call => some call
  | _ => none

/-- The call and its answer, at the moment it takes effect. -/
def effect? : Point C R → Option (C × R)
  | .effect call answer => some (call, answer)
  | _ => none

/-- The call and its answer, when it returns. -/
def respond? : Point C R → Option (C × R)
  | .respond call answer => some (call, answer)
  | _ => none

end Point

variable {T C R S : Type} [DecidableEq T]

/-- What a log says of one thread. -/
def ofThread (t : T) (log : List (T × Point C R)) : List (Point C R) :=
  (log.filter fun p => p.1 = t).map Prod.snd

/-- A point of the thread itself is its last one. -/
@[simp] theorem ofThread_snoc_self (t : T) (log : List (T × Point C R)) (p : Point C R) :
    ofThread t (log ++ [(t, p)]) = ofThread t log ++ [p] := by
  simp [ofThread]

/-- A point of another thread is none of its own. -/
@[simp] theorem ofThread_snoc_of_ne {t u : T} (h : u ≠ t) (log : List (T × Point C R))
    (p : Point C R) : ofThread t (log ++ [(u, p)]) = ofThread t log := by
  simp [ofThread, h]

/-- The calls that took effect, in the order in which they did. -/
def effects (log : List (T × Point C R)) : List (C × R) := log.filterMap fun p => p.2.effect?

/-- The calls that were made. -/
def invoked (history : List (T × Point C R)) : List C := history.filterMap fun p => p.2.invoke?

/-- The calls that returned. -/
def returned (history : List (T × Point C R)) : List (C × R) :=
  history.filterMap fun p => p.2.respond?

/-- The sequential object answers a call so. -/
def Answers (spec : S → C → S × R) (a : S) (e : C × R) (a' : S) : Prop := spec a e.1 = (a', e.2)

/-- `log` is a history with the moments at which its calls took effect: every thread is where `phase`
says, and the sequential object has come from `a₀` to `a`.

The log is not the history itself: it has the effects besides, which nobody sees. -/
structure Linearizes (spec : S → C → S × R) (a₀ : S) (history log : List (T × Point C R))
    (phase : T → Phase C R) (a : S) : Prop where
  seen : log.filter (fun p => p.2.visible) = history
  threads : ∀ t, Trace Phase.Next .idle (ofThread t log) (phase t)
  legal : Trace (Answers spec) a₀ (effects log) a

namespace Linearizes

variable {spec : S → C → S × R} {a₀ a : S} {history log : List (T × Point C R)}
  {phase : T → Phase C R}

/-- Before any call. -/
theorem nil (spec : S → C → S × R) (a₀ : S) :
    Linearizes spec a₀ ([] : List (T × Point C R)) [] (fun _ => .idle) a₀ :=
  ⟨rfl, fun _ => rfl, rfl⟩

/-- One more point of the thread `t`, while the others are where they were. -/
theorem threads_snoc (h : Linearizes spec a₀ history log phase a) {t : T} {p : Point C R}
    {next : Phase C R} (hnext : (phase t).Next p next) (u : T) :
    Trace Phase.Next .idle (ofThread u (log ++ [(t, p)])) (Function.update phase t next u) := by
  by_cases hu : u = t
  · subst hu
    rw [ofThread_snoc_self, Function.update_self]
    exact trace_snoc.mpr ⟨phase u, h.threads u, hnext⟩
  · rw [ofThread_snoc_of_ne (Ne.symm hu), Function.update_of_ne hu]
    exact h.threads u

/-- A point that is seen and changes nothing. -/
theorem see (h : Linearizes spec a₀ history log phase a) {t : T} {p : Point C R}
    {next : Phase C R} (hnext : (phase t).Next p next) (hseen : p.visible = true)
    (heffect : p.effect? = none) :
    Linearizes spec a₀ (history ++ [(t, p)]) (log ++ [(t, p)]) (Function.update phase t next) a where
  seen := by
    rw [List.filter_append, h.seen]
    simp [hseen]
  threads := h.threads_snoc hnext
  legal := by
    have hsame : effects (log ++ [(t, p)]) = effects log := by
      unfold effects
      rw [List.filterMap_append]
      simp [heffect]
    rw [hsame]
    exact h.legal

/-- **A call takes effect**: the history stays, and the sequential object makes the call. -/
theorem effect (h : Linearizes spec a₀ history log phase a) {t : T} {call : C}
    (ht : phase t = .invoked call) :
    Linearizes spec a₀ history (log ++ [(t, .effect call (spec a call).2)])
      (Function.update phase t (.answered call (spec a call).2)) (spec a call).1 where
  seen := by
    rw [List.filter_append, h.seen]
    exact List.append_nil _
  threads := by
    apply h.threads_snoc
    rw [ht]
    exact .effect call _
  legal := by
    unfold effects
    rw [List.filterMap_append]
    exact trace_snoc.mpr ⟨a, h.legal, rfl⟩

/-- A thread has made the calls that took effect and the one it waits for; these have returned, or it
has an answer to give. -/
theorem calls_of_trace {ps : List (Point C R)} {p : Phase C R}
    (h : Trace Phase.Next .idle ps p) :
    ps.filterMap Point.invoke? = (ps.filterMap Point.effect?).map Prod.fst ++ p.open? ∧
      ps.filterMap Point.effect? = ps.filterMap Point.respond? ++ p.owed := by
  apply Trace.history (H := fun ps p =>
    ps.filterMap Point.invoke? = (ps.filterMap Point.effect?).map Prod.fst ++ p.open? ∧
      ps.filterMap Point.effect? = ps.filterMap Point.respond? ++ p.owed) ⟨rfl, rfl⟩ _ h
  rintro ps p e p' - ⟨hinvoked, heffect⟩ hnext
  simp only [List.filterMap_append, List.map_append, List.filterMap_cons, List.filterMap_nil]
  rw [hinvoked, heffect]
  cases hnext with
  | invoke call => simp [Point.invoke?, Point.effect?, Point.respond?, Phase.open?, Phase.owed]
  | effect call answer =>
    simp [Point.invoke?, Point.effect?, Point.respond?, Phase.open?, Phase.owed]
  | respond call answer =>
    simp [Point.invoke?, Point.effect?, Point.respond?, Phase.open?, Phase.owed]

/-- Counting in a log, with the threads, is counting in the log of a thread. -/
theorem count_ofThread {V : Type} [DecidableEq V] (f : Point C R → Option V) (t : T) (v : V)
    (log : List (T × Point C R)) :
    (log.filterMap fun p => (f p.2).map (p.1, ·)).count (t, v) =
      ((ofThread t log).filterMap f).count v := by
  induction log using List.reverseRecOn with
  | nil => rfl
  | append_singleton log p ih =>
    obtain ⟨u, p⟩ := p
    rw [List.filterMap_append, List.count_append, ih]
    by_cases hu : u = t
    · subst hu
      rw [ofThread_snoc_self, List.filterMap_append, List.count_append]
      cases hp : f p with
      | none => simp [hp]
      | some w => simp [hp, List.count_singleton]
    · rw [ofThread_snoc_of_ne hu]
      cases hp : f p with
      | none => simp [hp]
      | some w => simp [hp, hu]

/-- What every thread has at most as often as something else, so has the log. -/
theorem subperm_of_threads {V : Type} {f g : Point C R → Option V}
    (h : ∀ t, ((ofThread t log).filterMap f).Subperm ((ofThread t log).filterMap g)) :
    (log.filterMap fun p => f p.2).Subperm (log.filterMap fun p => g p.2) := by
  classical
  have hsnd : ∀ f : Point C R → Option V,
      (log.filterMap fun p => (f p.2).map (p.1, ·)).map Prod.snd =
        log.filterMap fun p => f p.2 := by
    intro f
    rw [List.map_filterMap]
    congr 1
    funext p
    cases f p.2 with
    | none => rfl
    | some v => rfl
  have htagged : (log.filterMap fun p => (f p.2).map (p.1, ·)).Subperm
      (log.filterMap fun p => (g p.2).map (p.1, ·)) := by
    rw [List.subperm_ext_iff]
    rintro ⟨t, v⟩ -
    rw [count_ofThread, count_ofThread]
    exact (h t).count_le v
  obtain ⟨part, hperm, hsub⟩ := htagged
  rw [← hsnd f, ← hsnd g]
  exact ⟨part.map Prod.snd, hperm.map Prod.snd, hsub.map Prod.snd⟩

/-- What is seen is the same in the log as in the history. -/
theorem filterMap_seen (h : Linearizes spec a₀ history log phase a) {V : Type}
    {f : Point C R → Option V} (hf : ∀ call answer, f (.effect call answer) = none) :
    (log.filterMap fun p => f p.2) = history.filterMap fun p => f p.2 := by
  rw [← h.seen, List.filterMap_filter]
  congr 1
  funext p
  split
  · rfl
  · rename_i hp
    cases hpoint : p.2 with
    | effect call answer => exact hf call answer
    | invoke call => exact absurd (by rw [hpoint]; rfl) hp
    | respond call answer => exact absurd (by rw [hpoint]; rfl) hp

/-- The calls that were made are those of the log. -/
theorem invoked_eq (h : Linearizes spec a₀ history log phase a) : invoked history = invoked log :=
  (h.filterMap_seen fun _ _ => rfl).symm

omit [DecidableEq T] in
/-- A call of the history, with its caller. -/
theorem mem_invoked {history : List (T × Point C R)} {call : C} (h : call ∈ invoked history) :
    ∃ t, (t, .invoke call) ∈ history := by
  obtain ⟨⟨t, p⟩, hp, hcall⟩ := List.mem_filterMap.mp h
  cases p with
  | invoke call' =>
    obtain rfl := Option.some.inj hcall
    exact ⟨t, hp⟩
  | effect call' answer => cases hcall
  | respond call' answer => cases hcall

/-- And so are those that have returned. -/
theorem returned_eq (h : Linearizes spec a₀ history log phase a) :
    returned history = returned log :=
  (h.filterMap_seen fun _ _ => rfl).symm

omit [DecidableEq T] in
/-- The calls that took effect, without their answers. -/
theorem effects_calls (log : List (T × Point C R)) :
    (effects log).map Prod.fst = log.filterMap fun p => p.2.effect?.map Prod.fst :=
  List.map_filterMap

/-- **A call that returned took effect**, with the answer it gave. -/
theorem returned_subperm (h : Linearizes spec a₀ history log phase a) :
    (returned history).Subperm (effects log) := by
  rw [h.returned_eq]
  apply subperm_of_threads
  intro t
  rw [(calls_of_trace (h.threads t)).2]
  exact (List.sublist_append_left _ _).subperm

/-- **Only what was called takes effect.** -/
theorem effects_subperm (h : Linearizes spec a₀ history log phase a) :
    ((effects log).map Prod.fst).Subperm (invoked history) := by
  rw [h.invoked_eq, effects_calls]
  apply subperm_of_threads (f := fun p => p.effect?.map Prod.fst) (g := Point.invoke?)
  intro t
  rw [(calls_of_trace (h.threads t)).1, ← List.map_filterMap]
  exact (List.sublist_append_left _ _).subperm

/-- **When nobody is in the middle of a call**, what took effect is what was called and what has
returned. -/
theorem quiet (h : Linearizes spec a₀ history log phase a) (hidle : ∀ t, phase t = .idle) :
    (effects log).Perm (returned history) ∧ ((effects log).map Prod.fst).Perm (invoked history) := by
  constructor
  · apply List.Subperm.antisymm _ h.returned_subperm
    rw [h.returned_eq]
    apply subperm_of_threads
    intro t
    rw [(calls_of_trace (h.threads t)).2, hidle t]
    exact List.append_nil _ ▸ .refl _
  · apply List.Subperm.antisymm h.effects_subperm
    rw [h.invoked_eq, effects_calls]
    apply subperm_of_threads (f := Point.invoke?) (g := fun p => p.effect?.map Prod.fst)
    intro t
    rw [(calls_of_trace (h.threads t)).1, hidle t, ← List.map_filterMap]
    exact List.append_nil _ ▸ .refl _

end Linearizes

/-! ## Objects under a lock -/

/-- What a call of an object does while it holds the lock: the place at which it starts, and what an
access makes of the shared state. An access leads to the next one, or to the answer. -/
structure Locked (C L σ R : Type) where
  enter : C → L
  access : L → σ → (L ⊕ R) × σ

/-- Where a thread is. -/
inductive Place (C L R : Type) where
  | outside
  | waiting (call : C)
  | inside (call : C) (l : L)
  | leaving (call : C) (answer : R)
  | returning (call : C) (answer : R)
  deriving DecidableEq, Repr

namespace Place

variable {L : Type}

/-- The thread has the lock. -/
def Holds : Place C L R → Prop
  | .inside _ _ => True
  | .leaving _ _ => True
  | _ => False

/-- A call takes effect on its last access. -/
def phase : Place C L R → Phase C R
  | .outside => .idle
  | .waiting call => .invoked call
  | .inside call _ => .invoked call
  | .leaving call answer => .answered call answer
  | .returning call answer => .answered call answer

end Place

/-- The object, its lock, and where its callers are. `history` is bookkeeping: it records what is seen
of the calls. -/
structure Use (T C L σ R : Type) where
  mutex : Mutex T := {}
  shared : σ
  place : T → Place C L R := fun _ => .outside
  history : List (T × Point C R) := []

/-- What a thread can do. -/
inductive Move (C : Type) where
  | invoke (call : C)
  | lock
  | access
  | unlock
  | respond
  deriving DecidableEq, Repr

namespace Use

variable {L σ : Type}

/-- The thread `t` goes on at `p`. -/
def go (s : Use T C L σ R) (t : T) (p : Place C L R) : Use T C L σ R :=
  { s with place := Function.update s.place t p }

/-- One step of the thread `t`; `lock` waits while somebody has the lock. -/
def step (obj : Locked C L σ R) (s : Use T C L σ R) (t : T) : Move C → Option (Use T C L σ R)
  | .invoke call =>
    match s.place t with
    | .outside =>
      some { s.go t (.waiting call) with history := s.history ++ [(t, .invoke call)] }
    | _ => none
  | .lock =>
    match s.place t with
    | .waiting call =>
      (s.mutex.lock t).map fun m => { s.go t (.inside call (obj.enter call)) with mutex := m }
    | _ => none
  | .access =>
    match s.place t with
    | .inside call l =>
      match obj.access l s.shared with
      | (.inl l', x) => some { s.go t (.inside call l') with shared := x }
      | (.inr answer, x) => some { s.go t (.leaving call answer) with shared := x }
    | _ => none
  | .unlock =>
    match s.place t with
    | .leaving call answer => some { s.go t (.returning call answer) with mutex := s.mutex.unlock }
    | _ => none
  | .respond =>
    match s.place t with
    | .returning call answer =>
      some { s.go t .outside with history := s.history ++ [(t, .respond call answer)] }
    | _ => none

variable {obj : Locked C L σ R} {s s' : Use T C L σ R} {t : T}

/-- What a step can be. -/
theorem step_cases {m : Move C} (h : s.step obj t m = some s') :
    (∃ call, m = .invoke call ∧ s.place t = .outside ∧
      s' = { s.go t (.waiting call) with history := s.history ++ [(t, .invoke call)] }) ∨
    (∃ call, m = .lock ∧ s.place t = .waiting call ∧ s.mutex.holder = none ∧
      s' = { s.go t (.inside call (obj.enter call)) with mutex := ⟨some t⟩ }) ∨
    (∃ call l l' x, m = .access ∧ s.place t = .inside call l ∧
      obj.access l s.shared = (.inl l', x) ∧
      s' = { s.go t (.inside call l') with shared := x }) ∨
    (∃ call l answer x, m = .access ∧ s.place t = .inside call l ∧
      obj.access l s.shared = (.inr answer, x) ∧
      s' = { s.go t (.leaving call answer) with shared := x }) ∨
    (∃ call answer, m = .unlock ∧ s.place t = .leaving call answer ∧
      s' = { s.go t (.returning call answer) with mutex := ⟨none⟩ }) ∨
    (∃ call answer, m = .respond ∧ s.place t = .returning call answer ∧
      s' = { s.go t .outside with history := s.history ++ [(t, .respond call answer)] }) := by
  cases m with
  | invoke call =>
    simp only [step] at h
    split at h
    · rename_i hplace
      exact Or.inl ⟨call, rfl, hplace, (Option.some.inj h).symm⟩
    · cases h
  | lock =>
    simp only [step] at h
    split at h
    · rename_i call hplace
      obtain ⟨m', hlock, rfl⟩ := Option.map_eq_some_iff.mp h
      obtain ⟨hfree, rfl⟩ := Mutex.lock_eq_some.mp hlock
      exact Or.inr (Or.inl ⟨call, rfl, hplace, hfree, rfl⟩)
    · cases h
  -- an access goes on or decides the answer; the object says which
  | access =>
    simp only [step] at h
    split at h
    · rename_i call l hplace
      split at h
      · rename_i l' x haccess
        refine Or.inr (Or.inr (Or.inl ⟨call, l, l', x, rfl, hplace, haccess, ?_⟩))
        exact (Option.some.inj h).symm
      · rename_i answer x haccess
        refine Or.inr (Or.inr (Or.inr (Or.inl ⟨call, l, answer, x, rfl, hplace, haccess, ?_⟩)))
        exact (Option.some.inj h).symm
    · cases h
  | unlock =>
    simp only [step] at h
    split at h
    · rename_i call answer hplace
      refine Or.inr (Or.inr (Or.inr (Or.inr (Or.inl ⟨call, answer, rfl, hplace, ?_⟩))))
      exact (Option.some.inj h).symm
    · cases h
  | respond =>
    simp only [step] at h
    split at h
    · rename_i call answer hplace
      refine Or.inr (Or.inr (Or.inr (Or.inr (Or.inr ⟨call, answer, rfl, hplace, ?_⟩))))
      exact (Option.some.inj h).symm
    · cases h

/-- A run of the threads. -/
def Steps (obj : Locked C L σ R) : Use T C L σ R → List (T × Move C) → Use T C L σ R → Prop :=
  Trace fun s e s' => s.step obj e.1 e.2 = some s'

/-- The same, computed. -/
def exec (obj : Locked C L σ R) (s : Use T C L σ R) (es : List (T × Move C)) :
    Option (Use T C L σ R) :=
  es.foldlM (fun s e => s.step obj e.1 e.2) s

/-- What is computed is a run. -/
theorem exec_steps {es : List (T × Move C)} (h : exec obj s es = some s') : Steps obj s es s' :=
  Trace.of_foldlM h

/-- Histories record what was called. -/
theorem Steps.invoked {es : List (T × Move C)} {s₀ : Use T C L σ R} (hinit : s₀.history = [])
    (h : Steps obj s₀ es s) : ∀ t call, (t, .invoke call) ∈ s.history → (t, .invoke call) ∈ es := by
  apply Trace.history
    (H := fun es s => ∀ t call, (t, Point.invoke call) ∈ s.history → (t, Move.invoke call) ∈ es) _ _ h
  · intro t call hmem
    rw [hinit] at hmem
    cases hmem
  · rintro es s ⟨u, m⟩ s' - ih hstep t call hmem
    obtain ⟨call', rfl, -, rfl⟩ | ⟨_, rfl, -, -, rfl⟩ | ⟨_, _, _, _, rfl, -, -, rfl⟩ |
      ⟨_, _, _, _, rfl, -, -, rfl⟩ | ⟨_, _, rfl, -, rfl⟩ | ⟨_, _, rfl, -, rfl⟩ := step_cases hstep
    · obtain hold | hnew := List.mem_append.mp hmem
      · exact List.mem_append_left _ (ih t call hold)
      · obtain ⟨rfl, hpoint⟩ := Prod.mk.inj (List.mem_singleton.mp hnew)
        obtain rfl := Point.invoke.inj hpoint
        simp
    · exact List.mem_append_left _ (ih t call hmem)
    · exact List.mem_append_left _ (ih t call hmem)
    · exact List.mem_append_left _ (ih t call hmem)
    · exact List.mem_append_left _ (ih t call hmem)
    · obtain hold | hnew := List.mem_append.mp hmem
      · exact List.mem_append_left _ (ih t call hold)
      · cases (Prod.mk.inj (List.mem_singleton.mp hnew)).2

/-- At the start nobody calls. -/
def init (T C L R : Type) {σ : Type} (x : σ) : Use T C L σ R := { shared := x }

/-! ## Who has the lock -/

/-- The lock is with the thread that is between `lock` and `unlock`. -/
def Guarded (s : Use T C L σ R) : Prop := s.mutex.Guards fun t => (s.place t).Holds

/-- The thread that goes on is at its new place. -/
@[simp] theorem place_go_self (t : T) (s : Use T C L σ R) (p : Place C L R) :
    (s.go t p).place t = p := by
  show Function.update s.place t p t = p
  rw [Function.update_self]

/-- And the others are where they were. -/
theorem place_go_of_ne {t u : T} (h : u ≠ t) (s : Use T C L σ R) (p : Place C L R) :
    (s.go t p).place u = s.place u := by
  show Function.update s.place t p u = s.place u
  rw [Function.update_of_ne h]

/-- They have the lock or not, as before. -/
theorem holds_go_of_ne {t u : T} (h : u ≠ t) (s : Use T C L σ R) (p : Place C L R) :
    ((s.go t p).place u).Holds ↔ (s.place u).Holds := by
  rw [place_go_of_ne h]

/-- A step that keeps the thread on its side of the lock.

That is every step but `lock` and `unlock`. -/
theorem Guarded.stay (h : s.Guarded) {p : Place C L R} (hsame : p.Holds ↔ (s.place t).Holds) :
    s.mutex.Guards fun u => ((s.go t p).place u).Holds := by
  apply Mutex.Guards.stay h
  intro u
  by_cases hu : u = t
  · subst hu
    rw [place_go_self]
    exact hsame
  · exact holds_go_of_ne hu s p

/-- Every step keeps the lock with whom it belongs to. -/
theorem Guarded.step (h : s.Guarded) {m : Move C} (hstep : s.step obj t m = some s') :
    s'.Guarded := by
  obtain ⟨call, rfl, hplace, rfl⟩ | ⟨call, rfl, hplace, hfree, rfl⟩ |
    ⟨call, l, l', x, rfl, hplace, -, rfl⟩ | ⟨call, l, answer, x, rfl, hplace, -, rfl⟩ |
    ⟨call, answer, rfl, hplace, rfl⟩ | ⟨call, answer, rfl, hplace, rfl⟩ := step_cases hstep
  · apply h.stay
    rw [hplace]
    exact Iff.rfl
  · apply Mutex.Guards.enter h hfree
    · show ((s.go t _).place t).Holds
      rw [place_go_self]
      trivial
    · intro u hu
      exact holds_go_of_ne hu s _
  · apply h.stay
    rw [hplace]
    exact Iff.rfl
  · apply h.stay
    rw [hplace]
    exact Iff.rfl
  · have hin : (s.place t).Holds := by
      rw [hplace]
      trivial
    apply Mutex.Guards.leave h hin
    · show ¬ ((s.go t _).place t).Holds
      rw [place_go_self]
      exact id
    · intro u hu
      exact holds_go_of_ne hu s _
  · apply h.stay
    rw [hplace]
    exact Iff.rfl

/-- **No call is stuck**: while some call has not returned, some thread can go on with one. -/
theorem Guarded.goes_on (h : s.Guarded) {t : T} (ht : s.place t ≠ .outside) :
    ∃ u m, (∀ call, m ≠ .invoke call) ∧ (s.step obj u m).isSome := by
  -- whoever has the lock can go on; without one, the thread itself can
  cases hholder : s.mutex.holder with
  | some u =>
    have hu : (s.place u).Holds := (h u).mp hholder
    cases hplace : s.place u with
    | inside call l =>
      refine ⟨u, .access, by simp, ?_⟩
      simp only [Use.step, hplace]
      split <;> rfl
    | leaving call answer =>
      refine ⟨u, .unlock, by simp, ?_⟩
      simp only [Use.step, hplace]
      rfl
    | outside =>
      rw [hplace] at hu
      exact hu.elim
    | waiting call =>
      rw [hplace] at hu
      exact hu.elim
    | returning call answer =>
      rw [hplace] at hu
      exact hu.elim
  | none =>
    have hout : ¬ (s.place t).Holds := Mutex.Guards.not_inside h hholder t
    cases hplace : s.place t with
    | outside => exact absurd hplace ht
    | waiting call =>
      refine ⟨t, .lock, by simp, ?_⟩
      simp only [Use.step, hplace, Mutex.lock, hholder]
      rfl
    | returning call answer =>
      refine ⟨t, .respond, by simp, ?_⟩
      simp only [Use.step, hplace]
      rfl
    | inside call l =>
      rw [hplace] at hout
      exact absurd trivial hout
    | leaving call answer =>
      rw [hplace] at hout
      exact absurd trivial hout

end Use

/-! ## Calls that are left alone -/

/-- What a call of `obj` does from `lock` to `unlock`, undisturbed, is what `spec` says: `Mid` holds
between its accesses, from a state that stands for the sequential object's `a` on. -/
structure Implements {L σ : Type} (obj : Locked C L σ R) (spec : S → C → S × R) where
  Rep : σ → S → Prop
  Mid : S → C → L → σ → Prop
  enter : ∀ {x a} call, Rep x a → Mid a call (obj.enter call) x
  goes_on : ∀ {a call l x l' x'}, Mid a call l x → obj.access l x = (.inl l', x') →
    Mid a call l' x'
  decides : ∀ {a call l x answer x'}, Mid a call l x → obj.access l x = (.inr answer, x') →
    (spec a call).2 = answer ∧ Rep x' (spec a call).1

namespace Implements

variable {L σ : Type} {obj : Locked C L σ R} {spec : S → C → S × R}

/-- The shared state stands for what the sequential object has come to, or a call is at work on it.

While a call is at work the shared state stands for nothing; `Mid` says what the call has made of it
so far. -/
structure Coherent (h : Implements obj spec) (a₀ : S) (s : Use T C L σ R)
    (log : List (T × Point C R)) (a : S) : Prop where
  guarded : s.Guarded
  linearizes : Linearizes spec a₀ s.history log (fun t => (s.place t).phase) a
  mid : ∀ t call l, s.place t = .inside call l → h.Mid a call l s.shared
  rep : (∀ t call l, s.place t ≠ .inside call l) → h.Rep s.shared a

variable {h : Implements obj spec} {a₀ a : S} {s s' : Use T C L σ R}
  {log : List (T × Point C R)} {t : T}

/-- Only the phase of the thread that goes on changes. -/
theorem phase_go (s : Use T C L σ R) (t : T) (p : Place C L R) :
    (fun u => ((s.go t p).place u).phase) =
      Function.update (fun u => (s.place u).phase) t p.phase := by
  funext u
  by_cases hu : u = t
  · subst hu
    rw [Use.place_go_self, Function.update_self]
  · rw [Use.place_go_of_ne hu, Function.update_of_ne hu]

/-- A step that no call's phase depends on. -/
theorem phase_go_same {p : Place C L R} (hsame : p.phase = (s.place t).phase) :
    (fun u => ((s.go t p).place u).phase) = fun u => (s.place u).phase := by
  rw [phase_go, hsame]
  exact Function.update_eq_self t _

/-- Beside the holder of the lock nobody is inside. -/
theorem Coherent.others (hs : h.Coherent a₀ s log a) (hin : (s.place t).Holds) {u : T} {call : C}
    {l : L} (hu : s.place u = .inside call l) : u = t := by
  apply Mutex.Guards.unique hs.guarded _ hin
  show (s.place u).Holds
  rw [hu]
  trivial

/-- Outside a call's accesses the shared state is at rest. -/
theorem Coherent.rest (hs : h.Coherent a₀ s log a) (hfree : s.mutex.holder = none) :
    h.Rep s.shared a := by
  apply hs.rep
  intro u call l hu
  apply Mutex.Guards.not_inside hs.guarded hfree u
  show (s.place u).Holds
  rw [hu]
  trivial

/-- A step of `t` to `p`, somewhere outside the accesses, that leaves the shared state alone. -/
theorem Coherent.mid_go (hs : h.Coherent a₀ s log a) {p : Place C L R}
    (hp : ∀ call l, p ≠ .inside call l) (u : T) (call : C) (l : L)
    (hu : (s.go t p).place u = .inside call l) : h.Mid a call l s.shared := by
  by_cases heq : u = t
  · rw [heq, Use.place_go_self] at hu
    exact absurd hu (hp call l)
  · rw [Use.place_go_of_ne heq] at hu
    exact hs.mid u call l hu

/-- A step to a place outside the accesses leaves the shared state at rest. -/
theorem Coherent.rep_go (hs : h.Coherent a₀ s log a) (ht : ∀ call l, s.place t ≠ .inside call l)
    {p : Place C L R} (hout : ∀ u call l, (s.go t p).place u ≠ .inside call l) :
    h.Rep s.shared a := by
  apply hs.rep
  intro u call l hu
  by_cases heq : u = t
  · exact ht call l (heq ▸ hu)
  · apply hout u call l
    rw [Use.place_go_of_ne heq]
    exact hu

/-- **One step**: a call takes effect on its last access, and on no other step.

The cases are the moves. For the last access the effect is put into the log; the answer is that of
the specification by `decides`. -/
theorem Coherent.step (hs : h.Coherent a₀ s log a) {m : Move C}
    (hstep : s.step obj t m = some s') : ∃ log' a', h.Coherent a₀ s' log' a' := by
  have hguarded := hs.guarded.step hstep
  obtain ⟨call, rfl, hplace, rfl⟩ | ⟨call, rfl, hplace, hfree, rfl⟩ |
    ⟨call, l, l', x, rfl, hplace, haccess, rfl⟩ | ⟨call, l, answer, x, rfl, hplace, haccess, rfl⟩ |
    ⟨call, answer, rfl, hplace, rfl⟩ | ⟨call, answer, rfl, hplace, rfl⟩ := Use.step_cases hstep
  -- invoke: the call is seen, and nothing happens to the object
  · refine ⟨log ++ [(t, .invoke call)], a, hguarded, ?_, hs.mid_go (by simp), ?_⟩
    · show Linearizes spec a₀ (s.history ++ [(t, .invoke call)]) _
        (fun u => ((s.go t (.waiting call)).place u).phase) a
      rw [phase_go]
      apply hs.linearizes.see _ rfl rfl
      rw [hplace]
      exact .invoke call
    · exact hs.rep_go (by simp [hplace])
  · -- the state is at rest when a call enters
    refine ⟨log, a, hguarded, ?_, ?_, ?_⟩
    · show Linearizes spec a₀ s.history log
        (fun u => ((s.go t (.inside call (obj.enter call))).place u).phase) a
      rw [phase_go_same (by rw [hplace]; rfl)]
      exact hs.linearizes
    · intro u call' l' hu
      by_cases heq : u = t
      · subst heq
        have hin := (Use.place_go_self u s _).symm.trans hu
        obtain ⟨rfl, rfl⟩ := Place.inside.inj hin
        exact h.enter call (hs.rest hfree)
      · have hin := (Use.place_go_of_ne heq s _).symm.trans hu
        exact hs.mid u call' l' hin
    · intro hout
      exact absurd (Use.place_go_self t s _) (hout t call (obj.enter call))
  -- an access after which the call goes on: the others are outside, by the lock
  · have hholds : (s.place t).Holds := by
      rw [hplace]
      trivial
    refine ⟨log, a, hguarded, ?_, ?_, ?_⟩
    · show Linearizes spec a₀ s.history log
        (fun u => ((s.go t (.inside call l')).place u).phase) a
      rw [phase_go_same (by rw [hplace]; rfl)]
      exact hs.linearizes
    · intro u call' l₁ hu
      by_cases heq : u = t
      · subst heq
        have hin := (Use.place_go_self u s _).symm.trans hu
        obtain ⟨rfl, rfl⟩ := Place.inside.inj hin
        exact h.goes_on (hs.mid u call l hplace) haccess
      · have hin := (Use.place_go_of_ne heq s _).symm.trans hu
        exact absurd (hs.others hholds hin) heq
    · intro hout
      exact absurd (Use.place_go_self t s _) (hout t call l')
  -- the access that decides the answer: here the call takes effect
  · have hholds : (s.place t).Holds := by
      rw [hplace]
      trivial
    obtain ⟨hanswer, hrep⟩ := h.decides (hs.mid t call l hplace) haccess
    subst hanswer
    refine ⟨log ++ [(t, .effect call (spec a call).2)], (spec a call).1, hguarded, ?_, ?_, ?_⟩
    · show Linearizes spec a₀ s.history _
        (fun u => ((s.go t (.leaving call (spec a call).2)).place u).phase) _
      rw [phase_go]
      apply hs.linearizes.effect
      rw [hplace]
      rfl
    · intro u call' l₁ hu
      by_cases heq : u = t
      · subst heq
        exact absurd ((Use.place_go_self u s _).symm.trans hu) (by simp)
      · have hin := (Use.place_go_of_ne heq s _).symm.trans hu
        exact absurd (hs.others hholds hin) heq
    · intro _
      exact hrep
  -- unlock: the object is at rest already
  · refine ⟨log, a, hguarded, ?_, hs.mid_go (by simp), ?_⟩
    · show Linearizes spec a₀ s.history log
        (fun u => ((s.go t (.returning call answer)).place u).phase) a
      rw [phase_go_same (by rw [hplace]; rfl)]
      exact hs.linearizes
    · exact hs.rep_go (by simp [hplace])
  -- respond: the answer is seen
  · refine ⟨log ++ [(t, .respond call answer)], a, hguarded, ?_, hs.mid_go (by simp), ?_⟩
    · show Linearizes spec a₀ (s.history ++ [(t, .respond call answer)]) _
        (fun u => ((s.go t .outside).place u).phase) a
      rw [phase_go]
      apply hs.linearizes.see _ rfl rfl
      rw [hplace]
      exact .respond call answer
    · exact hs.rep_go (by simp [hplace])

/-- At the start nobody is inside, and the shared state stands for the first one. -/
theorem Coherent.init (h : Implements obj spec) {x : σ} (hx : h.Rep x a₀) :
    h.Coherent a₀ (Use.init T C L R x) [] a₀ where
  guarded := fun t => iff_of_false (by simp [Use.init]) id
  linearizes := Linearizes.nil spec a₀
  mid := fun _ _ _ ht => nomatch ht
  rep := fun _ => hx

/-- **Every run is linearizable.**

By induction on the run, from `Coherent.init` and the step. -/
theorem coherent (h : Implements obj spec) {x : σ} (hx : h.Rep x a₀) {es : List (T × Move C)}
    (hrun : Use.Steps obj (Use.init T C L R x) es s) : ∃ log a, h.Coherent a₀ s log a := by
  apply Trace.invariant (I := fun s => ∃ log a, h.Coherent a₀ s log a) _ ⟨[], a₀, .init h hx⟩ hrun
  rintro s e s' ⟨log, a, hs⟩ hstep
  exact hs.step hstep

end Implements

end EdgeFrame.Lib
