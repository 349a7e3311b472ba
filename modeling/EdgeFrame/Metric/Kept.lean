/-
# EdgeFrame.Metric.Kept -- what becomes of an added unit

A unit that was added is kept if it is still in the store of its action, or was copied
into the `data` of an execution that did not leave through its upload-failed return.
`getAndClear` empties the store before an execution knows whether it will report, so
a unit is lost with every execution that then does not. This module says which these
are, and that a run loses nothing exactly when it has none of them.

Units are numbered in the order in which they are added, and a counter carries the numbers
of its units beside its value, so that a statement about units is one about numbers. `Sound`
is the bookkeeping that every run keeps: the units in a store are those of its action, a
counter is their sum, and what is in a store has not been copied anywhere. Because of the
last part an execution that drops what it has taken really loses it: no other one has a
copy (`allKept_execute`).

An event of a `handler` or a `reSend` either reports its map or drops it (`handler_spec`,
`reSend_spec`), and which of the two it is can be told from its action and its upload.
-/
import EdgeFrame.Metric.Manager
import Mathlib

namespace EdgeFrame.Metric

open EdgeFrame.Lib

/-! ## The units of a map -/

/-- The `n`-th unit is in one of the counters. -/
def Metrics.Holds (metrics : Metrics) (n : Nat) : Prop :=
  ∃ ite ∈ metrics, n ∈ ite.2.units

/-- The `n`-th unit was copied into the data. -/
def Execution.Copied (x : Execution) (n : Nat) : Prop :=
  ∃ w ∈ x.data, n ∈ w.units

/-- A property of the counters after an `add`: the counter of `key` has grown or is new. -/
theorem Metrics.forall_add {P : String × Counter → Prop} {key : String} {value : Int} {n : Nat}
    (hgrow : ∀ c, P (key, c) → P (key, ⟨c.value + value, c.units ++ [n]⟩))
    (hnew : P (key, ⟨value, [n]⟩)) :
    ∀ {metrics : Metrics}, (∀ ite ∈ metrics, P ite) → ∀ ite ∈ metrics.add key value n, P ite := by
  intro metrics
  induction metrics with
  | nil =>
    intro _ ite hmem
    rw [Metrics.add, List.mem_singleton] at hmem
    rwa [hmem]
  | cons head metrics ih =>
    intro hall ite hmem
    obtain ⟨k, c⟩ := head
    obtain ⟨hhead, htail⟩ := List.forall_mem_cons.mp hall
    by_cases hk : k = key
    · rw [Metrics.add, if_pos hk, List.mem_cons] at hmem
      rcases hmem with rfl | hmem
      · subst hk
        exact hgrow c hhead
      · exact htail ite hmem
    · rw [Metrics.add, if_neg hk, List.mem_cons] at hmem
      rcases hmem with rfl | hmem
      · exact hhead
      · exact ih htail ite hmem

/-- What a map holds is held by its first counter or by the others. -/
theorem Metrics.holds_cons {ite : String × Counter} {metrics : Metrics} {n : Nat} :
    Metrics.Holds (ite :: metrics) n ↔ n ∈ ite.2.units ∨ metrics.Holds n := by
  simp [Metrics.Holds]

/-- An `add` puts its own unit into the map, and takes none out. -/
theorem Metrics.holds_add {key : String} {value : Int} {n j : Nat} {metrics : Metrics} :
    (metrics.add key value n).Holds j ↔ j = n ∨ metrics.Holds j := by
  induction metrics with
  | nil => simp [Metrics.add, Holds]
  | cons head metrics ih =>
    obtain ⟨k, c⟩ := head
    by_cases hk : k = key
    · rw [Metrics.add, if_pos hk, holds_cons, holds_cons, List.mem_append, List.mem_singleton]
      tauto
    · rw [Metrics.add, if_neg hk, holds_cons, holds_cons, ih]
      tauto

/-! ## What an execution copies -/

/-- What two parts of the data carry. -/
theorem copied_append {action : MetricAction} {failed : Bool} {l r : List Write} {n : Nat} :
    (⟨action, failed, l ++ r⟩ : Execution).Copied n ↔
      (⟨action, failed, l⟩ : Execution).Copied n ∨ (⟨action, failed, r⟩ : Execution).Copied n := by
  unfold Execution.Copied
  simp only [List.mem_append, or_and_right, exists_or]

/-- An assignment the event makes of its own carries no unit. -/
theorem not_copied_own {action : MetricAction} {failed : Bool} {l : List Write} {n : Nat}
    (h : ∀ w ∈ l, w.units = []) : ¬ (⟨action, failed, l⟩ : Execution).Copied n := by
  intro hcopied
  obtain ⟨w, hw, hn⟩ := hcopied
  rw [h w hw] at hn
  exact absurd hn (by simp)

/-- Copying a map copies what its counters hold, and nothing else. -/
theorem copied_map {action : MetricAction} {failed : Bool} {metrics : Metrics}
    {copy : String × Counter → Write} (hcopy : ∀ ite, (copy ite).units = ite.2.units) {n : Nat} :
    (⟨action, failed, metrics.map copy⟩ : Execution).Copied n ↔ metrics.Holds n := by
  unfold Execution.Copied Metrics.Holds
  simp only [List.mem_map, exists_exists_and_eq_and, hcopy]

/-- The copy of a counter has its units. -/
theorem copyModelMetric_units (ite : String × Counter) :
    (copyModelMetric ite).units = ite.2.units := by
  unfold copyModelMetric
  split
  · rfl
  · split
    · rfl
    · rfl

/-- The execution reports what it got: it copies the map and does not fail. -/
def Reports (metrics : Metrics) (x : Execution) : Prop :=
  x.failed = false ∧ ∀ n, x.Copied n ↔ metrics.Holds n

/-- The execution drops what it got: it fails, or copies none of it. -/
def Drops (x : Execution) : Prop :=
  x.failed = true ∨ ∀ n, ¬ x.Copied n

namespace LoggerEvent

/-- The executions of `handler` that report. -/
def HandlerReports (e : LoggerEvent) (up : Upload) : Prop :=
  e.action_ = .kAlgoModelMonitor ∨ e.action_ = .kAlgoDataMonitor ∨
    (e.action_ = .kImageStatusMonitor ∧ up.ok = true)

variable {e : LoggerEvent} {up : Upload} {metrics : Metrics}

/-- The stamps are not units. -/
theorem stamp_units : ∀ w ∈ e.stamp, w.units = [] := by
  simp [stamp]

/-- Between the event's own assignments only the copied map carries units. -/
theorem copied_between {action : MetricAction} {failed : Bool} {own : List Write}
    {copy : String × Counter → Write} (hcopy : ∀ ite, (copy ite).units = ite.2.units)
    (hown : ∀ w ∈ own, w.units = []) (n : Nat) :
    (⟨action, failed, e.stamp ++ metrics.map copy ++ own⟩ : Execution).Copied n ↔
      metrics.Holds n := by
  have hstamp : ¬ (⟨action, failed, e.stamp⟩ : Execution).Copied n := not_copied_own stamp_units
  have hlast : ¬ (⟨action, failed, own⟩ : Execution).Copied n := not_copied_own hown
  rw [copied_append, copied_append, copied_map hcopy]
  tauto

/-- Without the map there is nothing to carry a unit. -/
theorem not_copied_bare {action : MetricAction} {failed : Bool} {own : List Write}
    (hown : ∀ w ∈ own, w.units = []) (n : Nat) :
    ¬ (⟨action, failed, e.stamp ++ own⟩ : Execution).Copied n := by
  rw [copied_append, not_or]
  exact ⟨not_copied_own stamp_units, not_copied_own hown⟩

/-- **What `handler` does with its map**: it reports it, or drops it. -/
theorem handler_spec (e : LoggerEvent) (up : Upload) (metrics : Metrics) :
    (e.HandlerReports up → Reports metrics (e.handler metrics up)) ∧
      (¬ e.HandlerReports up → Drops (e.handler metrics up)) ∧
      ∀ n, (e.handler metrics up).Copied n → metrics.Holds n := by
  have hcamera : ∀ w ∈ [e.camera], w.units = [] := by simp [camera]
  unfold handler
  cases haction : e.action_ with
  | kAlgoModelMonitor =>
    refine ⟨fun _ => ⟨rfl, copied_between copyModelMetric_units hcamera⟩, fun hnot => ?_,
      fun n => (copied_between copyModelMetric_units hcamera n).mp⟩
    exact absurd (Or.inl haction) hnot
  | kAlgoDataMonitor =>
    refine ⟨fun _ => ⟨rfl, copied_between (fun _ => rfl) hcamera⟩, fun hnot => ?_,
      fun n => (copied_between (fun _ => rfl) hcamera n).mp⟩
    exact absurd (Or.inr (Or.inl haction)) hnot
  | kImageStatusMonitor =>
    have hreports : e.HandlerReports up ↔ up.ok = true := by simp [HandlerReports, haction]
    by_cases hok : up.ok = true
    · have hown : ∀ w ∈ [imageUrl up, e.camera], w.units = [] := by simp [imageUrl, camera]
      simp only [hok, if_true, List.append_assoc, List.cons_append, List.nil_append]
      simp only [← List.append_assoc]
      refine ⟨fun _ => ⟨rfl, copied_between (fun _ => rfl) hown⟩, fun hnot => ?_,
        fun n => (copied_between (fun _ => rfl) hown n).mp⟩
      exact absurd (hreports.mpr hok) hnot
    · have hown : ∀ w ∈ [imageUrl up], w.units = [] := by simp [imageUrl]
      simp only [if_neg hok]
      refine ⟨fun h => absurd (hreports.mp h) hok, fun _ => Or.inl rfl, ?_⟩
      exact fun n => (copied_between (fun _ => rfl) hown n).mp
  | kServiceVersionMonitor | kFlowStatusMonitor | kStreamStatusMonitor | kApiStatusMonitor =>
    have hnot : ¬ e.HandlerReports up := by simp [HandlerReports, haction]
    refine ⟨fun h => absurd h hnot, fun _ => Or.inr (not_copied_bare hcamera), fun n h => ?_⟩
    exact absurd h (not_copied_bare hcamera n)

/-- **What `reSend` does with its map**: a failed upload drops it, whatever the action. -/
theorem reSend_spec (e : LoggerEvent) (up : Upload) (metrics : Metrics) :
    (up.ok = true → Reports metrics (e.reSend metrics up)) ∧
      (up.ok ≠ true → Drops (e.reSend metrics up)) ∧
      ∀ n, (e.reSend metrics up).Copied n → metrics.Holds n := by
  unfold reSend
  by_cases hok : up.ok = true
  · have hown : ∀ w ∈ [imageUrl up, e.camera], w.units = [] := by simp [imageUrl, camera]
    rw [if_pos hok]
    refine ⟨fun _ => ⟨rfl, copied_between (fun _ => rfl) hown⟩, fun hnot => absurd hok hnot, ?_⟩
    exact fun n => (copied_between (fun _ => rfl) hown n).mp
  · rw [if_neg hok]
    refine ⟨fun h => absurd h hok, fun _ => Or.inl rfl, fun n h => ?_⟩
    exact absurd h (not_copied_own stamp_units)

end LoggerEvent

namespace Manager

/-! ## Where the units are -/

/-- What the `n`-th call of `add` added. -/
def amount (s : Manager) (n : Nat) : Int :=
  match s.added[n]? with
  | some (_, _, value) => value
  | none => 0

/-- What the bookkeeping of units says in every state. -/
structure Sound (s : Manager) : Prop where
  /-- a unit in the store of an action was added for it -/
  owner : ∀ action n, (s.metrics_ action).Holds n → ∃ key value,
    s.added[n]? = some (action, key, value)
  /-- a copied unit was added -/
  copied : ∀ x ∈ s.executions, ∀ n, x.Copied n → n < s.added.length
  /-- what is in the store was not copied yet -/
  apart : ∀ action n, (s.metrics_ action).Holds n → ∀ x ∈ s.executions, ¬ x.Copied n
  /-- a map that is not empty holds a unit -/
  nonempty : ∀ action, s.metrics_ action ≠ [] → ∃ n, (s.metrics_ action).Holds n
  /-- a counter is the sum of its units -/
  value : ∀ action, ∀ ite ∈ s.metrics_ action, ite.2.value = (ite.2.units.map s.amount).sum

/-- What is in a store was added. -/
theorem Sound.lt {s : Manager} (h : Sound s) {action : MetricAction} {n : Nat}
    (hn : (s.metrics_ action).Holds n) : n < s.added.length := by
  obtain ⟨key, value, hadded⟩ := h.owner action n hn
  obtain ⟨hlt, _⟩ := List.getElem?_eq_some_iff.mp hadded
  exact hlt

/-- Nothing has been added. -/
theorem sound_init : Sound {} := by
  refine ⟨?_, ?_, ?_, ?_, ?_⟩
  · intro action n hn
    exact absurd hn (by simp [Metrics.Holds])
  · intro x hx
    exact absurd hx (by simp)
  · intro action n _ x hx
    exact absurd hx (by simp)
  · intro action h
    exact absurd rfl h
  · intro action ite hite
    exact absurd hite (by simp)

section Add

variable {s : Manager} {action : MetricAction} {key : String} {value : Int}

/-- An `add` leaves the other actions alone. -/
theorem metrics_add_of_ne {other : MetricAction} (h : other ≠ action) :
    (s.add action key value).metrics_ other = s.metrics_ other :=
  Function.update_of_ne h ..

/-- And puts its unit into the map of its own. -/
theorem metrics_add_self : (s.add action key value).metrics_ action =
    (s.metrics_ action).add key value s.added.length :=
  Function.update_self ..

/-- After an `add` the store holds its unit, for its action, and what it held. -/
theorem holds_add {other : MetricAction} {n : Nat} :
    ((s.add action key value).metrics_ other).Holds n ↔
      (other = action ∧ n = s.added.length) ∨ (s.metrics_ other).Holds n := by
  by_cases h : other = action
  · subst h
    rw [metrics_add_self, Metrics.holds_add]
    simp
  · rw [metrics_add_of_ne h]
    simp [h]

/-- It is the last one that was added. -/
theorem added_add_of_lt {n : Nat} (h : n < s.added.length) :
    (s.add action key value).added[n]? = s.added[n]? :=
  List.getElem?_append_left h

/-- What the others amount to stays. -/
theorem amount_add_of_lt {n : Nat} (h : n < s.added.length) :
    (s.add action key value).amount n = s.amount n := by
  unfold amount
  rw [added_add_of_lt h]

/-- Its own amount is what was added. -/
theorem amount_add_self : (s.add action key value).amount s.added.length = value := by
  have hlast : (s.added ++ [(action, key, value)])[s.added.length]? = some (action, key, value) :=
    List.getElem?_concat_length
  unfold amount
  show (match (s.added ++ [(action, key, value)])[s.added.length]? with
    | some (_, _, value) => value
    | none => 0) = value
  rw [hlast]

/-- An `add` keeps the bookkeeping in order. -/
theorem Sound.add (h : Sound s) : Sound (s.add action key value) := by
  have hlength : (s.add action key value).added.length = s.added.length + 1 :=
    List.length_append
  refine ⟨?_, ?_, ?_, ?_, ?_⟩
  · intro other n hn
    rcases holds_add.mp hn with ⟨rfl, rfl⟩ | hold
    · exact ⟨key, value, List.getElem?_concat_length⟩
    · rw [added_add_of_lt (h.lt hold)]
      exact h.owner other n hold
  · intro x hx n hn
    have := h.copied x hx n hn
    omega
  -- the new unit has a number that nobody has copied
  · intro other n hn x hx hcopied
    rcases holds_add.mp hn with ⟨_, rfl⟩ | hold
    · exact absurd (h.copied x hx _ hcopied) (Nat.lt_irrefl _)
    · exact h.apart other n hold x hx hcopied
  · intro other hne
    by_cases hother : other = action
    · exact ⟨s.added.length, holds_add.mpr (Or.inl ⟨hother, rfl⟩)⟩
    · rw [metrics_add_of_ne hother] at hne ⊢
      exact h.nonempty other hne
  · -- the units that were there keep their amounts
    have hold (other : MetricAction) : ∀ ite ∈ s.metrics_ other,
        ite.2.value = (ite.2.units.map (s.add action key value).amount).sum := by
      intro ite hite
      have hsame : ite.2.units.map (s.add action key value).amount =
          ite.2.units.map s.amount :=
        List.map_congr_left fun n hn => amount_add_of_lt (h.lt ⟨ite, hite, hn⟩)
      rw [hsame]
      exact h.value other ite hite
    intro other
    by_cases hother : other = action
    · subst hother
      -- the counter of the key grows by the new unit, or is the new unit
      rw [metrics_add_self]
      refine Metrics.forall_add (fun c hc => ?_) ?_ (hold other)
      · show c.value + value = ((c.units ++ [s.added.length]).map _).sum
        rw [List.map_append, List.sum_append, ← hc, List.map_singleton, List.sum_singleton,
          amount_add_self]
      · show value = ([s.added.length].map _).sum
        rw [List.map_singleton, List.sum_singleton, amount_add_self]
    · rw [metrics_add_of_ne hother]
      exact hold other

end Add

/-! ## Kept units -/

/-- A unit of `action` is in its store, or was copied into the data of an execution that did not
leave through its upload-failed return. -/
def Kept (s : Manager) (action : MetricAction) (n : Nat) : Prop :=
  (s.metrics_ action).Holds n ∨
    ∃ x ∈ s.executions, x.action_ = action ∧ x.failed = false ∧ x.Copied n

/-- Every unit that was added is kept. -/
def AllKept (s : Manager) : Prop :=
  ∀ n action key value, s.added[n]? = some (action, key, value) → s.Kept action n

/-- An `add` loses nothing. -/
theorem allKept_add {s : Manager} {action : MetricAction} {key : String} {value : Int} :
    (s.add action key value).AllKept ↔ s.AllKept := by
  have hkept {other : MetricAction} {n : Nat} (hn : n < s.added.length) :
      (s.add action key value).Kept other n ↔ s.Kept other n := by
    have hne : ¬ (other = action ∧ n = s.added.length) := by omega
    unfold Kept
    rw [holds_add, or_iff_right hne]
    exact Iff.rfl
  constructor
  · intro hall n other k v hadded
    obtain ⟨hlt, _⟩ := List.getElem?_eq_some_iff.mp hadded
    apply (hkept hlt).mp
    exact hall n other k v (by rwa [added_add_of_lt hlt])
  · intro hall n other k v hadded
    by_cases hn : n < s.added.length
    · rw [added_add_of_lt hn] at hadded
      exact (hkept hn).mpr (hall n other k v hadded)
    · -- the new unit is in the store
      have hlt : n < s.added.length + 1 := by
        obtain ⟨hlt, _⟩ := List.getElem?_eq_some_iff.mp hadded
        simpa [Manager.add] using hlt
      obtain rfl : n = s.added.length := by omega
      have hself : (s.add action key value).added[s.added.length]? = some (action, key, value) :=
        List.getElem?_concat_length
      rw [hself] at hadded
      obtain ⟨rfl, _⟩ := Prod.mk.inj (Option.some.inj hadded)
      exact Or.inl (holds_add.mpr (Or.inl ⟨rfl, rfl⟩))

section Execute

variable {s : Manager} {action : MetricAction} {body : Metrics → Execution}

/-- An execution leaves the other actions alone. -/
theorem metrics_execute_of_ne {other : MetricAction} (h : other ≠ action) :
    (s.execute action body).metrics_ other = s.metrics_ other :=
  Function.update_of_ne h ..

/-- And its own map empty. -/
theorem metrics_execute_self : (s.execute action body).metrics_ action = [] :=
  Function.update_self ..

/-- It is the last one that was made. -/
theorem executions_execute :
    (s.execute action body).executions = s.executions ++ [body (s.metrics_ action)] := rfl

/-- After an execution the store holds what it did for the other actions. -/
theorem holds_execute {other : MetricAction} {n : Nat} :
    ((s.execute action body).metrics_ other).Holds n ↔
      other ≠ action ∧ (s.metrics_ other).Holds n := by
  by_cases h : other = action
  · subst h
    rw [metrics_execute_self]
    simp [Metrics.Holds]
  · rw [metrics_execute_of_ne h]
    simp [h]

/-- An execution that copies what it has taken, or some of it, keeps the bookkeeping in order. -/
theorem Sound.execute (h : Sound s)
    (hsub : ∀ n, (body (s.metrics_ action)).Copied n → (s.metrics_ action).Holds n) :
    Sound (s.execute action body) := by
  refine ⟨?_, ?_, ?_, ?_, ?_⟩
  · intro other n hn
    exact h.owner other n (holds_execute.mp hn).2
  · intro x hx n hn
    rw [executions_execute, List.mem_append, List.mem_singleton] at hx
    rcases hx with hx | rfl
    · exact h.copied x hx n hn
    · exact h.lt (hsub n hn)
  · intro other n hn x hx hcopied
    obtain ⟨hne, hold⟩ := holds_execute.mp hn
    rw [executions_execute, List.mem_append, List.mem_singleton] at hx
    rcases hx with hx | rfl
    · exact h.apart other n hold x hx hcopied
    · -- one unit cannot be in the stores of two actions
      obtain ⟨k, v, hother⟩ := h.owner other n hold
      obtain ⟨k', v', haction⟩ := h.owner action n (hsub n hcopied)
      rw [hother] at haction
      exact hne (Prod.mk.inj (Option.some.inj haction)).1
  · intro other hne
    by_cases hother : other = action
    · subst hother
      exact absurd metrics_execute_self hne
    · rw [metrics_execute_of_ne hother] at hne ⊢
      exact h.nonempty other hne
  · intro other
    by_cases hother : other = action
    · subst hother
      rw [metrics_execute_self]
      intro ite hite
      exact absurd hite (by simp)
    · rw [metrics_execute_of_ne hother]
      exact h.value other

/-- **An execution loses nothing exactly when it reports, or finds its store empty.**

From left to right, a map that is not empty holds a unit, which the execution would have lost. -/
theorem allKept_execute {good : Prop} (h : Sound s)
    (haction : (body (s.metrics_ action)).action_ = action)
    (hgood : good → Reports (s.metrics_ action) (body (s.metrics_ action)))
    (hbad : ¬ good → Drops (body (s.metrics_ action)))
    (hsub : ∀ n, (body (s.metrics_ action)).Copied n → (s.metrics_ action).Holds n) :
    (s.execute action body).AllKept ↔ s.AllKept ∧ (s.metrics_ action = [] ∨ good) := by
  constructor
  · intro hall
    refine ⟨fun n other k v hadded => ?_, ?_⟩
    · rcases hall n other k v hadded with hold | ⟨x, hx, hother, hok, hcopied⟩
      · exact Or.inl (holds_execute.mp hold).2
      · rw [executions_execute, List.mem_append, List.mem_singleton] at hx
        rcases hx with hx | rfl
        · exact Or.inr ⟨x, hx, hother, hok, hcopied⟩
        -- copied by this very execution, so that it was in the store
        · rw [haction] at hother
          subst hother
          exact Or.inl (hsub n hcopied)
    · by_contra hlost
      -- a unit of the store would have been lost: no other execution has a copy
      rw [not_or] at hlost
      obtain ⟨n, hn⟩ := h.nonempty action hlost.1
      obtain ⟨k, v, hadded⟩ := h.owner action n hn
      rcases hall n action k v hadded with hold | ⟨x, hx, _, hok, hcopied⟩
      · exact (holds_execute.mp hold).1 rfl
      · rw [executions_execute, List.mem_append, List.mem_singleton] at hx
        rcases hx with hx | rfl
        · exact h.apart action n hn x hx hcopied
        · rcases hbad hlost.2 with hfailed | hnone
          · rw [hok] at hfailed
            exact absurd hfailed (by decide)
          · exact hnone n hcopied
  · rintro ⟨hall, hkeeps⟩ n other k v hadded
    rcases hall n other k v hadded with hold | ⟨x, hx, hother, hok, hcopied⟩
    -- a unit of this action is reported, unless the store is empty
    · by_cases hother : other = action
      · subst hother
        have hreports := hgood (hkeeps.resolve_left fun hnil => by
          rw [hnil] at hold
          exact absurd hold (by simp [Metrics.Holds]))
        refine Or.inr ⟨_, List.mem_append_right _ List.mem_cons_self, haction, hreports.1, ?_⟩
        exact (hreports.2 n).mpr hold
      · exact Or.inl (holds_execute.mpr ⟨hother, hold⟩)
    · exact Or.inr ⟨x, List.mem_append_left _ hx, hother, hok, hcopied⟩

end Execute

/-! ## Whole runs -/

/-- The event does not drop what it takes from the store: it is an `add`, finds the store of its
action empty, or is one of the executions that report. -/
def Keeps (s : Manager) : Event → Prop
  | .add _ _ _ => True
  | .handler e up => s.metrics_ e.action_ = [] ∨ e.HandlerReports up
  | .reSend e up => s.metrics_ e.action_ = [] ∨ up.ok = true

instance (e : LoggerEvent) (up : Upload) : Decidable (e.HandlerReports up) :=
  inferInstanceAs (Decidable (_ ∨ _ ∨ (_ ∧ _)))

instance (s : Manager) : ∀ e : Event, Decidable (s.Keeps e)
  | .add _ _ _ => isTrue trivial
  | .handler _ _ => inferInstanceAs (Decidable (_ ∨ _))
  | .reSend _ _ => inferInstanceAs (Decidable (_ ∨ _))

/-- An execution of `handler` is for the action of its event. -/
theorem handler_action (e : LoggerEvent) (metrics : Metrics) (up : Upload) :
    (e.handler metrics up).action_ = e.action_ := by
  unfold LoggerEvent.handler
  cases e.action_ with
  | kImageStatusMonitor =>
    show (if up.ok = true then _ else _ : Execution).action_ = _
    split
    · rfl
    · rfl
  | kServiceVersionMonitor | kAlgoModelMonitor | kAlgoDataMonitor | kFlowStatusMonitor
  | kStreamStatusMonitor | kApiStatusMonitor => rfl

/-- One of `reSend` too. -/
theorem reSend_action (e : LoggerEvent) (metrics : Metrics) (up : Upload) :
    (e.reSend metrics up).action_ = e.action_ := by
  unfold LoggerEvent.reSend
  split
  · rfl
  · rfl

/-- One event keeps the bookkeeping in order. -/
theorem Sound.step {s : Manager} (h : Sound s) (e : Event) : Sound (s.step e) := by
  cases e with
  | add action key value => exact h.add
  | handler e up =>
    show Sound (s.execute e.action_ fun metrics => e.handler metrics up)
    exact h.execute (LoggerEvent.handler_spec e up _).2.2
  | reSend e up =>
    show Sound (s.execute e.action_ fun metrics => e.reSend metrics up)
    exact h.execute (LoggerEvent.reSend_spec e up _).2.2

/-- One event loses nothing exactly when it `Keeps`. -/
theorem allKept_step {s : Manager} (h : Sound s) (e : Event) :
    (s.step e).AllKept ↔ s.AllKept ∧ s.Keeps e := by
  cases e with
  | add action key value =>
    show (s.add action key value).AllKept ↔ s.AllKept ∧ True
    rw [allKept_add, and_true]
  | handler e up =>
    obtain ⟨hgood, hbad, hsub⟩ := LoggerEvent.handler_spec e up (s.metrics_ e.action_)
    exact allKept_execute h (handler_action e _ up) hgood hbad hsub
  | reSend e up =>
    obtain ⟨hgood, hbad, hsub⟩ := LoggerEvent.reSend_spec e up (s.metrics_ e.action_)
    exact allKept_execute h (reSend_action e _ up) hgood hbad hsub

/-- In every run the bookkeeping is in order. -/
theorem sound_run (evs : List Event) : Sound (run evs) := by
  unfold run
  apply List.foldlRecOn
  · exact sound_init
  · exact fun s hs e _ => hs.step e

/-- **Units are what the counters count**: in every run a counter is the sum of its units. -/
theorem counter_eq_sum (evs : List Event) (action : MetricAction) :
    ∀ ite ∈ (run evs).metrics_ action, ite.2.value = (ite.2.units.map (run evs).amount).sum :=
  (sound_run evs).value action

/-- From a sound state a run loses nothing more exactly when each of its events `Keeps`. -/
theorem allKept_foldl (evs : List Event) {s : Manager} (h : Sound s) :
    (evs.foldl Manager.step s).AllKept ↔ s.AllKept ∧ EachStep Manager.step Keeps s evs :=
  foldl_iff_eachStep (fun _ e hs => Sound.step hs e) (fun _ e hs => allKept_step hs e) evs h

/-- **A run keeps every unit exactly when each of its executions reports what it takes**: whenever
`getAndClear` hands over a map that is not empty, it is to the handler of a model or a data monitor,
or to an image monitor or a `reSend` whose upload succeeds.

The run is taken apart into its events by `allKept_step`, from states that are `Sound`; whether an
event `Keeps` depends on the store that it finds, on its action and on its upload. -/
theorem metrics_kept_iff (evs : List Event) :
    (run evs).AllKept ↔ EachStep Manager.step Keeps {} evs := by
  unfold run
  rw [allKept_foldl evs sound_init]
  refine and_iff_right fun n action key value hadded => ?_
  exact absurd hadded (by simp)

/-- **Units are lost**: through a failed upload of the image monitor, through a failed `reSend`, and
with every event of an action that `handler` does not copy. -/
theorem metrics_lost :
    ¬ (run [.add .kImageStatusMonitor "cv_image_count" 1,
        .handler ⟨"sn", 0, .kImageStatusMonitor⟩ ⟨false, ""⟩]).AllKept ∧
      ¬ (run [.add .kAlgoModelMonitor "cv_detect_count" 1,
        .reSend ⟨"sn", 0, .kAlgoModelMonitor⟩ ⟨false, ""⟩]).AllKept ∧
      ¬ (run [.add .kStreamStatusMonitor "cv_stream_count" 1,
        .handler ⟨"sn", 0, .kStreamStatusMonitor⟩ ⟨true, ""⟩]).AllKept := by
  have hlost {evs : List Event} (h : ¬ EachStep Manager.step Keeps {} evs) : ¬ (run evs).AllKept :=
    fun hall => h ((allKept_foldl evs sound_init).mp hall).2
  exact ⟨hlost (by decide), hlost (by decide), hlost (by decide)⟩

end Manager

end EdgeFrame.Metric
