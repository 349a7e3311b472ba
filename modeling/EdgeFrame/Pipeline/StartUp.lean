/-
# EdgeFrame.Pipeline.StartUp -- what the start-up leaves behind

`Build` never fails: it reads `feature_map` with a subscript, so that an unknown feature is
an empty pipeline and adds nothing. What it has started is described by `Started`, kept
by each feature. `DetectorProcessor::init` then reads the same map, and takes the first
processor of each pipeline without looking whether there is one.

A pointer is followed by the name it was looked up with: `Bound` says that it is that of the
queue registered there, which stays so while queues are added and none removed
(`Bound.grow`). So the features can be started one after the other without going back to
those before, and `Linked` can say of the detector, too, which names it has so far.
-/
import EdgeFrame.Lib.Outcome
import EdgeFrame.Pipeline.Wiring
import Mathlib

namespace EdgeFrame.Pipeline

open Lib

/-! ## Pointers and names -/

/-- The pointer is that of the queue registered under `name`. -/
def Bound (queues : Registry String) (name : String) (ptr : QueuePtr) : Prop :=
  ∃ q, ptr = some q ∧ queues.lookup name = some q

/-- The pointer is what the registry has. -/
theorem Bound.ptr_eq {queues : Registry String} {name : String} {ptr : QueuePtr}
    (h : Bound queues name ptr) : ptr = queues.lookup name := by
  obtain ⟨q, rfl, hq⟩ := h
  exact hq.symm

/-- It is not null. -/
theorem Bound.ne_none {queues : Registry String} {name : String} {ptr : QueuePtr}
    (h : Bound queues name ptr) : ptr ≠ none := by
  obtain ⟨q, rfl, -⟩ := h
  exact Option.some_ne_none q

/-- A registered queue stays registered. -/
theorem Bound.grow {queues queues' : Registry String} {name : String} {ptr : QueuePtr}
    (h : Bound queues name ptr) (hgrows : queues.Grows queues') : Bound queues' name ptr := by
  obtain ⟨q, hptr, hq⟩ := h
  exact ⟨q, hptr, hgrows name q hq⟩

/-- A queue that is there is found, and its pointer taken. -/
theorem bound_SafeGet {queues : Registry String} {name : String} {q : Nat}
    (h : queues.lookup name = some q) (val : QueuePtr) :
    Bound queues name (SafeGet queues name val) := by
  refine ⟨q, ?_, h⟩
  unfold SafeGet
  rw [h]

/-- The pointers of a processor are those of the queues it is meant to have. -/
def Processor.Wired (queues : Registry String) (p : Processor) : Prop :=
  match p.kind with
  | .monitor =>
    Bound queues WHALE_PROCESSOR_MONITOR p.input_queue_ ∧
      Bound queues WHALE_PROCESSOR_DISPATCH p.output_queue_
  | .detector =>
    Bound queues WHALE_PROCESSOR_DETECT p.input_queue_ ∧
      Bound queues WHALE_PROCESSOR_DISPATCH p.output_queue_ ∧
      ∀ e ∈ p.next_processor_unit_.entries, Bound queues e.1 e.2
  | .dispatch => Bound queues WHALE_PROCESSOR_DISPATCH p.input_queue_
  | .flowRpcAsyn => True
  | .usbDeviceLoader | .rtspLoader | .localVideoLoader =>
    Bound queues WHALE_PROCESSOR_DETECT p.output_queue_

/-- A processor stays wired when queues are added. -/
theorem Processor.Wired.grow {queues queues' : Registry String} {p : Processor}
    (h : p.Wired queues) (hgrows : queues.Grows queues') : p.Wired queues' := by
  unfold Processor.Wired at h ⊢
  split at h
  · exact ⟨h.1.grow hgrows, h.2.grow hgrows⟩
  · exact ⟨h.1.grow hgrows, h.2.1.grow hgrows, fun e he => (h.2.2 e he).grow hgrows⟩
  · exact h.grow hgrows
  · trivial
  · exact h.grow hgrows
  · exact h.grow hgrows
  · exact h.grow hgrows

/-! ## The features -/

/-- Every name but one has an empty pipeline. -/
theorem feature_map_value (f : String) :
    feature_map.value f = if f = "monitor" then [WHALE_PROCESSOR_MONITOR] else [] := by
  unfold feature_map Dict.value
  split
  · rename_i hf
    rw [hf, AList.lookup_insert]
    rfl
  · rename_i hf
    rw [AList.lookup_insert_ne hf]
    rfl

/-- The one feature that is known. -/
theorem mem_feature_map {f : String} : f ∈ feature_map ↔ f = "monitor" := by
  unfold feature_map
  rw [AList.mem_insert]
  simp

/-- What the global processors and the features in `done` have started. -/
structure Started (done : List String) (w : Wiring) : Prop where
  /-- reading the map has changed no pipeline -/
  pipelines : ∀ f, w.feature_map.value f = feature_map.value f
  dispatch : ∃ q, w.queues.lookup WHALE_PROCESSOR_DISPATCH = some q
  monitor : "monitor" ∈ done → ∃ q, w.queues.lookup WHALE_PROCESSOR_MONITOR = some q
  stream : w.queues.lookup WHALE_PROCESSOR_WEBSOCKETSTREAM = none
  kinds : w.threads.map (·.kind) = [.dispatch, .flowRpcAsyn] ++
    List.replicate (done.count "monitor") .monitor
  wired : ∀ p ∈ w.threads, p.Wired w.queues

/-- The global processors. -/
theorem started_global (features : List String) :
    ∃ w, BuildAndStartGlobal features {} = .ok w ∧ Started [] w := by
  refine ⟨_, rfl, ?_⟩
  have hdispatch : Registry.lookup
      ((Registry.empty.add WHALE_PROCESSOR_DISPATCH).add WHALE_PROCESSOR_FLOWRPC)
      WHALE_PROCESSOR_DISPATCH = some 0 := by decide
  constructor
  · exact fun f => rfl
  · exact ⟨0, hdispatch⟩
  · exact fun h => absurd h (by simp)
  · show Registry.lookup ((Registry.empty.add WHALE_PROCESSOR_DISPATCH).add
      WHALE_PROCESSOR_FLOWRPC) WHALE_PROCESSOR_WEBSOCKETSTREAM = none
    decide
  · rfl
  · intro p hp
    rcases List.mem_cons.mp hp with rfl | hp
    · exact ⟨0, rfl, hdispatch⟩
    · obtain rfl := List.mem_singleton.mp hp
      trivial

/-- A feature reads its pipeline with a subscript, which leaves an entry behind, and builds it. -/
theorem Build_eq (features : List String) (f : String) (w : Wiring) :
    Build features f w = buildPipeline features (w.feature_map.value f)
      { w with feature_map := (w.feature_map.subscript f).2 } := by
  unfold Build
  simp only [Dict.subscript_fst]

/-- What a feature adds: a processor of its own for "monitor", nothing for any other name. -/
theorem Started.step {done : List String} {w : Wiring} (h : Started done w)
    (features : List String) (feature : String) :
    ∃ w', buildFeature features w feature = .ok w' ∧ Started (done ++ [feature]) w' := by
  have hpipelines : ∀ f, (w.feature_map.subscript feature).2.value f = feature_map.value f := by
    intro f
    rw [Dict.value_subscript, h.pipelines]
  by_cases hmonitor : feature = "monitor"
  · subst hmonitor
    have hbuild : Build features "monitor" w = buildPipeline features [WHALE_PROCESSOR_MONITOR]
        { w with feature_map := (w.feature_map.subscript "monitor").2 } := by
      rw [Build_eq, h.pipelines]
      rfl
    obtain ⟨qd, hqd⟩ := h.dispatch
    -- the second "monitor" finds the queue of the first one
    obtain ⟨qm, hqm⟩ := w.queues.lookup_add_self WHALE_PROCESSOR_MONITOR
    have hgrows := w.queues.grows_add WHALE_PROCESSOR_MONITOR
    have hqd' := hgrows _ _ hqd
    refine ⟨_, by unfold buildFeature; rw [hbuild]; rfl, ?_⟩
    constructor
    · exact hpipelines
    · exact ⟨qd, hqd'⟩
    · exact fun _ => ⟨qm, hqm⟩
    · show (w.queues.add WHALE_PROCESSOR_MONITOR).lookup WHALE_PROCESSOR_WEBSOCKETSTREAM = none
      rw [Registry.lookup_add_ne (by decide)]
      exact h.stream
    · show List.map Processor.kind (w.threads ++ [_]) = _
      rw [List.map_append, h.kinds, List.count_append, List.count_singleton_self,
        List.replicate_add, List.append_assoc]
      rfl
    · intro p hp
      rcases List.mem_append.mp hp with hp | hp
      · exact (h.wired p hp).grow hgrows
      · obtain rfl := List.mem_singleton.mp hp
        exact ⟨bound_SafeGet hqm none, bound_SafeGet hqd' none⟩
  · -- an empty pipeline: only the map has changed
    have hvalue : feature_map.value feature = [] := by
      rw [feature_map_value, if_neg hmonitor]
    have hbuild : Build features feature w =
        .ok ({ w with feature_map := (w.feature_map.subscript feature).2 }, []) := by
      rw [Build_eq, h.pipelines, hvalue]
      rfl
    refine ⟨_, by unfold buildFeature; rw [hbuild]; rfl, ?_⟩
    have hthreads : w.threads ++ [] = w.threads := List.append_nil _
    constructor
    · exact hpipelines
    · exact h.dispatch
    · intro hmem
      rcases List.mem_append.mp hmem with hmem | hmem
      · exact h.monitor hmem
      · exact absurd (List.mem_singleton.mp hmem).symm hmonitor
    · exact h.stream
    · show List.map Processor.kind (w.threads ++ []) = _
      rw [hthreads, h.kinds, List.count_append, List.count_singleton]
      simp [hmonitor]
    · show ∀ p ∈ w.threads ++ [], p.Wired w.queues
      rw [hthreads]
      exact h.wired

/-- **The features never stop the start-up**, whatever their names. -/
theorem started_features (features : List String) :
    ∃ w, buildFeatures features = .ok w ∧ Started features w := by
  have hloop : ∀ (todo done : List String) (w : Wiring), Started done w →
      ∃ w', todo.foldlM (buildFeature features) w = .ok w' ∧ Started (done ++ todo) w' := by
    intro todo
    induction todo with
    | nil => exact fun done w h => ⟨w, rfl, by rwa [List.append_nil]⟩
    | cons feature todo ih =>
      intro done w h
      obtain ⟨w₁, hfeature, h₁⟩ := h.step features feature
      obtain ⟨w', hrest, h'⟩ := ih _ w₁ h₁
      refine ⟨w', ?_, by rwa [List.append_assoc] at h'⟩
      rw [List.foldlM_cons, hfeature]
      exact hrest
  obtain ⟨w₀, hglobal, h₀⟩ := started_global features
  obtain ⟨w, hfeatures, h⟩ := hloop features [] w₀ h₀
  refine ⟨w, ?_, h⟩
  unfold buildFeatures
  rw [hglobal]
  exact hfeatures

/-! ## The detector -/

/-- The detector once the names in `done` are among its next processors. -/
structure Linked (done : List String) (w w' : Wiring) (p : Processor) : Prop where
  pipelines : ∀ f, w'.feature_map.value f = feature_map.value f
  queues : w'.queues = w.queues
  threads : w'.threads = w.threads
  isLocalInput : w'.isLocalInput = w.isLocalInput
  kind : p.kind = .detector
  input : Bound w.queues WHALE_PROCESSOR_DETECT p.input_queue_
  output : Bound w.queues WHALE_PROCESSOR_DISPATCH p.output_queue_
  next : ∀ e ∈ p.next_processor_unit_.entries, Bound w.queues e.1 e.2
  keys : ∀ name, name ∈ p.next_processor_unit_.keys ↔ name = WHALE_PROCESSOR_MONITOR ∧ done ≠ []

/-- A known feature is linked. -/
theorem Linked.step {done : List String} {w w' : Wiring} {p : Processor} (h : Linked done w w' p)
    {q : Nat} (hq : w.queues.lookup WHALE_PROCESSOR_MONITOR = some q) :
    ∃ s, DetectorProcessor.addNext (w', p) "monitor" = .ok s ∧
      Linked (done ++ ["monitor"]) w s.1 s.2 := by
  have hpipeline : (w'.feature_map.subscript "monitor").1 = [WHALE_PROCESSOR_MONITOR] := by
    rw [Dict.subscript_fst, h.pipelines]
    rfl
  refine ⟨_, by unfold DetectorProcessor.addNext; simp only [hpipeline]; rfl, ?_⟩
  have hq' : w'.queues.lookup WHALE_PROCESSOR_MONITOR = some q := h.queues ▸ hq
  constructor
  · intro f
    show (w'.feature_map.subscript "monitor").2.value f = _
    rw [Dict.value_subscript, h.pipelines]
  · exact h.queues
  · exact h.threads
  · exact h.isLocalInput
  · exact h.kind
  · exact h.input
  · exact h.output
  · intro e he
    rcases Dict.mem_entries_insert he with rfl | he
    · exact h.queues ▸ bound_SafeGet hq' none
    · exact h.next e he
  · intro name
    show name ∈ AList.insert WHALE_PROCESSOR_MONITOR _ _ ↔ _
    rw [AList.mem_insert]
    constructor
    · intro hname
      exact ⟨hname.elim id fun hold => ((h.keys name).mp hold).1, by simp⟩
    · exact fun hname => Or.inl hname.1

/-- An unknown feature ends the start-up. -/
theorem Linked.unknown {done : List String} {w w' : Wiring} {p : Processor}
    (h : Linked done w w' p) {feature : String} (hfeature : feature ≠ "monitor") :
    DetectorProcessor.addNext (w', p) feature = .error (.emptyPipeline feature) := by
  have hpipeline : (w'.feature_map.subscript feature).1 = [] := by
    rw [Dict.subscript_fst, h.pipelines, feature_map_value, if_neg hfeature]
  unfold DetectorProcessor.addNext
  simp only [hpipeline]
  rfl

/-- The loop of `DetectorProcessor::init`: it links every feature, or stops at an unknown one. -/
theorem Linked.loop {w : Wiring} : ∀ {todo done : List String} {w' : Wiring} {p : Processor},
    Linked done w w' p →
    ("monitor" ∈ todo → ∃ q, w.queues.lookup WHALE_PROCESSOR_MONITOR = some q) →
    (∃ s, todo.foldlM DetectorProcessor.addNext (w', p) = .ok s ∧ Linked (done ++ todo) w s.1 s.2 ∧
      ∀ f ∈ todo, f = "monitor") ∨
    ∃ f ∈ todo, f ≠ "monitor" ∧
      todo.foldlM DetectorProcessor.addNext (w', p) = .error (.emptyPipeline f) := by
  intro todo
  induction todo with
  | nil =>
    intro done w' p h _
    exact Or.inl ⟨(w', p), rfl, by rwa [List.append_nil], fun f hf => absurd hf (by simp)⟩
  | cons feature todo ih =>
    intro done w' p h hmonitor
    by_cases hfeature : feature = "monitor"
    · subst hfeature
      obtain ⟨q, hq⟩ := hmonitor List.mem_cons_self
      obtain ⟨s, hs, hlinked⟩ := h.step hq
      rw [List.foldlM_cons, hs]
      have hrest : "monitor" ∈ todo → ∃ q, w.queues.lookup WHALE_PROCESSOR_MONITOR = some q :=
        fun _ => ⟨q, hq⟩
      rcases ih hlinked hrest with ⟨s', hs', hlinked', hall⟩ | ⟨f, hf, hunknown, hstop⟩
      · refine Or.inl ⟨s', hs', by rwa [List.append_assoc] at hlinked', ?_⟩
        exact List.forall_mem_cons.mpr ⟨rfl, hall⟩
      · exact Or.inr ⟨f, List.mem_cons_of_mem _ hf, hunknown, hstop⟩
    · refine Or.inr ⟨feature, List.mem_cons_self, hfeature, ?_⟩
      rw [List.foldlM_cons, h.unknown hfeature]
      rfl

/-- The state in which `BuildAndStartCoreGlobal` has built the detector. -/
def builtDetector (w : Wiring) : Wiring × Processor :=
  ({ w with queues := w.queues.add WHALE_PROCESSOR_DETECT },
    { kind := .detector, params := none, next_processor_name_ := "" })

/-- The detector is built like any other processor. -/
theorem buildProcessor_detector (w : Wiring) :
    buildProcessor WHALE_PROCESSOR_DETECT "" none w = .ok (builtDetector w) := rfl

/-- **The detector after the features**: it is linked to every feature, or has stopped at an unknown
one. -/
theorem Started.detector {features : List String} {w : Wiring} (h : Started features w) :
    (∃ s, DetectorProcessor.init features (builtDetector w).1 (builtDetector w).2 = .ok s ∧
      Linked features (builtDetector w).1 s.1 s.2 ∧ ∀ f ∈ features, f = "monitor") ∨
    ∃ f ∈ features, f ≠ "monitor" ∧
      DetectorProcessor.init features (builtDetector w).1 (builtDetector w).2 =
        .error (.emptyPipeline f) := by
  obtain ⟨qi, hqi⟩ := w.queues.lookup_add_self WHALE_PROCESSOR_DETECT
  obtain ⟨qd, hqd⟩ := h.dispatch
  have hgrows := w.queues.grows_add WHALE_PROCESSOR_DETECT
  have hlinked : Linked [] (builtDetector w).1 (builtDetector w).1
      (((builtDetector w).2.getInput (builtDetector w).1.queues).getOutput
        (builtDetector w).1.queues WHALE_PROCESSOR_DISPATCH) := by
    constructor
    · exact h.pipelines
    · rfl
    · rfl
    · rfl
    · rfl
    · exact bound_SafeGet hqi none
    · exact bound_SafeGet (hgrows _ _ hqd) none
    · exact fun e he => absurd he (by simp [builtDetector, Processor.getInput, Processor.getOutput])
    · exact fun n => by simp [builtDetector, Processor.getInput, Processor.getOutput]
  refine Linked.loop hlinked fun hmem => ?_
  obtain ⟨q, hq⟩ := h.monitor hmem
  exact ⟨q, hgrows _ _ hq⟩

/-- After the features have been built, the detector takes the first processor of non-empty
pipelines only, and finds the queue of each. -/
def DetectorStarts (features : List String) : Prop :=
  ∃ w built s, buildFeatures features = .ok w ∧
    buildProcessor WHALE_PROCESSOR_DETECT "" none w = .ok built ∧
    DetectorProcessor.init features built.1 built.2 = .ok s ∧
    ∀ e ∈ s.2.next_processor_unit_.entries, e.2 ≠ none

/-- **The start-up is defined for known features only.** The detector finds a queue for each feature
exactly when every one of them has a pipeline in `feature_map`.

`Linked.loop` goes through the features in their order, so that the first unknown one decides. -/
theorem detectorStarts_iff (features : List String) :
    DetectorStarts features ↔ ∀ f ∈ features, f ∈ feature_map := by
  obtain ⟨w, hfeatures, hstarted⟩ := started_features features
  constructor
  · intro ⟨w', built, s, hw', hbuilt, hinit, _⟩ f hf
    obtain rfl : w = w' := Except.ok.inj (hfeatures.symm.trans hw')
    obtain rfl := Except.ok.inj ((buildProcessor_detector w).symm.trans hbuilt)
    rcases hstarted.detector with ⟨s', -, -, hall⟩ | ⟨f', hf', hunknown, hstop⟩
    · exact mem_feature_map.mpr (hall f hf)
    · exact absurd (hstop.symm.trans hinit) (by simp)
  · intro hknown
    rcases hstarted.detector with ⟨s, hs, hlinked, -⟩ | ⟨f, hf, hunknown, -⟩
    · exact ⟨w, _, s, hfeatures, buildProcessor_detector w, hs,
        fun e he => (hlinked.next e he).ne_none⟩
    · exact absurd (mem_feature_map.mp (hknown f hf)) hunknown

/-- The feature of the configuration that comes with the code has no pipeline. -/
theorem detector_stops_peoplecounting : ¬ ∀ features, DetectorStarts features := by
  intro h
  obtain ⟨w, built, s, hfeatures, hbuilt, hinit, -⟩ := h ["peoplecounting"]
  obtain ⟨w', hw', hstarted⟩ := started_features ["peoplecounting"]
  obtain rfl : w' = w := Except.ok.inj (hw'.symm.trans hfeatures)
  obtain rfl := Except.ok.inj ((buildProcessor_detector w').symm.trans hbuilt)
  rcases hstarted.detector with ⟨_, -, -, hall⟩ | ⟨f, -, -, hstop⟩
  · exact absurd (hall "peoplecounting" List.mem_cons_self) (by decide)
  · exact absurd (hstop.symm.trans hinit) (by simp)

end EdgeFrame.Pipeline
