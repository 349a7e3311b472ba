/-
# EdgeFrame.Pipeline.Sharing -- which threads share a queue

A pointer that was looked up by name can be counted as a name: `Roster` lists the threads
of a configuration, `Kind.sinks` and `Kind.sources` the names of the queues each of them
works on. The dispatcher's queue has the detector and every feature for producers, the
detector's every video input; only a start without features and with one video input
keeps to what `spsc_queue` needs.

The roster is that of every start-up that goes through: the global processors and the
features (`Pipeline.StartUp`), the detector, and one loader for each different video input
(`Built`, `startedLoaders`), since a second loader for the same input finds the executor of
the first. Counting is then a matter of lists: `Roster.producers` and `Roster.consumers` give
the threads of every queue as a sum over the roster, and `spsc_iff` asks when these sums are
at most one.
-/
import EdgeFrame.Pipeline.StartUp
import Mathlib

namespace EdgeFrame.Pipeline

open Lib

/-! ## Names for pointers -/

/-- Getting a queue that is bound or not. -/
theorem SafeGet_none (queues : Registry String) (name : String) :
    SafeGet queues name none = queues.lookup name := by
  unfold SafeGet
  split
  · rename_i h
    exact h.symm
  · rename_i h
    exact h.symm

/-- The queues a class pushes to, the next processors of a detector apart. -/
def Kind.sinks : Kind → List String
  | .monitor => [WHALE_PROCESSOR_DISPATCH]
  | .detector => [WHALE_PROCESSOR_DISPATCH, WHALE_PROCESSOR_WEBSOCKETSTREAM]
  | .usbDeviceLoader => [WHALE_PROCESSOR_DETECT, WHALE_PROCESSOR_WEBSOCKETSTREAM]
  | .rtspLoader | .localVideoLoader => [WHALE_PROCESSOR_DETECT]
  | .dispatch | .flowRpcAsyn => []

/-- The queues a class pops from. -/
def Kind.sources : Kind → List String
  | .monitor => [WHALE_PROCESSOR_MONITOR]
  | .detector => [WHALE_PROCESSOR_DETECT]
  | .dispatch => [WHALE_PROCESSOR_DISPATCH]
  | .flowRpcAsyn | .usbDeviceLoader | .rtspLoader | .localVideoLoader => []

/-- The queues a processor pushes to, the next processors of a detector among them. -/
def Processor.sinks (p : Processor) : List String :=
  p.kind.sinks ++ if p.kind = .detector then p.next_processor_unit_.keys else []

/-- What a wired processor pops from. -/
theorem Processor.Wired.pops {queues : Registry String} {p : Processor} (h : p.Wired queues) :
    p.pops = p.kind.sources.map queues.lookup := by
  unfold Processor.Wired at h
  unfold Processor.pops
  split at h <;> rename_i hkind <;> rw [hkind]
  · exact congrArg (fun ptr => [ptr]) h.1.ptr_eq
  · exact congrArg (fun ptr => [ptr]) h.1.ptr_eq
  · exact congrArg (fun ptr => [ptr]) h.ptr_eq
  all_goals rfl

/-- And what it pushes to. -/
theorem Processor.Wired.pushes {queues : Registry String} {p : Processor} (h : p.Wired queues) :
    p.pushes queues = p.sinks.map queues.lookup := by
  unfold Processor.Wired at h
  unfold Processor.pushes Processor.sinks
  split at h <;> rename_i hkind <;> rw [hkind]
  · exact congrArg (fun ptr => [ptr]) h.2.ptr_eq
  · have hnext : p.next_processor_unit_.entries.map (·.2) =
        p.next_processor_unit_.keys.map queues.lookup := by
      unfold AList.keys List.keys
      rw [List.map_map]
      exact List.map_congr_left fun e he => (h.2.2 e he).ptr_eq
    rw [List.map_append]
    show _ :: _ :: p.next_processor_unit_.entries.map (·.2) = [_, _] ++ _
    rw [hnext, h.2.1.ptr_eq, SafeGet_none]
    rfl
  · rfl
  · rfl
  · show [_, _] = [_, _]
    rw [h.ptr_eq, SafeGet_none]
  · exact congrArg (fun ptr => [ptr]) h.ptr_eq
  · exact congrArg (fun ptr => [ptr]) h.ptr_eq

/-- The producers of a queue, counted by its name. -/
theorem Wiring.producers_eq {w : Wiring} (hwired : ∀ p ∈ w.threads, p.Wired w.queues)
    {name : String} {q : Nat} (hq : w.queues.lookup name = some q) :
    w.producers q = w.threads.countP fun p => name ∈ p.sinks := by
  refine List.countP_congr fun p hp => ?_
  rw [(hwired p hp).pushes]
  simpa using Registry.mem_map_lookup hq

/-- And its consumers. -/
theorem Wiring.consumers_eq {w : Wiring} (hwired : ∀ p ∈ w.threads, p.Wired w.queues)
    {name : String} {q : Nat} (hq : w.queues.lookup name = some q) :
    w.consumers q = w.threads.countP fun p => name ∈ p.kind.sources := by
  refine List.countP_congr fun p hp => ?_
  rw [(hwired p hp).pops]
  simpa using Registry.mem_map_lookup hq

/-! ## The video inputs -/

/-- A class that is built for a video input. -/
def Kind.Loader (k : Kind) : Prop := k ∈ create_func_map_ (some "")

/-- What is built for a video input is a loader. -/
theorem loader_of_make {name input : String} {k : Kind}
    (h : MakeSharedProcessor name (some input) = some k) : k.Loader :=
  List.mem_of_find?_eq_some h

/-- There are three of them. -/
theorem Kind.Loader.cases {k : Kind} (h : k.Loader) :
    k = .usbDeviceLoader ∨ k = .rtspLoader ∨ k = .localVideoLoader := by
  simpa [Loader, create_func_map_] using h

/-- A loader only looks up the queue of the detector. -/
theorem loader_init (features : List String) (w : Wiring) {p : Processor} (h : p.kind.Loader) :
    p.init features w = .ok (w, p.getOutput w.queues WHALE_PROCESSOR_DETECT) := by
  unfold Processor.init
  rcases h.cases with h | h | h <;> rw [h] <;> rfl

/-- And so it is wired, if it got that queue. -/
theorem wired_loader {queues : Registry String} {p : Processor} (h : p.kind.Loader)
    (houtput : Bound queues WHALE_PROCESSOR_DETECT p.output_queue_) : p.Wired queues := by
  unfold Processor.Wired
  rcases h.cases with h | h | h <;> rw [h] <;> exact houtput

/-- The name of a loader is not that of the dispatcher. -/
theorem data_loader_name_ne (input : String) :
    data_loader_name input ≠ WHALE_PROCESSOR_WEBSOCKETSTREAM := by
  unfold data_loader_name
  split_ifs <;> decide

/-- What `BuildVideoInput` has done to `w` with the inputs in `done`. -/
structure Built (w : Wiring) (done : List String) (s : Wiring × Dict String Processor) : Prop where
  threads : s.1.threads = w.threads
  grows : w.queues.Grows s.1.queues
  stream : s.1.queues.lookup WHALE_PROCESSOR_WEBSOCKETSTREAM =
    w.queues.lookup WHALE_PROCESSOR_WEBSOCKETSTREAM
  loaders : ∀ e ∈ s.2.entries, e.2.kind.Loader
  keys : ∀ input, input ∈ s.2 ↔ input ∈ done

/-- One more input: there is an executor for it already, or there is one now. -/
theorem Built.step {w : Wiring} {done : List String} {s s' : Wiring × Dict String Processor}
    (h : Built w done s) {input : String} (hs : buildVideoInput s input = .ok s') :
    Built w (done ++ [input]) s' := by
  unfold buildVideoInput buildProcessor at hs
  simp only at hs
  split at hs
  · exact absurd hs (by simp [bind, Except.bind])
  · rename_i k hk
    obtain rfl := Except.ok.inj hs
    constructor
    · exact h.threads
    · exact h.grows.trans (Registry.grows_add _ _)
    · rw [← h.stream]
      exact Registry.lookup_add_ne (data_loader_name_ne input).symm
    · intro e he
      rcases Dict.mem_entries_insert he with rfl | he
      · exact loader_of_make hk
      · exact h.loaders e he
    · intro n
      rw [AList.mem_insert, h.keys, List.mem_append, List.mem_singleton, or_comm]

/-- All of them, by induction on the list. -/
theorem Built.loop {w : Wiring} : ∀ {todo done : List String} {s s' : Wiring × Dict String Processor},
    Built w done s → todo.foldlM buildVideoInput s = .ok s' → Built w (done ++ todo) s' := by
  intro todo
  induction todo with
  | nil =>
    intro done s s' h hs
    obtain rfl : s = s' := Except.ok.inj hs
    rwa [List.append_nil]
  | cons input todo ih =>
    intro done s s' h hs
    rw [List.foldlM_cons] at hs
    obtain ⟨s₁, hstep, hs⟩ := exists_of_bind_ok hs
    have hrest := ih (h.step hstep) hs
    rwa [List.append_assoc] at hrest

/-- What `BuildVideoInput` does. -/
theorem BuildVideoInput_built {w : Wiring} {video_input : List String}
    {inputs : Wiring × Dict String Processor} (h : BuildVideoInput video_input w = .ok inputs) :
    Built w video_input inputs := by
  unfold BuildVideoInput at h
  split at h
  · exact absurd h (by simp)
  · have hnone : Built w [] (w, ∅) := by
      refine ⟨rfl, Registry.Grows.refl _, rfl, ?_, ?_⟩
      · exact fun e he => absurd he (by simp)
      · exact fun n => by simp
    exact hnone.loop h

/-- Each executor gets a thread, linked to the detector. -/
theorem start_loaders (features : List String) : ∀ (entries : List (Sigma fun _ : String => Processor))
    (w : Wiring), (∀ e ∈ entries, e.2.kind.Loader) →
    entries.foldlM (fun w e => do
      let ptr ← Processor.init features w e.2
      return Start [ptr.2] ptr.1) w = .ok { w with
        threads := w.threads ++
          entries.map fun e => e.2.getOutput w.queues WHALE_PROCESSOR_DETECT } := by
  intro entries
  induction entries with
  | nil =>
    intro w _
    rw [List.map_nil, List.append_nil]
    rfl
  | cons e entries ih =>
    intro w h
    obtain ⟨he, hrest⟩ := List.forall_mem_cons.mp h
    rw [List.foldlM_cons, loader_init features w he]
    show entries.foldlM _ (Start [e.2.getOutput w.queues WHALE_PROCESSOR_DETECT] w) = _
    rw [ih _ hrest]
    simp [Start]

/-! ## The roster -/

/-- A map with the keys of a list has at most one entry when the list repeats one key. -/
theorem entries_le_one {V : Type} {m : Dict String V} {keys : List String}
    (h : ∀ n, n ∈ m ↔ n ∈ keys) :
    m.entries.length ≤ 1 ↔ ∀ a ∈ keys, ∀ b ∈ keys, a = b := by
  have hkeys : ∀ n, n ∈ m.keys ↔ n ∈ keys := fun n => h n
  have hlength : m.entries.length = m.keys.length := by
    unfold AList.keys List.keys
    rw [List.length_map]
  rw [hlength]
  constructor
  · intro hle a ha b hb
    have hsub : m.keys.length = 1 := by
      have := List.length_pos_of_mem ((hkeys a).mpr ha)
      omega
    obtain ⟨n, hn⟩ := List.length_eq_one_iff.mp hsub
    rw [← hkeys, hn, List.mem_singleton] at ha hb
    rw [ha, hb]
  · intro hall
    -- two entries would be two different keys of the list
    by_contra hlt
    obtain ⟨a, b, rest, hrest⟩ : ∃ a b rest, m.keys = a :: b :: rest := by
      match hm : m.keys with
      | [] => simp [hm] at hlt
      | [_] => simp [hm] at hlt
      | a :: b :: rest => exact ⟨a, b, rest, rfl⟩
    have hnodup := m.keys_nodup
    rw [hrest] at hnodup
    have hne : a ≠ b := fun hab => (List.nodup_cons.mp hnodup).1 (hab ▸ List.mem_cons_self)
    exact hne (hall a ((hkeys a).mp (by simp [hrest])) b ((hkeys b).mp (by simp [hrest])))

/-- The threads of a configuration: the global processors, one for each feature, the detector and the
loaders of the video inputs. -/
structure Roster (features : List String) (loaders : List Processor) (w : Wiring) : Prop where
  known : ∀ f ∈ features, f = "monitor"
  wired : ∀ p ∈ w.threads, p.Wired w.queues
  dispatch : ∃ q, w.queues.lookup WHALE_PROCESSOR_DISPATCH = some q
  detect : ∃ q, w.queues.lookup WHALE_PROCESSOR_DETECT = some q
  stream : w.queues.lookup WHALE_PROCESSOR_WEBSOCKETSTREAM = none
  threads : ∃ (front : List Processor) (detector : Processor),
    w.threads = front ++ detector :: loaders ∧
    front.map (·.kind) =
      [.dispatch, .flowRpcAsyn] ++ List.replicate features.length .monitor ∧
    detector.kind = .detector ∧
    ∀ name, name ∈ detector.next_processor_unit_.keys ↔
      name = WHALE_PROCESSOR_MONITOR ∧ features ≠ []
  loaders : ∀ p ∈ loaders, p.kind.Loader

/-- The roster without the video inputs. -/
theorem Started.core {features : List String} {w w' : Wiring} (h : Started features w)
    (hcore : BuildAndStartCoreGlobal features w = .ok w') : Roster features [] w' := by
  obtain ⟨w₁, hdetector, hcore⟩ := exists_of_bind_ok hcore
  obtain rfl : w₁ = w' := Except.ok.inj hcore
  obtain ⟨built, hbuilt, hdetector⟩ := exists_of_bind_ok hdetector
  obtain rfl : builtDetector w = built := Except.ok.inj hbuilt
  obtain ⟨s, hs, hdetector⟩ := exists_of_bind_ok hdetector
  obtain rfl := Except.ok.inj hdetector
  rcases h.detector with ⟨s', hs', hlinked, hknown⟩ | ⟨f, -, -, hstop⟩
  · obtain rfl : s' = s := Except.ok.inj (hs'.symm.trans hs)
    -- every feature is the known one, so that it is counted as often as there are features
    have hcount : features.count "monitor" = features.length :=
      List.count_eq_length.mpr fun f hf => (hknown f hf).symm
    obtain ⟨qd, hqd⟩ := h.dispatch
    constructor
    · exact hknown
    · intro p hp
      show p.Wired s'.1.queues
      rw [hlinked.queues]
      rcases List.mem_append.mp hp with hp | hp
      · rw [hlinked.threads] at hp
        exact (h.wired p hp).grow (w.queues.grows_add _)
      -- the detector itself
      · obtain rfl := List.mem_singleton.mp hp
        unfold Processor.Wired
        rw [hlinked.kind]
        exact ⟨hlinked.input, hlinked.output, hlinked.next⟩
    · show ∃ q, s'.1.queues.lookup _ = some q
      rw [hlinked.queues]
      exact ⟨qd, w.queues.grows_add _ _ _ hqd⟩
    · show ∃ q, s'.1.queues.lookup _ = some q
      rw [hlinked.queues]
      exact w.queues.lookup_add_self _
    -- no feature has made the queue that the roster is without
    · show s'.1.queues.lookup _ = none
      rw [hlinked.queues]
      show (w.queues.add WHALE_PROCESSOR_DETECT).lookup _ = none
      rw [Registry.lookup_add_ne (by decide)]
      exact h.stream
    · refine ⟨w.threads, s'.2, ?_, ?_, hlinked.kind, hlinked.keys⟩
      · show s'.1.threads ++ [s'.2] = _
        rw [hlinked.threads]
        rfl
      · rw [h.kinds, hcount]
    · exact fun p hp => absurd hp (by simp)
  · exact absurd (hstop.symm.trans hs) (by simp)

/-- The loaders that `StartVideoInput` starts. -/
def startedLoaders (inputs : Wiring × Dict String Processor) : List Processor :=
  inputs.2.entries.map fun e => e.2.getOutput inputs.1.queues WHALE_PROCESSOR_DETECT

/-- The video inputs add their loaders to the roster. -/
theorem Roster.withLoaders {features video_input : List String} {w : Wiring}
    {inputs : Wiring × Dict String Processor} (h : Roster features [] w)
    (hbuilt : Built w video_input inputs) :
    Roster features (startedLoaders inputs)
      { inputs.1 with threads := inputs.1.threads ++ startedLoaders inputs } := by
  obtain ⟨front, detector, hthreads, hfront, hkind, hkeys⟩ := h.threads
  obtain ⟨qd, hqd⟩ := h.dispatch
  obtain ⟨qi, hqi⟩ := h.detect
  have hloaders : ∀ p ∈ startedLoaders inputs, p.kind.Loader ∧
      Bound inputs.1.queues WHALE_PROCESSOR_DETECT p.output_queue_ := by
    intro p hp
    obtain ⟨e, he, rfl⟩ := List.mem_map.mp hp
    exact ⟨hbuilt.loaders e he, bound_SafeGet (hbuilt.grows _ _ hqi) _⟩
  constructor
  · exact h.known
  · intro p hp
    rcases List.mem_append.mp hp with hp | hp
    · rw [hbuilt.threads] at hp
      exact (h.wired p hp).grow hbuilt.grows
    · exact wired_loader (hloaders p hp).1 (hloaders p hp).2
  · exact ⟨qd, hbuilt.grows _ _ hqd⟩
  · exact ⟨qi, hbuilt.grows _ _ hqi⟩
  · exact hbuilt.stream.trans h.stream
  · refine ⟨front, detector, ?_, hfront, hkind, hkeys⟩
    show inputs.1.threads ++ _ = _
    rw [hbuilt.threads, hthreads, List.append_assoc]
    rfl
  · exact fun p hp => (hloaders p hp).1

/-- **The roster of every start.** -/
theorem roster_of_loop {features video_input : List String} {w : Wiring}
    (h : Loop features video_input = .ok w) : ∃ loaders, Roster features loaders w ∧
      (loaders.length ≤ 1 ↔ ∀ a ∈ video_input, ∀ b ∈ video_input, a = b) := by
  obtain ⟨w₀, hfeatures, h⟩ := exists_of_bind_ok h
  obtain ⟨w₁, hcore, h⟩ := exists_of_bind_ok h
  obtain ⟨inputs, hinputs, hstart⟩ := exists_of_bind_ok h
  have hmanned : Roster features [] w₁ := by
    obtain ⟨w₀', hw₀', hstarted⟩ := started_features features
    obtain rfl : w₀' = w₀ := Except.ok.inj (hw₀'.symm.trans hfeatures)
    exact hstarted.core hcore
  have hbuilt := BuildVideoInput_built hinputs
  obtain rfl := Except.ok.inj ((start_loaders features _ inputs.1 hbuilt.loaders).symm.trans hstart)
  refine ⟨startedLoaders inputs, hmanned.withLoaders hbuilt, ?_⟩
  rw [startedLoaders, List.length_map]
  exact entries_le_one hbuilt.keys

/-! ## Counting -/

section

variable {features : List String} {loaders : List Processor} {w : Wiring}

/-- A count by kind, over the processors in front of the detector. -/
theorem countP_front {front : List Processor} (f : Kind → Bool)
    (h : front.map (·.kind) =
      [.dispatch, .flowRpcAsyn] ++ List.replicate features.length .monitor) :
    front.countP (fun p => f p.kind) =
      [Kind.dispatch, .flowRpcAsyn].countP f + if f .monitor then features.length else 0 := by
  have hmap : front.countP (fun p => f p.kind) = (front.map (·.kind)).countP f :=
    List.countP_map.symm
  rw [hmap, h, List.countP_append, List.countP_replicate]

/-- No processor in front of the detector has next processors. -/
theorem sinks_front {front : List Processor}
    (h : front.map (·.kind) =
      [.dispatch, .flowRpcAsyn] ++ List.replicate features.length .monitor) :
    ∀ p ∈ front, p.sinks = p.kind.sinks := by
  intro p hp
  have hkind : p.kind ∈ front.map (·.kind) := List.mem_map_of_mem hp
  have hne : p.kind ≠ .detector := by
    intro hdetector
    rw [h, hdetector] at hkind
    simp at hkind
  unfold Processor.sinks
  rw [if_neg hne, List.append_nil]

/-- Only the queue of the detector has loaders for producers. -/
theorem countP_loaders (h : ∀ p ∈ loaders, p.kind.Loader) {name : String}
    (hstream : name ≠ WHALE_PROCESSOR_WEBSOCKETSTREAM) :
    loaders.countP (fun p => name ∈ p.sinks) =
      if name = WHALE_PROCESSOR_DETECT then loaders.length else 0 := by
  have hsinks : ∀ p ∈ loaders, name ∈ p.sinks ↔ name = WHALE_PROCESSOR_DETECT := by
    intro p hp
    unfold Processor.sinks
    rcases (h p hp).cases with hkind | hkind | hkind <;> simp [hkind, Kind.sinks, hstream]
  split
  · rename_i hname
    refine List.countP_eq_length.mpr fun p hp => ?_
    exact decide_eq_true ((hsinks p hp).mpr hname)
  · rename_i hname
    refine List.countP_eq_zero.mpr fun p hp hsink => hname ?_
    exact (hsinks p hp).mp (of_decide_eq_true hsink)

/-- **The producers of a queue**: the dispatcher has the detector and every feature, the detector has
every video input, and a feature has the detector.

The three sums are over the processors in front, the detector and the loaders. -/
theorem Roster.producers (h : Roster features loaders w) {name : String} {q : Nat}
    (hq : w.queues.lookup name = some q) :
    w.producers q = (if name = WHALE_PROCESSOR_DISPATCH then features.length + 1 else 0) +
      (if name = WHALE_PROCESSOR_DETECT then loaders.length else 0) +
      (if name = WHALE_PROCESSOR_MONITOR ∧ features ≠ [] then 1 else 0) := by
  have hstream : name ≠ WHALE_PROCESSOR_WEBSOCKETSTREAM := by
    rintro rfl
    exact absurd (h.stream.symm.trans hq) (by simp)
  obtain ⟨front, detector, hthreads, hfront, hkind, hkeys⟩ := h.threads
  have hcount : front.countP (fun p => name ∈ p.sinks) =
      if name = WHALE_PROCESSOR_DISPATCH then features.length else 0 := by
    -- only the detector has next processors
    have hby : front.countP (fun p => name ∈ p.sinks) =
        front.countP (fun p => name ∈ p.kind.sinks) :=
      List.countP_congr fun p hp => by rw [sinks_front hfront p hp]
    rw [hby, countP_front (fun k => name ∈ k.sinks) hfront]
    simp [Kind.sinks]
  have hdetector : name ∈ detector.sinks ↔ name = WHALE_PROCESSOR_DISPATCH ∨
      (name = WHALE_PROCESSOR_MONITOR ∧ features ≠ []) := by
    unfold Processor.sinks
    rw [if_pos hkind, hkind, List.mem_append, hkeys]
    simp [Kind.sinks, hstream]
  rw [Wiring.producers_eq h.wired hq, hthreads, List.countP_append, List.countP_cons, hcount,
    countP_loaders h.loaders hstream]
  simp only [hdetector, decide_eq_true_eq]
  have hne : WHALE_PROCESSOR_DISPATCH ≠ WHALE_PROCESSOR_MONITOR := by decide
  by_cases hdispatch : name = WHALE_PROCESSOR_DISPATCH
  · subst hdispatch
    simp [hne]
    omega
  · simp only [hdispatch, if_false, false_or]
    omega

/-- **The consumers of a queue**: every feature pops from the one queue of its class. -/
theorem Roster.consumers (h : Roster features loaders w) {name : String} {q : Nat}
    (hq : w.queues.lookup name = some q) :
    w.consumers q = (if name = WHALE_PROCESSOR_DISPATCH then 1 else 0) +
      (if name = WHALE_PROCESSOR_MONITOR then features.length else 0) +
      (if name = WHALE_PROCESSOR_DETECT then 1 else 0) := by
  obtain ⟨front, detector, hthreads, hfront, hkind, -⟩ := h.threads
  have hloaders : loaders.countP (fun p => name ∈ p.kind.sources) = 0 := by
    refine List.countP_eq_zero.mpr fun p hp => ?_
    rcases (h.loaders p hp).cases with hkind | hkind | hkind <;> simp [hkind, Kind.sources]
  have hcount : front.countP (fun p => name ∈ p.kind.sources) =
      (if name = WHALE_PROCESSOR_DISPATCH then 1 else 0) +
        if name = WHALE_PROCESSOR_MONITOR then features.length else 0 := by
    rw [countP_front (fun k => name ∈ k.sources) hfront]
    simp [Kind.sources, List.countP_cons]
  have hdetector : name ∈ detector.kind.sources ↔ name = WHALE_PROCESSOR_DETECT := by
    rw [hkind]
    exact List.mem_singleton
  rw [Wiring.consumers_eq h.wired hq, hthreads, List.countP_append, List.countP_cons, hcount,
    hloaders]
  simp only [hdetector, decide_eq_true_eq]
  omega

end

/-! ## One producer, one consumer -/

/-- **When the wiring is single-producer and single-consumer**: after a start-up that went through,
every queue has at most one producer and one consumer exactly when no feature is configured and all
video inputs are the same one.

With a feature the dispatcher's queue has two producers, and with two inputs the detector's has.
Without, each sum is at most one. -/
theorem spsc_iff {features video_input : List String} {w : Wiring}
    (h : Loop features video_input = .ok w) :
    w.Spsc ↔ features = [] ∧ ∀ a ∈ video_input, ∀ b ∈ video_input, a = b := by
  obtain ⟨loaders, hroster, hinputs⟩ := roster_of_loop h
  rw [← hinputs]
  constructor
  · intro hspsc
    obtain ⟨qd, hqd⟩ := hroster.dispatch
    obtain ⟨qi, hqi⟩ := hroster.detect
    -- every feature is a producer beside the detector, and every loader one more
    have hdispatch := (hspsc _ _ hqd).1
    have hdetect := (hspsc _ _ hqi).1
    rw [hroster.producers hqd] at hdispatch
    rw [hroster.producers hqi] at hdetect
    simp only [if_true] at hdispatch hdetect
    constructor
    · exact List.length_eq_zero_iff.mp (by omega)
    · omega
  · intro ⟨hfeatures, hone⟩ name q hq
    rw [hroster.producers hq, hroster.consumers hq]
    subst hfeatures
    have hne : WHALE_PROCESSOR_DISPATCH ≠ WHALE_PROCESSOR_DETECT := by decide
    constructor
    · split_ifs <;> simp_all
    · split_ifs <;> simp_all

/-- A start with one feature: the detector and the feature push to the dispatcher's queue. -/
theorem spsc_fails : ∃ w, Loop ["monitor"] ["/dev/video0"] = .ok w ∧ ¬ w.Spsc := by
  obtain ⟨w, hw, hshared⟩ : ∃ w, Loop ["monitor"] ["/dev/video0"] = .ok w ∧
      w.queues.lookup WHALE_PROCESSOR_DISPATCH = some 0 ∧ w.producers 0 = 2 :=
    ⟨_, rfl, by decide +kernel, by decide +kernel⟩
  refine ⟨w, hw, fun hspsc => ?_⟩
  have hle := (hspsc _ 0 hshared.1).1
  omega

/-- A start without features, on one camera. -/
theorem spsc_iff_oneCamera : ∃ w, Loop [] ["/dev/video0"] = .ok w ∧ w.Spsc := by
  obtain ⟨w, hw⟩ : ∃ w, Loop [] ["/dev/video0"] = .ok w := ⟨_, rfl⟩
  refine ⟨w, hw, (spsc_iff hw).mpr ⟨rfl, ?_⟩⟩
  intro a ha b hb
  rw [List.mem_singleton.mp ha, List.mem_singleton.mp hb]

end EdgeFrame.Pipeline
