/-
# EdgeFrame.Metric.Accesses -- the metric store under `global_mt`

Every function of `ServiceMetricManager` holds `global_mt` from its first line to its last.
In between it reads and writes the maps one access after the other: a subscript makes the
counter it lacks, `+=` reads the counter before it writes it, and a map is copied entry
by entry. What the callers see is what they would see of functions that happen at once,
so an execution may be placed where its `getAndClear` stands, and no count gets lost
between two threads.

The store is an object under a lock in the sense of `Lib.Atomic`, and two specifications are
given for it. `spec` is about the maps: a call writes a counter, raises it, or hands a map
over. `replay` is about the events that `Metric.Manager` is made of, whose counters carry
the units they were made of; what is counted there is what the maps say (`spec_maps`), so
that a run of the one is a run of the other. `one_event` is what lets `Metric.Kept` speak of
events, and `counts_kept` is the law of the counters alone.
-/
import EdgeFrame.Lib.Atomic
import EdgeFrame.Metric.Manager

namespace EdgeFrame.Metric

open Lib

/-! ## The maps and their accesses -/

/-- The counters of one action, in the order in which the map is walked. -/
abbrev Counts := List (String × Int)

namespace Counts

/-- The entry that `metrics_[action][key]` refers to, made if it is missing. -/
def subscript (key : String) : Counts → Counts
  | [] => [(key, 0)]
  | (k, c) :: counts => if k = key then (k, c) :: counts else (k, c) :: subscript key counts

/-- What stands there. -/
def value (key : String) : Counts → Int
  | [] => 0
  | (k, c) :: counts => if k = key then c else value key counts

/-- `= v`, of an entry that is there. -/
def assign (key : String) (v : Int) : Counts → Counts
  | [] => []
  | (k, c) :: counts => if k = key then (k, v) :: counts else (k, c) :: assign key v counts

end Counts

/-- `metrics_`. -/
abbrev Maps := MetricAction → Counts

namespace ServiceMetricManager

/-- The functions. -/
inductive Call where
  | set (action : MetricAction) (key : String) (value : Int)
  | add (action : MetricAction) (key : String) (value : Int)
  | getAndClear (action : MetricAction)
  | get (action : MetricAction)
  deriving DecidableEq, Repr

/-- What they return. -/
inductive Answer where
  | void
  | metrics (ret : Counts)
  deriving DecidableEq, Repr

/-- The access that comes next. -/
inductive Line where
  | setSubscript (action : MetricAction) (key : String) (value : Int)
  | setAssign (action : MetricAction) (key : String) (value : Int)
  | addSubscript (action : MetricAction) (key : String) (value : Int)
  | addRead (action : MetricAction) (key : String) (value : Int)
  | addWrite (action : MetricAction) (key : String) (sum : Int)
  /-- The copy has come as far as `ret`; `metrics_[(int)action].clear()` may follow. -/
  | copy (action : MetricAction) (clears : Bool) (ret : Counts)
  | clear (action : MetricAction) (ret : Counts)
  deriving DecidableEq, Repr

/-- Once the lock is there. -/
def enter : Call → Line
  | .set action key value => .setSubscript action key value
  | .add action key value => .addSubscript action key value
  | .getAndClear action => .copy action true []
  | .get action => .copy action false []

/-- One access. -/
def access : Line → Maps → (Line ⊕ Answer) × Maps
  | .setSubscript action key value, maps =>
    (.inl (.setAssign action key value),
      Function.update maps action ((maps action).subscript key))
  | .setAssign action key value, maps =>
    (.inr .void, Function.update maps action ((maps action).assign key value))
  | .addSubscript action key value, maps =>
    (.inl (.addRead action key value), Function.update maps action ((maps action).subscript key))
  | .addRead action key value, maps =>
    (.inl (.addWrite action key ((maps action).value key + value)), maps)
  | .addWrite action key sum, maps =>
    (.inr .void, Function.update maps action ((maps action).assign key sum))
  | .copy action clears ret, maps =>
    match (maps action)[ret.length]? with
    | some entry => (.inl (.copy action clears (ret ++ [entry])), maps)
    | none => if clears then (.inl (.clear action ret), maps) else (.inr (.metrics ret), maps)
  | .clear action ret, maps => (.inr (.metrics ret), Function.update maps action [])

end ServiceMetricManager

/-- The class. -/
def ServiceMetricManager : Locked ServiceMetricManager.Call ServiceMetricManager.Line Maps
    ServiceMetricManager.Answer where
  enter := ServiceMetricManager.enter
  access := ServiceMetricManager.access

namespace ServiceMetricManager

/-! ## What the functions are for -/

/-- `set` writes a counter, `add` raises it, `getAndClear` hands a map over. -/
def spec (maps : Maps) : Call → Maps × Answer
  | .set action key value =>
    (Function.update maps action (((maps action).subscript key).assign key value), .void)
  | .add action key value =>
    (Function.update maps action
      (((maps action).subscript key).assign key ((maps action).value key + value)), .void)
  | .getAndClear action => (Function.update maps action [], .metrics (maps action))
  | .get action => (maps, .metrics (maps action))

/-- What holds before each access of a call, which found `maps`. -/
def Mid (maps : Maps) (call : Call) : Line → Maps → Prop
  | .setSubscript action key value, now => now = maps ∧ call = .set action key value
  | .setAssign action key value, now =>
    now = Function.update maps action ((maps action).subscript key) ∧ call = .set action key value
  | .addSubscript action key value, now => now = maps ∧ call = .add action key value
  | .addRead action key value, now =>
    now = Function.update maps action ((maps action).subscript key) ∧ call = .add action key value
  | .addWrite action key sum, now =>
    now = Function.update maps action ((maps action).subscript key) ∧
      ∃ value, sum = (maps action).value key + value ∧ call = .add action key value
  | .copy action clears ret, now =>
    now = maps ∧ ret <+: maps action ∧
      call = if clears then .getAndClear action else .get action
  | .clear action ret, now => now = maps ∧ ret = maps action ∧ call = .getAndClear action

/-- A subscript shows the counter as it was. -/
@[simp] theorem value_subscript (key : String) (counts : Counts) :
    (counts.subscript key).value key = counts.value key := by
  induction counts with
  | nil => simp [Counts.subscript, Counts.value]
  | cons entry counts ih =>
    obtain ⟨k, c⟩ := entry
    by_cases hk : k = key
    · simp [Counts.subscript, Counts.value, hk]
    · simp [Counts.subscript, Counts.value, hk, ih]

/-- Before the first access the maps are as the call found them. -/
theorem mid_enter (maps : Maps) (call : Call) : Mid maps call (enter call) maps := by
  cases call with
  | set action key value => exact ⟨rfl, rfl⟩
  | add action key value => exact ⟨rfl, rfl⟩
  | getAndClear action => exact ⟨rfl, List.nil_prefix, rfl⟩
  | get action => exact ⟨rfl, List.nil_prefix, rfl⟩

variable {maps now now' : Maps} {call : Call} {line line' : Line} {answer : Answer}

/-- One entry more of a copy. -/
theorem prefix_snoc {ret counts : Counts} (h : ret <+: counts) {entry : String × Int}
    (hentry : counts[ret.length]? = some entry) : ret ++ [entry] <+: counts := by
  obtain ⟨rest, rfl⟩ := h
  rw [List.getElem?_append_right (Nat.le_refl _), Nat.sub_self] at hentry
  cases rest with
  | nil => cases hentry
  | cons e rest =>
    obtain rfl := Option.some.inj hentry
    exact ⟨rest, List.append_assoc ret [e] rest⟩

/-- A copy that has come to the end is all there is. -/
theorem prefix_end {ret counts : Counts} (h : ret <+: counts)
    (hend : counts[ret.length]? = none) : ret = counts :=
  h.eq_of_length_le (List.getElem?_eq_none_iff.mp hend)

/-- An access after which the call goes on. -/
theorem mid_goes_on (h : Mid maps call line now) (haccess : access line now = (.inl line', now')) :
    Mid maps call line' now' := by
  cases line with
  | setSubscript action key value =>
    obtain ⟨rfl, rfl⟩ := h
    obtain ⟨hline, rfl⟩ := Prod.mk.inj haccess
    obtain rfl := Sum.inl.inj hline
    exact ⟨rfl, rfl⟩
  | setAssign action key value => cases haccess
  | addSubscript action key value =>
    obtain ⟨rfl, rfl⟩ := h
    obtain ⟨hline, rfl⟩ := Prod.mk.inj haccess
    obtain rfl := Sum.inl.inj hline
    exact ⟨rfl, rfl⟩
  -- what is read is what the subscript found or made
  | addRead action key value =>
    obtain ⟨rfl, rfl⟩ := h
    obtain ⟨hline, rfl⟩ := Prod.mk.inj haccess
    obtain rfl := Sum.inl.inj hline
    refine ⟨rfl, value, ?_, rfl⟩
    rw [Function.update_self, value_subscript]
  | addWrite action key sum => cases haccess
  -- one more unit is copied, or the copy is complete and the clear is next
  | copy action clears ret =>
    obtain ⟨rfl, hret, hcall⟩ := h
    simp only [access] at haccess
    split at haccess
    · rename_i entry hentry
      obtain ⟨hline, rfl⟩ := Prod.mk.inj haccess
      obtain rfl := Sum.inl.inj hline
      exact ⟨rfl, prefix_snoc hret hentry, hcall⟩
    · rename_i hend
      split at haccess
      · rename_i hclears
        obtain ⟨hline, rfl⟩ := Prod.mk.inj haccess
        obtain rfl := Sum.inl.inj hline
        rw [if_pos hclears] at hcall
        exact ⟨rfl, prefix_end hret hend, hcall⟩
      · cases haccess
  | clear action ret => cases haccess

/-- The access that ends a call. -/
theorem mid_decides (h : Mid maps call line now) (haccess : access line now = (.inr answer, now')) :
    (spec maps call).2 = answer ∧ now' = (spec maps call).1 := by
  cases line with
  | setSubscript action key value => cases haccess
  -- the second write of a key leaves nothing of the first
  | setAssign action key value =>
    obtain ⟨rfl, rfl⟩ := h
    obtain ⟨hanswer, rfl⟩ := Prod.mk.inj haccess
    obtain rfl := Sum.inr.inj hanswer
    refine ⟨rfl, ?_⟩
    rw [Function.update_self, Function.update_idem]
    rfl
  | addSubscript action key value => cases haccess
  | addRead action key value => cases haccess
  | addWrite action key sum =>
    obtain ⟨rfl, value, rfl, rfl⟩ := h
    obtain ⟨hanswer, rfl⟩ := Prod.mk.inj haccess
    obtain rfl := Sum.inr.inj hanswer
    refine ⟨rfl, ?_⟩
    rw [Function.update_self, Function.update_idem]
    rfl
  -- only a read that clears nothing ends with its last copy
  | copy action clears ret =>
    obtain ⟨rfl, hret, hcall⟩ := h
    simp only [access] at haccess
    split at haccess
    · cases haccess
    · rename_i hend
      split at haccess
      · cases haccess
      · rename_i hclears
        obtain ⟨hanswer, rfl⟩ := Prod.mk.inj haccess
        obtain rfl := Sum.inr.inj hanswer
        rw [if_neg hclears] at hcall
        rw [hcall, prefix_end hret hend]
        exact ⟨rfl, rfl⟩
  | clear action ret =>
    obtain ⟨rfl, rfl, rfl⟩ := h
    obtain ⟨hanswer, rfl⟩ := Prod.mk.inj haccess
    obtain rfl := Sum.inr.inj hanswer
    exact ⟨rfl, rfl⟩

/-- Left alone, a call does what it is for. -/
def implements : Implements ServiceMetricManager spec where
  Rep now maps := now = maps
  Mid := Mid
  enter := by
    rintro now maps call rfl
    exact mid_enter now call
  goes_on := mid_goes_on
  decides := mid_decides

/-! ## The store of the events -/

/-- The counters of a `Manager`, without its bookkeeping. -/
def counts (metrics : Metrics) : Counts := metrics.map fun ite => (ite.1, ite.2.value)

/-- The maps of a `Manager`. -/
def mapsOf (s : Manager) : Maps := fun action => counts (s.metrics_ action)

/-- Adding to the store of the events raises the counter. -/
theorem counts_add (key : String) (value : Int) (n : Nat) (metrics : Metrics) :
    counts (metrics.add key value n) =
      ((counts metrics).subscript key).assign key ((counts metrics).value key + value) := by
  induction metrics with
  | nil => simp [counts, Metrics.add, Counts.subscript, Counts.assign, Counts.value]
  | cons ite metrics ih =>
    obtain ⟨k, c⟩ := ite
    by_cases hk : k = key
    · simp [counts, Metrics.add, Counts.subscript, Counts.assign, Counts.value, hk]
    · simp only [counts, Metrics.add, Counts.subscript, Counts.assign, Counts.value, hk, if_false,
        List.map_cons] at ih ⊢
      rw [ih]

/-- The calls of which the events are made. -/
def Call.Counts : Call → Prop
  | .add _ _ _ => True
  | .getAndClear _ => True
  | _ => False

/-- The store of the events, a call at a time. -/
def replay (s : Manager) : Call → Manager × Answer
  | .add action key value => (s.add action key value, .void)
  | .getAndClear action => ((s.getAndClear action).2, .metrics (counts (s.getAndClear action).1))
  | _ => (s, .void)

/-- What the store says is what the maps say. -/
theorem spec_maps (s : Manager) {call : Call} (h : call.Counts) :
    spec (mapsOf s) call = (mapsOf (replay s call).1, (replay s call).2) := by
  cases call with
  | set action key value => exact h.elim
  | add action key value =>
    refine Prod.ext ?_ rfl
    funext a
    show Function.update (mapsOf s) action _ a = counts ((s.add action key value).metrics_ a)
    by_cases ha : a = action
    · subst ha
      rw [Function.update_self]
      show _ = counts (Function.update s.metrics_ a _ a)
      rw [Function.update_self, counts_add]
      rfl
    · rw [Function.update_of_ne ha]
      show _ = counts (Function.update s.metrics_ action _ a)
      rw [Function.update_of_ne ha]
      rfl
  | getAndClear action =>
    refine Prod.ext ?_ rfl
    funext a
    show Function.update (mapsOf s) action [] a = counts (Function.update s.metrics_ action [] a)
    by_cases ha : a = action
    · subst ha
      rw [Function.update_self, Function.update_self]
      rfl
    · rw [Function.update_of_ne ha, Function.update_of_ne ha]
      rfl
  | get action => exact h.elim

/-- Calls that took effect on the maps have taken effect on the store.

`set` is not among the calls of which the events are made. -/
theorem replay_of_trace {calls : List (Call × Answer)} (hcounts : ∀ e ∈ calls, e.1.Counts) :
    ∀ {s : Manager} {now : Maps}, Trace (Answers spec) (mapsOf s) calls now →
      ∃ s', Trace (Answers replay) s calls s' ∧ now = mapsOf s' := by
  induction calls with
  | nil =>
    intro s now h
    exact ⟨s, rfl, h⟩
  | cons e calls ih =>
    rintro s now ⟨next, hanswer, hrest⟩
    obtain ⟨hhead, htail⟩ := List.forall_mem_cons.mp hcounts
    unfold Answers at hanswer
    rw [spec_maps s hhead] at hanswer
    obtain ⟨rfl, hreply⟩ := Prod.mk.inj hanswer
    obtain ⟨s', hs', hnow⟩ := ih htail hrest
    exact ⟨s', ⟨(replay s e.1).1, Prod.ext rfl hreply, hs'⟩, hnow⟩

/-! ## Runs -/

variable {T : Type} [DecidableEq T] {es : List (T × Move Call)}

/-- The store and its callers. -/
abbrev Store (T : Type) := Use T Call Line Maps Answer

/-- Nothing has been counted. -/
def Store.empty (T : Type) : Store T := Use.init T Call Line Answer fun _ => []

/-- **Each access of the store is one event**: however the threads interleave, their calls of `add`
and `getAndClear` take effect one after the other on the store of the events, with the answers the
threads get, and the maps hold what that store holds whenever nobody has the lock.

It is linearizability with respect to `spec`, carried over to the store of the events by
`replay_of_trace`. -/
theorem one_event {s : Store T} (hrun : Use.Steps ServiceMetricManager (Store.empty T) es s)
    (hcounts : ∀ t call, (t, .invoke call) ∈ es → call.Counts) :
    ∃ log store,
      Linearizes replay {} s.history log (fun t => (s.place t).phase) store ∧
      (s.mutex.holder = none → s.shared = mapsOf store) := by
  have hstart : implements.Rep (fun _ => []) (mapsOf {}) := rfl
  obtain ⟨log, now, h⟩ := implements.coherent hstart hrun
  have hcalls : ∀ e ∈ effects log, e.1.Counts := by
    intro e he
    have hinvoked := h.linearizes.effects_subperm.subset (List.mem_map_of_mem he)
    obtain ⟨t, ht⟩ := Linearizes.mem_invoked hinvoked
    exact hcounts t e.1 (hrun.invoked rfl t e.1 ht)
  obtain ⟨store, hstore, rfl⟩ := replay_of_trace hcalls h.linearizes.legal
  exact ⟨log, store, ⟨h.linearizes.seen, h.linearizes.threads, hstore⟩, h.rest⟩

/-- Threads that count and collect. -/
inductive Caller where
  | loader
  | detector
  | event
  deriving DecidableEq, Repr

/-- A loader and a detector that count while an event collects: the copy stands between their accesses,
never between those of one of them. -/
def collecting : List (Caller × Move Call) :=
  [(.loader, .invoke (.add .kAlgoModelMonitor "cv_input_frame_count" 1)),
    (.detector, .invoke (.add .kAlgoModelMonitor "cv_input_frame_count" 1)),
    (.event, .invoke (.getAndClear .kAlgoModelMonitor)),
    (.detector, .lock), (.detector, .access), (.detector, .access), (.detector, .access),
    (.detector, .unlock), (.event, .lock), (.event, .access), (.detector, .respond),
    (.event, .access), (.event, .access), (.event, .unlock), (.loader, .lock), (.loader, .access),
    (.event, .respond), (.loader, .access), (.loader, .access), (.loader, .unlock),
    (.loader, .respond)]

/-- What is seen from outside, and what is left in the store: the loader's unit was added after the
copy. -/
theorem exec_collecting :
    (Use.exec ServiceMetricManager (Store.empty Caller) collecting).map
      (fun s => (s.history.drop 3, s.shared .kAlgoModelMonitor)) =
    some ([(.detector, .respond (.add .kAlgoModelMonitor "cv_input_frame_count" 1) .void),
      (.event, .respond (.getAndClear .kAlgoModelMonitor) (.metrics [("cv_input_frame_count", 1)])),
      (.loader, .respond (.add .kAlgoModelMonitor "cv_input_frame_count" 1) .void)],
      [("cv_input_frame_count", 1)]) := by
  decide +kernel

/-- There are two calls in it. -/
theorem collecting_calls {t : Caller} {call : Call} (h : (t, .invoke call) ∈ collecting) :
    call = .add .kAlgoModelMonitor "cv_input_frame_count" 1 ∨
      call = .getAndClear .kAlgoModelMonitor := by
  simp only [collecting, List.mem_cons, Prod.mk.injEq, Move.invoke.injEq, reduceCtorEq, and_false,
    List.not_mem_nil, or_false] at h
  obtain ⟨-, hcall⟩ | ⟨-, hcall⟩ | ⟨-, hcall⟩ := h
  · exact Or.inl hcall
  · exact Or.inl hcall
  · exact Or.inr hcall

/-- The run is one of the store of the events. -/
theorem one_event_collecting :
    ∃ s : Store Caller,
      Use.exec ServiceMetricManager (Store.empty Caller) collecting = some s ∧
      ∃ log store,
        Linearizes replay {} s.history log (fun t => (s.place t).phase) store ∧
        (s.mutex.holder = none → s.shared = mapsOf store) := by
  obtain ⟨s, hs, -⟩ := Option.map_eq_some_iff.mp exec_collecting
  refine ⟨s, hs, one_event (Use.exec_steps hs) ?_⟩
  intro t call hmem
  obtain rfl | rfl := collecting_calls hmem
  · trivial
  · trivial

/-! ## No count is lost -/

/-- What a call adds to the counter `key` of `action`. -/
def raised (action : MetricAction) (key : String) : Call → Int
  | .add a k value => if a = action ∧ k = key then value else 0
  | _ => 0

/-- What a call hands over of it. -/
def handedOver (action : MetricAction) (key : String) : Call × Answer → Int
  | (.getAndClear a, .metrics ret) => if a = action then ret.value key else 0
  | _ => 0

/-- A counter that was assigned to. -/
theorem value_assign_self (key : String) (v : Int) (counts : Counts) :
    ((counts.subscript key).assign key v).value key = v := by
  induction counts with
  | nil => simp [Counts.subscript, Counts.assign, Counts.value]
  | cons entry counts ih =>
    obtain ⟨k, c⟩ := entry
    by_cases hk : k = key
    · simp [Counts.subscript, Counts.assign, Counts.value, hk]
    · simp [Counts.subscript, Counts.assign, Counts.value, hk, ih]

/-- Another counter is as it was. -/
theorem value_assign_of_ne {key k : String} (h : k ≠ key) (v : Int) (counts : Counts) :
    ((counts.subscript k).assign k v).value key = counts.value key := by
  induction counts with
  | nil => simp [Counts.subscript, Counts.assign, Counts.value, h]
  | cons entry counts ih =>
    obtain ⟨k', c⟩ := entry
    by_cases hk : k' = k
    · simp [Counts.subscript, Counts.assign, Counts.value, hk, h]
    · simp [Counts.subscript, Counts.assign, Counts.value, hk, ih]

variable {action : MetricAction} {key : String}

/-- **One call**: what it adds goes into the counter or over to the caller.

`getAndClear` empties the map, so that what it hands over is no longer in the counter. -/
theorem raised_step {maps maps' : Maps} {e : Call × Answer} (h : Answers spec maps e maps')
    (hset : ∀ v, e.1 ≠ .set action key v) :
    raised action key e.1 + (maps action).value key =
      handedOver action key e + (maps' action).value key := by
  obtain ⟨call, answer⟩ := e
  cases call with
  | set a k v =>
    obtain ⟨rfl, rfl⟩ := Prod.mk.inj h
    show 0 + _ = 0 + (Function.update maps a _ action).value key
    by_cases ha : action = a
    · subst ha
      -- a `set` of another counter
      have hk : k ≠ key := by
        rintro rfl
        exact hset v rfl
      rw [Function.update_self, value_assign_of_ne hk]
    · rw [Function.update_of_ne ha]
  | add a k v =>
    obtain ⟨rfl, rfl⟩ := Prod.mk.inj h
    show (if a = action ∧ k = key then v else 0) + _ =
      0 + (Function.update maps a _ action).value key
    by_cases ha : action = a
    · subst ha
      -- `add` raises the counter by what it adds
      rw [Function.update_self]
      by_cases hk : k = key
      · subst hk
        rw [value_assign_self, if_pos ⟨rfl, rfl⟩]
        omega
      · rw [value_assign_of_ne hk, if_neg fun hboth => hk hboth.2]
    · rw [Function.update_of_ne ha, if_neg fun hboth => ha hboth.1.symm]
  | getAndClear a =>
    obtain ⟨rfl, rfl⟩ := Prod.mk.inj h
    show 0 + _ = (if a = action then (maps a).value key else 0) +
      (Function.update maps a [] action).value key
    -- what is handed over is no longer there
    by_cases ha : action = a
    · subst ha
      rw [Function.update_self, if_pos rfl]
      exact Int.add_comm 0 _
    · rw [Function.update_of_ne ha, if_neg fun heq => ha heq.symm]
  | get a =>
    obtain ⟨rfl, rfl⟩ := Prod.mk.inj h
    rfl

/-- All the calls, in the order in which they take effect. -/
theorem raised_run {maps' : Maps} {calls : List (Call × Answer)}
    (hset : ∀ e ∈ calls, ∀ v, e.1 ≠ .set action key v) : ∀ {maps : Maps},
    Trace (Answers spec) maps calls maps' →
      ((calls.map Prod.fst).map (raised action key)).sum + (maps action).value key =
        (calls.map (handedOver action key)).sum + (maps' action).value key := by
  induction calls with
  | nil =>
    rintro maps rfl
    rfl
  | cons e calls ih =>
    rintro maps ⟨next, hanswer, hrest⟩
    obtain ⟨hhead, htail⟩ := List.forall_mem_cons.mp hset
    have hstep := raised_step hanswer hhead
    have hgone := ih htail hrest
    simp only [List.map_cons, List.sum_cons]
    omega

/-- **No count is lost and none is handed over twice**: whenever no call is under way, after whatever
interleaving of any number of threads, what the calls of `add` brought for a counter is what the
calls of `getAndClear` were given of it and what it says now.

When no call is under way, those that took effect are those that were made and have returned
(`Linearizes.quiet`); the rest is `raised_run`. -/
theorem counts_kept {s : Store T} (hrun : Use.Steps ServiceMetricManager (Store.empty T) es s)
    (hquiet : ∀ t, s.place t = .outside)
    (hset : ∀ t value, (t, .invoke (.set action key value)) ∉ es) :
    ((invoked s.history).map (raised action key)).sum =
      ((returned s.history).map (handedOver action key)).sum + (s.shared action).value key := by
  have hstart : implements.Rep (fun _ => []) (fun _ => []) := rfl
  obtain ⟨log, now, h⟩ := implements.coherent hstart hrun
  have hidle : ∀ t, (s.place t).phase = .idle := by
    intro t
    rw [hquiet t]
    rfl
  obtain ⟨hreturned, hinvoked⟩ := h.linearizes.quiet hidle
  have hrest : s.shared = now := by
    apply h.rep
    intro t call l hplace
    rw [hquiet t] at hplace
    cases hplace
  have hcalls : ∀ e ∈ effects log, ∀ v, e.1 ≠ .set action key v := by
    intro e he v hcall
    have hmem := hinvoked.subset (List.mem_map_of_mem he)
    rw [hcall] at hmem
    obtain ⟨t, ht⟩ := Linearizes.mem_invoked hmem
    exact hset t v (hrun.invoked rfl t _ ht)
  have hsum := raised_run hcalls h.linearizes.legal
  rw [← (hinvoked.map _).sum_eq, ← (hreturned.map _).sum_eq, hrest, ← hsum]
  exact (Int.add_zero _).symm

/-- In this run one unit was handed over and one is still there. -/
theorem counts_kept_collecting :
    ∃ s : Store Caller,
      Use.exec ServiceMetricManager (Store.empty Caller) collecting = some s ∧
      ((invoked s.history).map (raised .kAlgoModelMonitor "cv_input_frame_count")).sum =
        ((returned s.history).map (handedOver .kAlgoModelMonitor "cv_input_frame_count")).sum +
          (s.shared .kAlgoModelMonitor).value "cv_input_frame_count" := by
  have hplaces : (Use.exec ServiceMetricManager (Store.empty Caller) collecting).map
      (fun s => (s.place .loader, s.place .detector, s.place .event)) =
      some (.outside, .outside, .outside) := by
    decide +kernel
  obtain ⟨s, hs, hplace⟩ := Option.map_eq_some_iff.mp hplaces
  refine ⟨s, hs, counts_kept (Use.exec_steps hs) ?_ ?_⟩
  · intro t
    obtain ⟨h₀, h₁, h₂⟩ := And.imp_right Prod.mk.inj (Prod.mk.inj hplace)
    cases t
    · exact h₀
    · exact h₁
    · exact h₂
  · intro t value hmem
    obtain hcall | hcall := collecting_calls hmem
    · cases hcall
    · cases hcall

end ServiceMetricManager

end EdgeFrame.Metric
