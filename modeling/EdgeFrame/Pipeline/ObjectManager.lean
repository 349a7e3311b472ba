/-
# EdgeFrame.Pipeline.ObjectManager -- the named objects that threads share

A `SafeObjectManager` is an `std::unordered_map` whose `Safe` functions lock `my_mutex`
around several accesses: a test by `count`, a subscript that makes the entry it lacks and
an assignment to it, or a walk with an iterator. Both managers of the program hold shared
pointers, which `FreeObject` leaves alone.

The class is modelled access by access, so that the threads' accesses interleave, and the
mutex is what keeps them apart. What a manager is for is `spec`: names that are bound by
the first `SafeAdd`. `Mid` says, before each access of a call, what the call has found so
far and what it is going to answer; `mid_goes_on` and `mid_decides` are its steps. The general
theorem about objects behind one mutex (`Lib.Atomic`) turns this into linearizability of
every history, and the last section reads one consequence off it: as long as nothing is
removed, everybody gets the one object that a name stands for.
-/
import EdgeFrame.Lib.Atomic
import EdgeFrame.Pipeline.Wiring

namespace EdgeFrame.Pipeline.ObjectManager

open Lib

variable {K V : Type} [DecidableEq K]

/-- The order in which a map is walked; it may change whenever the map does. -/
structure Order (K V : Type) where
  entries : Dict K V → List (Sigma fun _ : K => V)
  perm : ∀ m, (entries m).Perm m.entries

/-- The functions that lock. -/
inductive Call (K V : Type) where
  | SafeFind (name : K)
  | SafeGet (name : K)
  | SafeAdd (name : K) (data : V)
  | SafeRemove (name : K)
  | SafeRemoveOnly (name : K)
  deriving DecidableEq, Repr

/-- What a call returns; `got` is a `SafeGet` that returns true and sets `val`. -/
inductive Answer (V : Type) where
  | ret (ret : Bool)
  | got (val : V)
  deriving DecidableEq, Repr

/-- The access that comes next. -/
inductive Line (K V : Type) where
  /-- `manager->count(name)`, in each of the functions that count. -/
  | find (name : K)
  | get (name : K)
  | add (name : K) (data : V)
  /-- `val = (*manager)[name]`. -/
  | read (name : K)
  /-- The subscript of `(*manager)[name] = data`. -/
  | create (name : K) (data : V)
  /-- Its assignment. -/
  | assign (name : K) (data : V)
  /-- `ir != end`, and `ir->first == name`. -/
  | test (name : K) (ir : Nat)
  /-- `manager->erase(ir)`. -/
  | erase (name : K)
  deriving DecidableEq, Repr

/-- After `Lock`. -/
def enter : Call K V → Line K V
  | .SafeFind name => .find name
  | .SafeGet name => .get name
  | .SafeAdd name data => .add name data
  | .SafeRemove name => .test name 0
  | .SafeRemoveOnly name => .test name 0

/-- One access, up to `Unlock`. -/
def access [Inhabited V] (order : Order K V) :
    Line K V → Dict K V → (Line K V ⊕ Answer V) × Dict K V
  | .find name, m => (.inr (.ret (decide (name ∈ m))), m)
  | .get name, m => if name ∈ m then (.inl (.read name), m) else (.inr (.ret false), m)
  | .add name data, m =>
    if name ∈ m then (.inr (.ret false), m) else (.inl (.create name data), m)
  | .read name, m =>
    let (val, m) := m.subscript name
    (.inr (.got val), m)
  | .create name data, m => (.inl (.assign name data), (m.subscript name).2)
  | .assign name data, m => (.inr (.ret true), m.insert name data)
  | .test name ir, m =>
    match (order.entries m)[ir]? with
    | none => (.inr (.ret false), m)
    | some entry =>
      if entry.1 = name then (.inl (.erase name), m) else (.inl (.test name (ir + 1)), m)
  | .erase name, m => (.inr (.ret true), m.erase name)

/-- The class. -/
def SafeObjectManager [Inhabited V] (order : Order K V) :
    Locked (Call K V) (Line K V) (Dict K V) (Answer V) where
  enter := enter
  access := access order

/-! ## What the manager is for -/

/-- What the names stand for. -/
abbrev Names (K V : Type) := K → Option V

/-- A name is bound by the first `SafeAdd` and free again after a removal. -/
def spec (names : Names K V) : Call K V → Names K V × Answer V
  | .SafeFind name => (names, .ret (names name).isSome)
  | .SafeGet name =>
    match names name with
    | some val => (names, .got val)
    | none => (names, .ret false)
  | .SafeAdd name data =>
    match names name with
    | some _ => (names, .ret false)
    | none => (Function.update names name (some data), .ret true)
  | .SafeRemove name => (Function.update names name none, .ret (names name).isSome)
  | .SafeRemoveOnly name => (Function.update names name none, .ret (names name).isSome)

/-- The registry of the start-up is what the manager of the queues is for: `buildProcessor` adds the
queue it has made, -/
theorem spec_add (queues : Registry String) (name : String) :
    (spec queues.lookup (.SafeAdd name queues.made)).1 = (queues.add name).lookup := by
  funext n
  simp only [spec]
  split
  · rename_i q hq
    show queues.lookup n = (queues.add name).lookup n
    by_cases hn : n = name
    · rw [hn, hq]
      exact (Registry.grows_add queues name name q hq).symm
    · exact (Registry.lookup_add_ne hn).symm
  · rename_i hnone
    have hfresh : name ∉ queues.bound :=
      fun hmem => absurd hnone (Option.isSome_iff_ne_none.mp (AList.lookup_isSome.mpr hmem))
    show Function.update queues.lookup name (some queues.made) n = (queues.add name).lookup n
    by_cases hn : n = name
    · rw [hn, Function.update_self]
      unfold Registry.add
      rw [if_neg hfresh]
      exact (AList.lookup_insert queues.bound).symm
    · rw [Function.update_of_ne hn]
      exact (Registry.lookup_add_ne hn).symm

/-- and `init` gets it. -/
theorem spec_get (queues : Registry String) (name : String) (val : QueuePtr) :
    SafeGet queues name val =
      match (spec queues.lookup (.SafeGet name)).2 with
      | .got q => some q
      | .ret _ => val := by
  unfold Pipeline.SafeGet
  simp only [spec]
  cases queues.lookup name with
  | none => rfl
  | some q => rfl

/-- The map says what the names stand for. -/
def Says (m : Dict K V) (names : Names K V) : Prop := ∀ name, m.lookup name = names name

/-- What holds before each access of a call. -/
def Mid [Inhabited V] (order : Order K V) (names : Names K V) (call : Call K V) (line : Line K V)
    (m : Dict K V) : Prop :=
  match line with
  | .find name => Says m names ∧ call = .SafeFind name
  | .get name => Says m names ∧ call = .SafeGet name
  | .add name data => Says m names ∧ call = .SafeAdd name data
  | .read name => Says m names ∧ call = .SafeGet name ∧ name ∈ m
  | .create name data => Says m names ∧ call = .SafeAdd name data ∧ name ∉ m
  -- the entry has been made, and nobody else has seen it
  | .assign name data => Says m (Function.update names name (some default)) ∧
      call = .SafeAdd name data ∧ names name = none
  | .test name ir => Says m names ∧ (call = .SafeRemove name ∨ call = .SafeRemoveOnly name) ∧
      ∀ entry ∈ (order.entries m).take ir, entry.1 ≠ name
  | .erase name => Says m names ∧ (call = .SafeRemove name ∨ call = .SafeRemoveOnly name) ∧ name ∈ m

section Lookups

variable {m : Dict K V} {names : Names K V}

/-- A name is in the map when it stands for something. -/
theorem Says.mem (h : Says m names) {name : K} : name ∈ m ↔ (names name).isSome := by
  rw [← h name]
  exact AList.lookup_isSome.symm

/-- A name that is not there stands for nothing. -/
theorem Says.names_none (h : Says m names) {name : K} (hmem : name ∉ m) : names name = none := by
  rw [h.mem] at hmem
  exact Option.not_isSome_iff_eq_none.mp hmem

/-- An entry that is assigned to. -/
theorem Says.insert (h : Says m names) (name : K) (data : V) :
    Says (m.insert name data) (Function.update names name (some data)) := by
  intro n
  by_cases hn : n = name
  · rw [hn, AList.lookup_insert, Function.update_self]
  · rw [AList.lookup_insert_ne hn, Function.update_of_ne hn]
    exact h n

/-- An entry that is removed. -/
theorem Says.erase (h : Says m names) (name : K) :
    Says (m.erase name) (Function.update names name none) := by
  intro n
  by_cases hn : n = name
  · rw [hn, AList.lookup_erase, Function.update_self]
  · rw [AList.lookup_erase_ne hn, Function.update_of_ne hn]
    exact h n

/-- A subscript of a name that is there reads it. -/
theorem subscript_of_mem [Inhabited V] (h : Says m names) {name : K} (hmem : name ∈ m) :
    ∃ val, names name = some val ∧ m.subscript name = (val, m) := by
  obtain ⟨val, hval⟩ := Option.isSome_iff_exists.mp (h.mem.mp hmem)
  refine ⟨val, hval, ?_⟩
  unfold Dict.subscript
  rw [h name, hval]

/-- A subscript of a name that is not there makes an entry for it. -/
theorem subscript_of_not_mem [Inhabited V] (h : Says m names) {name : K} (hmem : name ∉ m) :
    (m.subscript name).2 = m.insert name default := by
  unfold Dict.subscript
  rw [h name, h.names_none hmem]

omit [DecidableEq K] in
/-- A walk that has come to the end has seen every name. -/
theorem not_mem_of_walked (order : Order K V) {name : K} {ir : Nat}
    (hend : (order.entries m)[ir]? = none)
    (hseen : ∀ entry ∈ (order.entries m).take ir, entry.1 ≠ name) :
    name ∉ m := by
  intro hmem
  obtain ⟨entry, hentry, hname⟩ := List.mem_map.mp hmem
  have hwalked : entry ∈ order.entries m := (order.perm m).mem_iff.mpr hentry
  rw [List.take_of_length_le (List.getElem?_eq_none_iff.mp hend)] at hseen
  exact hseen entry hwalked hname

end Lookups

/-! ## The accesses of a call, one by one -/

section Accesses

variable [Inhabited V] {order : Order K V} {names : Names K V} {call : Call K V} {m m' : Dict K V}
  {line line' : Line K V} {answer : Answer V}

/-- Before the first access nothing has been found. -/
theorem mid_enter (h : Says m names) (call : Call K V) : Mid order names call (enter call) m := by
  cases call with
  | SafeFind name => exact ⟨h, rfl⟩
  | SafeGet name => exact ⟨h, rfl⟩
  | SafeAdd name data => exact ⟨h, rfl⟩
  | SafeRemove name => exact ⟨h, Or.inl rfl, by simp⟩
  | SafeRemoveOnly name => exact ⟨h, Or.inr rfl, by simp⟩

/-- An access after which the call goes on. -/
theorem mid_goes_on (h : Mid order names call line m)
    (haccess : access order line m = (.inl line', m')) : Mid order names call line' m' := by
  cases line with
  | find name => cases haccess
  -- `find` was true, so that the name is known to be there when it is read
  | get name =>
    simp only [access] at haccess
    split at haccess
    · rename_i hmem
      obtain ⟨hline, rfl⟩ := Prod.mk.inj haccess
      obtain rfl := Sum.inl.inj hline
      exact ⟨h.1, h.2, hmem⟩
    · cases haccess
  | add name data =>
    simp only [access] at haccess
    split at haccess
    · cases haccess
    · rename_i hmem
      obtain ⟨hline, rfl⟩ := Prod.mk.inj haccess
      obtain rfl := Sum.inl.inj hline
      exact ⟨h.1, h.2, hmem⟩
  | read name => cases haccess
  -- the subscript makes an empty entry first: `SafeAdd` is between its two halves here
  | create name data =>
    obtain ⟨htold, hcall, hmem⟩ := h
    obtain ⟨hline, rfl⟩ := Prod.mk.inj haccess
    obtain rfl := Sum.inl.inj hline
    refine ⟨?_, hcall, htold.names_none hmem⟩
    rw [subscript_of_not_mem htold hmem]
    exact htold.insert name default
  | assign name data => cases haccess
  -- one entry of the scan is compared, and does not have the name or has it
  | test name ir =>
    obtain ⟨htold, hcall, hseen⟩ := h
    simp only [access] at haccess
    split at haccess
    · cases haccess
    · rename_i entry hentry
      split at haccess
      · rename_i hname
        obtain ⟨hline, rfl⟩ := Prod.mk.inj haccess
        obtain rfl := Sum.inl.inj hline
        refine ⟨htold, hcall, ?_⟩
        have hin : entry ∈ m.entries := (order.perm m).mem_iff.mp (List.mem_of_getElem? hentry)
        exact List.mem_map.mpr ⟨entry, hin, hname⟩
      · rename_i hname
        obtain ⟨hline, rfl⟩ := Prod.mk.inj haccess
        obtain rfl := Sum.inl.inj hline
        refine ⟨htold, hcall, ?_⟩
        intro e he
        rw [List.take_add_one, hentry] at he
        obtain hold | hnew := List.mem_append.mp he
        · exact hseen e hold
        · rw [List.mem_singleton.mp hnew]
          exact hname
  | erase name => cases haccess

/-- The access that ends a call. -/
theorem mid_decides (h : Mid order names call line m)
    (haccess : access order line m = (.inr answer, m')) :
    (spec names call).2 = answer ∧ Says m' (spec names call).1 := by
  cases line with
  -- the answer of a test is whether the name is there
  | find name =>
    obtain ⟨htold, rfl⟩ := h
    obtain ⟨hanswer, rfl⟩ := Prod.mk.inj haccess
    obtain rfl := Sum.inr.inj hanswer
    refine ⟨?_, htold⟩
    show Answer.ret (names name).isSome = .ret (decide (name ∈ m))
    rw [decide_eq_decide.mpr htold.mem, Bool.decide_coe]
  | get name =>
    obtain ⟨htold, rfl⟩ := h
    simp only [access] at haccess
    split at haccess
    · cases haccess
    · rename_i hmem
      obtain ⟨hanswer, rfl⟩ := Prod.mk.inj haccess
      obtain rfl := Sum.inr.inj hanswer
      simp only [spec, htold.names_none hmem]
      exact ⟨trivial, htold⟩
  | add name data =>
    obtain ⟨htold, rfl⟩ := h
    simp only [access] at haccess
    split at haccess
    -- the name is taken
    · rename_i hmem
      obtain ⟨hanswer, rfl⟩ := Prod.mk.inj haccess
      obtain rfl := Sum.inr.inj hanswer
      obtain ⟨val, hval, -⟩ := subscript_of_mem htold hmem
      simp only [spec, hval]
      exact ⟨trivial, htold⟩
    · cases haccess
  | read name =>
    obtain ⟨htold, rfl, hmem⟩ := h
    obtain ⟨val, hval, hread⟩ := subscript_of_mem htold hmem
    simp only [access, hread] at haccess
    obtain ⟨hanswer, rfl⟩ := Prod.mk.inj haccess
    obtain rfl := Sum.inr.inj hanswer
    simp only [spec, hval]
    exact ⟨trivial, htold⟩
  | create name data => cases haccess
  -- `create` has bound the name to an empty object, which is replaced here
  | assign name data =>
    obtain ⟨htold, rfl, hnone⟩ := h
    obtain ⟨hanswer, rfl⟩ := Prod.mk.inj haccess
    obtain rfl := Sum.inr.inj hanswer
    simp only [spec, hnone]
    refine ⟨trivial, ?_⟩
    have hassigned := htold.insert name data
    rw [Function.update_idem] at hassigned
    exact hassigned
  | test name ir =>
    obtain ⟨htold, hcall, hseen⟩ := h
    simp only [access] at haccess
    split at haccess
    -- the walk has come to its end without the name
    · rename_i hend
      obtain ⟨hanswer, rfl⟩ := Prod.mk.inj haccess
      obtain rfl := Sum.inr.inj hanswer
      have hnone := htold.names_none (not_mem_of_walked order hend hseen)
      have hsame : Function.update names name none = names := by
        rw [← hnone]
        exact Function.update_eq_self name names
      obtain rfl | rfl := hcall
      · simp only [spec, hsame, hnone]
        exact ⟨rfl, htold⟩
      · simp only [spec, hsame, hnone]
        exact ⟨rfl, htold⟩
    · split at haccess <;> cases haccess
  | erase name =>
    obtain ⟨htold, hcall, hmem⟩ := h
    obtain ⟨hanswer, rfl⟩ := Prod.mk.inj haccess
    obtain rfl := Sum.inr.inj hanswer
    have hsome := htold.mem.mp hmem
    obtain rfl | rfl := hcall
    · simp only [spec, hsome]
      exact ⟨trivial, htold.erase name⟩
    · simp only [spec, hsome]
      exact ⟨trivial, htold.erase name⟩

end Accesses

/-- Left alone, a call does what it is for.

It is what `Lib.Atomic` asks for: the accesses of a call, from where the map says what the names
stand for to where it does again. -/
def implements [Inhabited V] (order : Order K V) :
    Implements (SafeObjectManager order) (spec (K := K) (V := V)) where
  Rep := Says
  Mid := Mid order
  enter call h := mid_enter h call
  goes_on := mid_goes_on
  decides := mid_decides

/-! ## Runs -/

variable {T : Type} [DecidableEq T]

/-- The manager and its callers. -/
abbrev Manager (T K V : Type) [DecidableEq K] := Use T (Call K V) (Line K V) (Dict K V) (Answer V)

/-- The empty manager. -/
def Manager.empty (T K V : Type) [DecidableEq K] : Manager T K V :=
  Use.init T (Call K V) (Line K V) (Answer V) ∅

/-- An empty map says that no name stands for anything. -/
theorem says_empty : Says (∅ : Dict K V) (fun _ => none) := fun _ => AList.lookup_empty _

/-- **Whatever the threads do and however their accesses interleave, every call happens at once**:
what the callers see is what names that are bound and freed one call at a time would have shown them,
a map that nobody has locked says what these names stand for, and no call is stuck while another goes
on.

The history is that of calls and returns as the threads see them; the order in which the calls happen
is that of their last accesses before `Unlock`. -/
theorem linearizable [Inhabited V] (order : Order K V) {es : List (T × Move (Call K V))}
    {s : Manager T K V}
    (hrun : Use.Steps (SafeObjectManager order) (Manager.empty T K V) es s) :
    ∃ log names,
      Linearizes spec (fun _ => none) s.history log (fun t => (s.place t).phase) names ∧
      (s.mutex.holder = none → Says s.shared names) ∧
      ∀ t, s.place t ≠ .outside → ∃ u m, (∀ call, m ≠ .invoke call) ∧
        (s.step (SafeObjectManager order) u m).isSome := by
  obtain ⟨log, names, h⟩ := (implements order).coherent says_empty hrun
  exact ⟨log, names, h.linearizes, h.rest, fun t ht => h.guarded.goes_on ht⟩

/-- A map that is walked as it is listed. -/
def listed (K V : Type) : Order K V := ⟨fun m => m.entries, fun _ => .refl _⟩

/-- Two threads that add a queue each under one name, and the later one gets it. -/
def race : List (Nat × Move (Call String Nat)) :=
  [(0, .invoke (.SafeAdd "Detector" 7)), (1, .invoke (.SafeAdd "Detector" 8)), (1, .lock),
    (1, .access), (1, .access), (1, .access), (1, .unlock), (0, .lock), (1, .respond), (0, .access),
    (1, .invoke (.SafeGet "Detector")), (0, .unlock), (0, .respond), (1, .lock), (1, .access),
    (1, .access), (1, .unlock), (1, .respond)]

/-- The later thread is first, and the earlier one is told that the name is taken. -/
theorem exec_race :
    (Use.exec (SafeObjectManager (listed String Nat)) (Manager.empty Nat String Nat) race).map
      (fun s => s.history) =
    some [(0, .invoke (.SafeAdd "Detector" 7)), (1, .invoke (.SafeAdd "Detector" 8)),
      (1, .respond (.SafeAdd "Detector" 8) (.ret true)), (1, .invoke (.SafeGet "Detector")),
      (0, .respond (.SafeAdd "Detector" 7) (.ret false)),
      (1, .respond (.SafeGet "Detector") (.got 8))] := by
  decide +kernel

/-- What the theorem says of this run. -/
theorem linearizable_race :
    ∃ s : Manager Nat String Nat,
      Use.exec (SafeObjectManager (listed String Nat)) (Manager.empty Nat String Nat) race = some s ∧
      ∃ log names,
        Linearizes spec (fun _ => none) s.history log (fun t => (s.place t).phase) names ∧
        (s.mutex.holder = none → Says s.shared names) ∧
        ∀ t, s.place t ≠ .outside → ∃ u m, (∀ call, m ≠ .invoke call) ∧
          (s.step (SafeObjectManager (listed String Nat)) u m).isSome := by
  obtain ⟨s, hs, -⟩ := Option.map_eq_some_iff.mp exec_race
  exact ⟨s, hs, linearizable (listed String Nat) (Use.exec_steps hs)⟩

/-! ## Names that are never freed -/

/-- The program calls no removal. -/
def Call.Keeps : Call K V → Prop
  | .SafeRemove _ => False
  | .SafeRemoveOnly _ => False
  | _ => True

/-- A `SafeAdd` that returned true. -/
def added (name : K) : Call K V × Answer V → Bool
  | (.SafeAdd n _, .ret true) => n = name
  | _ => false

/-- One `SafeAdd` has bound the name, or none; every `SafeGet` has found what it put there. -/
structure Kept (calls : List (Call K V × Answer V)) (names : Names K V) : Prop where
  once : ∀ name, calls.countP (added name) = if (names name).isSome then 1 else 0
  added : ∀ name val, names name = some val → (.SafeAdd name val, .ret true) ∈ calls
  bound : ∀ name val, (.SafeAdd name val, .ret true) ∈ calls → names name = some val
  got : ∀ name val, (.SafeGet name, .got val) ∈ calls → names name = some val

section Keeping

variable {calls : List (Call K V × Answer V)} {names : Names K V}

/-- Without a call nothing is bound. -/
theorem kept_nil : Kept ([] : List (Call K V × Answer V)) (fun _ => none) :=
  ⟨fun _ => rfl, (fun _ _ h => nomatch h), (fun _ _ h => nomatch h), (fun _ _ h => nomatch h)⟩

/-- A call that binds nothing and finds what is there. -/
theorem Kept.look (h : Kept calls names) {e : Call K V × Answer V}
    (hadded : ∀ name, ObjectManager.added name e = false)
    (hgot : ∀ name val, e = (.SafeGet name, .got val) → names name = some val) :
    Kept (calls ++ [e]) names where
  once name := by
    rw [List.countP_append, h.once name]
    simp [hadded name]
  added name val hval := List.mem_append_left _ (h.added name val hval)
  bound name val hmem := by
    obtain hold | hnew := List.mem_append.mp hmem
    · exact h.bound name val hold
    · have hfalse := hadded name
      rw [← List.mem_singleton.mp hnew] at hfalse
      simp [ObjectManager.added] at hfalse
  got name val hmem := by
    obtain hold | hnew := List.mem_append.mp hmem
    · exact h.got name val hold
    · exact hgot name val (List.mem_singleton.mp hnew).symm

/-- The first `SafeAdd` of a name. -/
theorem Kept.bind (h : Kept calls names) {name : K} {data : V} (hnone : names name = none) :
    Kept (calls ++ [(.SafeAdd name data, .ret true)])
      (Function.update names name (some data)) where
  once n := by
    -- an add that returned true is counted for this name only, which has had none
    rw [List.countP_append, h.once n]
    by_cases hn : n = name
    · subst hn
      simp [hnone, ObjectManager.added]
    · rw [Function.update_of_ne hn]
      simp [ObjectManager.added, Ne.symm hn]
  added n val hval := by
    by_cases hn : n = name
    · subst hn
      rw [Function.update_self] at hval
      obtain rfl := Option.some.inj hval
      exact List.mem_append_right _ (List.mem_singleton.mpr rfl)
    · rw [Function.update_of_ne hn] at hval
      exact List.mem_append_left _ (h.added n val hval)
  bound n val hmem := by
    obtain hold | hnew := List.mem_append.mp hmem
    · have hval := h.bound n val hold
      -- a name that is bound is not this one
      have hn : n ≠ name := by
        rintro rfl
        rw [hnone] at hval
        cases hval
      rw [Function.update_of_ne hn]
      exact hval
    · obtain ⟨hcall, -⟩ := Prod.mk.inj (List.mem_singleton.mp hnew)
      obtain ⟨rfl, rfl⟩ := Call.SafeAdd.inj hcall
      exact Function.update_self _ _ _
  got n val hmem := by
    obtain hold | hnew := List.mem_append.mp hmem
    · have hval := h.got n val hold
      have hn : n ≠ name := by
        rintro rfl
        rw [hnone] at hval
        cases hval
      rw [Function.update_of_ne hn]
      exact hval
    · cases (List.mem_singleton.mp hnew)

/-- A call that has answered as the specification does. -/
theorem Kept.step (h : Kept calls names) {e : Call K V × Answer V} {names' : Names K V}
    (hkeeps : e.1.Keeps) (hanswer : Answers spec names e names') :
    Kept (calls ++ [e]) names' := by
  obtain ⟨call, answer⟩ := e
  cases call with
  | SafeFind name =>
    obtain ⟨rfl, rfl⟩ := Prod.mk.inj hanswer
    exact h.look (fun _ => rfl) (fun _ _ he => nomatch he)
  | SafeGet name =>
    simp only [Answers, spec] at hanswer
    split at hanswer
    · rename_i val hval
      obtain ⟨rfl, rfl⟩ := Prod.mk.inj hanswer
      apply h.look (fun _ => rfl)
      intro n val' he
      obtain ⟨hcall, hgot⟩ := Prod.mk.inj he
      obtain rfl := Call.SafeGet.inj hcall
      obtain rfl := Answer.got.inj hgot
      exact hval
    · obtain ⟨rfl, rfl⟩ := Prod.mk.inj hanswer
      exact h.look (fun _ => rfl) (fun _ _ he => nomatch he)
  | SafeAdd name data =>
    simp only [Answers, spec] at hanswer
    split at hanswer
    · obtain ⟨rfl, rfl⟩ := Prod.mk.inj hanswer
      exact h.look (fun _ => rfl) (fun _ _ he => nomatch he)
    · rename_i hnone
      obtain ⟨rfl, rfl⟩ := Prod.mk.inj hanswer
      exact h.bind hnone
  | SafeRemove name => exact hkeeps.elim
  | SafeRemoveOnly name => exact hkeeps.elim

/-- All the calls of a run, by induction. -/
theorem kept_of_trace (h : Trace (Answers spec) (fun _ => none) calls names)
    (hkeeps : ∀ e ∈ calls, e.1.Keeps) : Kept calls names := by
  apply Trace.history_of_forall (Q := fun e => e.1.Keeps) kept_nil _ h hkeeps
  rintro calls names e names' - hkept he hanswer
  exact hkept.step he hanswer

end Keeping

/-- **All threads share one object under a name**: where nothing is removed, as in the program, and
in any interleaving, at most one `SafeAdd` of a name returns true, the name stands for what some
`SafeAdd` was called with, and whoever gets the name, at whatever time, gets that.

It is read off the order in which the calls happen by `linearizable`; `Kept` is an invariant of the
specification, and no thread occurs in it. -/
theorem one_object [Inhabited V] (order : Order K V) {es : List (T × Move (Call K V))}
    {s : Manager T K V}
    (hrun : Use.Steps (SafeObjectManager order) (Manager.empty T K V) es s)
    (hkeeps : ∀ t call, (t, .invoke call) ∈ es → call.Keeps) (name : K) :
    (returned s.history).countP (added name) ≤ 1 ∧
      ∃ object : Option V,
        (∀ val, object = some val → ∃ t, (t, .invoke (.SafeAdd name val)) ∈ s.history) ∧
        (∀ val, (.SafeAdd name val, .ret true) ∈ returned s.history → object = some val) ∧
        ∀ val, (.SafeGet name, .got val) ∈ returned s.history → object = some val := by
  obtain ⟨log, names, h⟩ := (implements order).coherent says_empty hrun
  have hsub := h.linearizes.returned_subperm
  have hcalls := h.linearizes.effects_subperm.subset
  have hkept : Kept (effects log) names := by
    apply kept_of_trace h.linearizes.legal
    intro e he
    obtain ⟨t, ht⟩ := Linearizes.mem_invoked (hcalls (List.mem_map_of_mem he))
    exact hkeeps t e.1 (hrun.invoked rfl t e.1 ht)
  refine ⟨?_, names name, ?_, ?_, ?_⟩
  · apply (hsub.countP_le (added name)).trans
    rw [hkept.once name]
    split
    · exact Nat.le_refl 1
    · exact Nat.zero_le 1
  · intro val hval
    exact Linearizes.mem_invoked (hcalls (List.mem_map_of_mem (hkept.added name val hval)))
  · intro val hval
    exact hkept.bound name val (hsub.subset hval)
  · intro val hval
    exact hkept.got name val (hsub.subset hval)

/-- Both threads have the queue that the later one has added. -/
theorem one_object_race :
    ∃ s : Manager Nat String Nat,
      Use.exec (SafeObjectManager (listed String Nat)) (Manager.empty Nat String Nat) race = some s ∧
      (returned s.history).countP (added "Detector") ≤ 1 ∧
      ∃ object : Option Nat,
        (∀ val, object = some val → ∃ t, (t, .invoke (.SafeAdd "Detector" val)) ∈ s.history) ∧
        (∀ val, (.SafeAdd "Detector" val, .ret true) ∈ returned s.history → object = some val) ∧
        ∀ val, (.SafeGet "Detector", .got val) ∈ returned s.history → object = some val := by
  obtain ⟨s, hs, -⟩ := Option.map_eq_some_iff.mp exec_race
  refine ⟨s, hs, one_object (listed String Nat) (Use.exec_steps hs) ?_ "Detector"⟩
  intro t call hmem
  simp only [race, List.mem_cons, Prod.mk.injEq, Move.invoke.injEq, reduceCtorEq, and_false,
    List.not_mem_nil, or_false, false_or] at hmem
  obtain ⟨-, rfl⟩ | ⟨-, rfl⟩ | ⟨-, rfl⟩ := hmem
  · trivial
  · trivial
  · trivial

end EdgeFrame.Pipeline.ObjectManager
