/-
# EdgeFrame.Flow.HandOver -- where the popped messages are

Every message popped from `q_` should be in exactly one place: delivered, waiting
in `failed_q`, or handed to `saveCache`. The re-send loop breaks this each time it
runs: its two branches are exchanged, so a re-send that succeeds leaves the
message in `failed_q` and one that fails drops it. `handOver_iff` turns this into
the exact condition on a run.

A round is taken apart once. The counters touch no book (`SameBooks`), the re-send loop
is summed up by `Resent`, and `AfterRound` says what a round that popped `m` did: the
calls it made, and what is in `failed_q` or was flushed. `round_of_failed` and
`round_of_sent` are the two ways a round can go; nothing after them opens the loop.

`InOrder` holds whatever was sent, and makes the law a matter of single steps: a message
that is popped is one the books do not know yet. So a step without a re-send keeps the
law (`handOver_of_failed`, `handOver_of_sent`), and a step with one breaks it in
either branch (`not_handOver_of_resend`). The law is asked at every head of the loop, so
that what a later round does cannot make up for it.
-/
import EdgeFrame.Flow.Uploader
import EdgeFrame.Lib.Runs
import Mathlib

namespace EdgeFrame.Flow

namespace Uploader

/-! ## The law -/

/-- How many `sendMessage` calls of `run` on `m` returned true. -/
def deliveries (s : Uploader) (m : Msg) : Nat := s.calls.count (m, true)

/-- `m` is in exactly one of the three places.

The deliveries are counted, so that a message sent twice with success is not in one place either. -/
def InOnePlace (s : Uploader) (m : Msg) : Prop :=
  (s.deliveries m = 1 ∧ m ∉ s.failed_q ∧ m ∉ s.saved) ∨
  (s.deliveries m = 0 ∧ s.failed_q.count m = 1 ∧ m ∉ s.saved) ∨
  (s.deliveries m = 0 ∧ m ∉ s.failed_q ∧ s.saved.count m = 1)

/-- **Exactly-once hand-over**: every popped message is in exactly one place. -/
def HandOver (s : Uploader) : Prop := ∀ m ∈ s.popped, s.InOnePlace m

/-- The re-sends of the step from `s` to `s'` keep what failed and drop what was delivered.

It is a statement about what the loop is for, read off the state before and the calls made. The law
and this together are what the comments of the source promise. -/
def ResendSound (s s' : Uploader) : Prop :=
  ∀ m ∈ s.failed_q, ∀ ret, (m, ret) ∈ s'.calls.drop s.calls.length →
    if ret then m ∉ s'.failed_q else m ∈ s'.failed_q ∨ m ∈ s'.saved

/-- The first `sendMessage` of the round that starts in `s` succeeds. -/
def FirstSendOk (env : FlowEnv) (s : Uploader) : Prop :=
  ∃ m rest, s.q_ = m :: rest ∧ (sendMessage env s.spool.posts m.text).1 = true

/-- The step re-sends nothing: it is an enqueue, or its first send fails, or nothing waits in
`failed_q`. -/
def NoResend (env : FlowEnv) (s : Uploader) : Event → Prop
  | .enqueue _ => True
  | .round => FirstSendOk env s → s.failed_q = []

/-! ## What the parts of a round leave alone -/

/-- Two states that agree on the queues and on the records. -/
structure SameBooks (s s' : Uploader) : Prop where
  q_ : s'.q_ = s.q_
  failed_q : s'.failed_q = s.failed_q
  pushed : s'.pushed = s.pushed
  popped : s'.popped = s.popped
  calls : s'.calls = s.calls
  saved : s'.saved = s.saved

/-- Sending the counters moves no message. -/
theorem sendMetric_books (s : Uploader) : SameBooks s (sendMetric s) := by
  unfold sendMetric
  split <;> constructor <;> rfl

/-- Neither does the timer of the counters. -/
theorem tickMetric_books (s : Uploader) : SameBooks s (tickMetric s) := by
  unfold tickMetric
  split
  · exact ⟨(sendMetric_books s).q_, (sendMetric_books s).failed_q, (sendMetric_books s).pushed,
      (sendMetric_books s).popped, (sendMetric_books s).calls, (sendMetric_books s).saved⟩
  · constructor <;> rfl

/-- The flush empties the list it is given into `saved`. -/
theorem flushFailed_books (env : FlowEnv) (data_store : String) (l : List Msg) (s : Uploader)
    (hl : s.failed_q = l) :
    let s' := flushFailed env data_store l s
    s'.failed_q = [] ∧ s'.saved = s.saved ++ l ∧ s'.calls = s.calls ∧ s'.q_ = s.q_ ∧
      s'.popped = s.popped ∧ s'.pushed = s.pushed := by
  induction l generalizing s with
  | nil => simp [flushFailed, hl]
  | cons m rest ih =>
    simp only [flushFailed]
    obtain ⟨h1, h2, h3, h4, h5, h6⟩ := ih { s with
      failed_q := rest
      saved := s.saved ++ [m]
      spool := { s.spool with dir := saveCache data_store (env.getCurrentTime s.ticks) m.text s.spool.dir }
      ticks := s.ticks + 1 } rfl
    refine ⟨h1, ?_, h3, h4, h5, h6⟩
    rw [h2]
    simp

/-- The flush writes to disk what `saveAll` writes for the same readings and messages.

The books record that a message was handed to `saveCache`; whether each call finds a name of its own
is settled in `Flow.Spill`. -/
theorem flushFailed_dir (env : FlowEnv) (data_store : String) (l : List Msg) (s : Uploader) :
    (flushFailed env data_store l s).spool.dir =
      saveAll data_store
        (((List.range' s.ticks l.length).map env.getCurrentTime).zip (l.map Msg.text))
        s.spool.dir := by
  induction l generalizing s with
  | nil => rfl
  | cons m rest ih =>
    rw [flushFailed, ih]
    simp [List.range'_succ]

/-- `writeToFile` either changes no book or moves all of `failed_q` into `saved`. -/
theorem writeToFile_books (env : FlowEnv) (data_store : String) (s : Uploader) :
    let s' := writeToFile env data_store s
    s'.calls = s.calls ∧ s'.q_ = s.q_ ∧ s'.popped = s.popped ∧ s'.pushed = s.pushed ∧
      ((s'.failed_q = s.failed_q ∧ s'.saved = s.saved) ∨
        (s'.failed_q = [] ∧ s'.saved = s.saved ++ s.failed_q)) := by
  unfold writeToFile
  split
  · obtain ⟨h1, h2, h3, h4, h5, h6⟩ := flushFailed_books env data_store s.failed_q s rfl
    exact ⟨h3, h4, h5, h6, Or.inr ⟨h1, h2⟩⟩
  · exact ⟨rfl, rfl, rfl, rfl, Or.inl ⟨rfl, rfl⟩⟩

/-! ## The re-send loop -/

/-- What the re-send loop does to the waiting messages `l`: it makes the calls `more`, and `waiting`
stays in `failed_q`. The first re-send decides what becomes of the front: delivered, it stays;
failed, it is gone.

The loop has no other way out: the first branch of the source breaks, the second pops and goes on. -/
structure Resent (l : List Msg) (more : List (Msg × Bool)) (waiting : List Msg) : Prop where
  calls : ∀ c ∈ more, c.1 ∈ l
  suffix : waiting <:+ l
  front : ∀ f tail, l = f :: tail → ∃ r later, more = (f, r) :: later ∧
    (∀ c ∈ later, c.1 ∈ tail) ∧ if r then waiting = l else waiting <:+ tail

/-- The re-send loop makes its calls, moves `failed_q`, and leaves the other books alone.

By induction on `failed_q`, along the loop. -/
theorem resendFailed_books (env : FlowEnv) (l : List Msg) (ret : Bool) (s : Uploader)
    (hl : s.failed_q = l) :
    let s' := (resendFailed env l ret s).2
    (∃ more, s'.calls = s.calls ++ more ∧ Resent l more s'.failed_q) ∧
      s'.q_ = s.q_ ∧ s'.popped = s.popped ∧ s'.pushed = s.pushed ∧ s'.saved = s.saved := by
  induction l generalizing ret s with
  | nil =>
    refine ⟨⟨[], (List.append_nil _).symm, ?_⟩, rfl, rfl, rfl, rfl⟩
    refine ⟨fun c hc => absurd hc (by simp), ?_, fun f tail h => absurd h (by simp)⟩
    show s.failed_q <:+ []
    rw [hl]
  | cons m rest ih =>
    simp only [resendFailed]
    cases hret : (send env m s).1 with
    | true =>
      -- delivered: the loop breaks with the message still in front
      have hcalls : (send env m s).2.calls = s.calls ++ [(m, true)] := by
        show s.calls ++ [(m, (send env m s).1)] = _
        rw [hret]
      refine ⟨⟨[(m, true)], hcalls, ?_, ?_, ?_⟩, rfl, rfl, rfl, rfl⟩
      · intro c hc
        rw [List.mem_singleton.mp hc]
        exact List.mem_cons_self
      · show s.failed_q <:+ m :: rest
        rw [hl]
      · intro f tail h
        obtain ⟨rfl, rfl⟩ := List.cons.inj h
        exact ⟨true, [], rfl, fun c hc => absurd hc (by simp), hl⟩
    | false =>
      obtain ⟨⟨more, hmore, hresent⟩, hbooks⟩ := ih false (popFailed rest (send env m s).2) rfl
      have hcalls : (popFailed rest (send env m s).2).calls = s.calls ++ [(m, false)] := by
        show s.calls ++ [(m, (send env m s).1)] = _
        rw [hret]
      refine ⟨⟨(m, false) :: more, ?_, ?_, ?_, ?_⟩, hbooks⟩
      · rw [if_neg Bool.false_ne_true, hmore, hcalls, List.append_assoc]
        rfl
      · intro c hc
        rcases List.mem_cons.mp hc with rfl | hc
        · exact List.mem_cons_self
        · exact List.mem_cons_of_mem _ (hresent.calls c hc)
      · exact hresent.suffix.trans (List.suffix_cons m rest)
      · intro f tail h
        obtain ⟨rfl, rfl⟩ := List.cons.inj h
        exact ⟨false, more, rfl, hresent.calls, hresent.suffix⟩

/-! ## One round, case by case -/

/-- A round that popped `m`: it made the calls `calls`, and `waiting` is in `failed_q` or was
flushed.

The two theorems after it fill it in; `finishRound_books` adds the pop and the flush, which are the
same in every round. -/
structure AfterRound (s : Uploader) (m : Msg) (calls : List (Msg × Bool)) (waiting : List Msg)
    (s' : Uploader) : Prop where
  calls : s'.calls = s.calls ++ calls
  q_ : s'.q_ = s.q_.tail
  popped : s'.popped = s.popped ++ [m]
  pushed : s'.pushed = s.pushed
  move : (s'.failed_q = waiting ∧ s'.saved = s.saved) ∨
    (s'.failed_q = [] ∧ s'.saved = s.saved ++ waiting)

/-- After its sends a round pops `m` and may flush `failed_q`. -/
theorem finishRound_books (env : FlowEnv) (data_store : String) (m : Msg) {s t : Uploader}
    {calls : List (Msg × Bool)}
    (h : SameBooks { s with calls := s.calls ++ calls, failed_q := t.failed_q } t) :
    AfterRound s m calls t.failed_q (tickMetric (writeToFile env data_store (pop m t))) := by
  have htick := tickMetric_books (writeToFile env data_store (pop m t))
  obtain ⟨hcalls, hq, hpopped, hpushed, hmove⟩ := writeToFile_books env data_store (pop m t)
  refine ⟨?_, ?_, ?_, ?_, ?_⟩
  · exact htick.calls.trans (hcalls.trans h.calls)
  · exact htick.q_.trans (hq.trans (congrArg List.tail h.q_))
  · exact htick.popped.trans (hpopped.trans (congrArg (· ++ [m]) h.popped))
  · exact htick.pushed.trans (hpushed.trans h.pushed)
  · have hsaved : (pop m t).saved = s.saved := h.saved
    rw [htick.failed_q, htick.saved, ← hsaved]
    exact hmove

/-- A round whose first send fails. -/
theorem round_of_failed {env : FlowEnv} (data_store : String) {s : Uploader} {m : Msg}
    {rest : List Msg} (hq : s.q_ = m :: rest)
    (hret : (sendMessage env s.spool.posts m.text).1 = false) :
    AfterRound s m [(m, false)] (s.failed_q ++ [m]) (round env data_store s) := by
  have hsend : (send env m s).1 = false := hret
  have hround : round env data_store s =
      tickMetric (writeToFile env data_store (pop m (noteFailed m (send env m s).2))) := by
    simp only [round, hq, hsend, Bool.false_eq_true, if_false]
  rw [hround]
  apply finishRound_books (t := noteFailed m (send env m s).2)
  refine ⟨rfl, rfl, rfl, rfl, ?_, rfl⟩
  show s.calls ++ [(m, (send env m s).1)] = _
  rw [hsend]

/-- A round whose first send succeeds; `resendCache` works on the spool. -/
theorem round_of_sent {env : FlowEnv} (data_store : String) {s : Uploader} {m : Msg}
    {rest : List Msg} (hq : s.q_ = m :: rest)
    (hret : (sendMessage env s.spool.posts m.text).1 = true) :
    ∃ more waiting, AfterRound s m ((m, true) :: more) waiting (round env data_store s) ∧
      Resent s.failed_q more waiting := by
  have hsend : (send env m s).1 = true := hret
  have hround : round env data_store s =
      tickMetric (writeToFile env data_store (pop m (noteSent env data_store (send env m s).2))) := by
    simp only [round, hq, hsend, if_true]
  have hnote : SameBooks (resendFailed env s.failed_q true (send env m s).2).2
      (noteSent env data_store (send env m s).2) := by
    unfold noteSent
    dsimp only
    split <;> constructor <;> rfl
  obtain ⟨⟨more, hmore, hresent⟩, hq', hpopped, hpushed, hsaved⟩ :=
    resendFailed_books env s.failed_q true (send env m s).2 rfl
  rw [← hnote.failed_q] at hresent
  refine ⟨more, _, ?_, hresent⟩
  rw [hround]
  apply finishRound_books
  refine ⟨hnote.q_.trans hq', rfl, hnote.pushed.trans hpushed, hnote.popped.trans hpopped, ?_,
    hnote.saved.trans hsaved⟩
  have hcalls : (send env m s).2.calls = s.calls ++ [(m, true)] := by
    show s.calls ++ [(m, (send env m s).1)] = _
    rw [hsend]
  rw [hnote.calls, hmore, hcalls, List.append_assoc]
  rfl

/-! ## The books are in order -/

/-- What holds at every head of the inner loop, whatever was sent: messages are popped in the order
they were pushed, and every record is about popped messages. -/
structure InOrder (s : Uploader) : Prop where
  order : (s.popped ++ s.q_).map Msg.seq = List.range s.pushed
  failed : ∀ m ∈ s.failed_q, m ∈ s.popped
  saved : ∀ m ∈ s.saved, m ∈ s.popped
  calls : ∀ c ∈ s.calls, c.1 ∈ s.popped

/-- Before the first step nothing has been popped or recorded. -/
theorem inOrder_init (spool : Spool) : InOrder (init spool) := by
  constructor <;> simp [init]

/-- The front of the queue has not been popped before. -/
theorem InOrder.front_notMem {s : Uploader} (h : InOrder s) {m : Msg} {rest : List Msg}
    (hq : s.q_ = m :: rest) : m ∉ s.popped := by
  have hnd : (s.popped ++ m :: rest).Nodup := by
    have horder := h.order
    rw [hq] at horder
    exact List.Nodup.of_map Msg.seq (horder ▸ List.nodup_range)
  intro hm
  exact (List.disjoint_of_nodup_append hnd) hm List.mem_cons_self

/-- A round that calls and keeps known messages only keeps the books in order.

What a round calls or keeps is the front of `q_` and what waited in `failed_q`, which has been popped
before. -/
theorem InOrder.of_round {s s' : Uploader} (h : InOrder s) {m : Msg} {rest : List Msg}
    (hq : s.q_ = m :: rest) {calls : List (Msg × Bool)} {waiting : List Msg}
    (hround : AfterRound s m calls waiting s') (hcalls : ∀ c ∈ calls, c.1 = m ∨ c.1 ∈ s.failed_q)
    (hwaiting : ∀ x ∈ waiting, x = m ∨ x ∈ s.failed_q) : InOrder s' := by
  have hmem : ∀ {x : Msg}, x = m ∨ x ∈ s.popped → x ∈ s'.popped := by
    intro x hx
    rw [hround.popped, List.mem_append, List.mem_singleton]
    exact hx.symm
  have hknown : ∀ x ∈ waiting, x ∈ s'.popped :=
    fun x hx => hmem ((hwaiting x hx).imp_right (h.failed x))
  refine ⟨?_, ?_, ?_, ?_⟩
  · have horder := h.order
    rw [hq] at horder
    rw [hround.popped, hround.q_, hround.pushed, hq, ← horder]
    simp
  · intro x hx
    rcases hround.move with ⟨hf, -⟩ | ⟨hf, -⟩
    · exact hknown x (hf ▸ hx)
    · exact absurd (hf ▸ hx) (by simp)
  · intro x hx
    rcases hround.move with ⟨-, hs⟩ | ⟨-, hs⟩
    · exact hmem (Or.inr (h.saved x (hs ▸ hx)))
    · rw [hs] at hx
      rcases List.mem_append.mp hx with hx | hx
      · exact hmem (Or.inr (h.saved x hx))
      · exact hknown x hx
  · intro c hc
    rw [hround.calls] at hc
    rcases List.mem_append.mp hc with hc | hc
    · exact hmem (Or.inr (h.calls c hc))
    · exact hmem ((hcalls c hc).imp_right (h.failed c.1))

/-- A message keeps its place when the flush moves `failed_q` into `saved`. -/
theorem AfterRound.inOnePlace {s s' : Uploader} {m : Msg} {calls : List (Msg × Bool)}
    {waiting : List Msg} (hround : AfterRound s m calls waiting s') {x : Msg}
    (h : ({ s with calls := s.calls ++ calls, failed_q := waiting } : Uploader).InOnePlace x) :
    s'.InOnePlace x := by
  rcases hround.move with ⟨hf, hs⟩ | ⟨hf, hs⟩
  · simpa only [InOnePlace, deliveries, hround.calls, hf, hs] using h
  · simp only [InOnePlace, deliveries, hround.calls, hf, hs, List.mem_append, List.count_append,
      List.not_mem_nil, not_false_eq_true, true_and, List.count_nil, not_or] at h ⊢
    rcases h with ⟨hd, hnf, hns⟩ | ⟨hd, hone, hns⟩ | ⟨hd, hnf, hone⟩
    · exact Or.inl ⟨hd, hns, hnf⟩
    · exact Or.inr (Or.inr ⟨hd, by rw [List.count_eq_zero_of_not_mem hns, hone]⟩)
    · exact Or.inr (Or.inr ⟨hd, by rw [List.count_eq_zero_of_not_mem hnf, hone]⟩)

/-- A round keeps the books in order, whatever it sends. -/
theorem round_inOrder {env : FlowEnv} {data_store : String} {s : Uploader} (h : InOrder s) :
    InOrder (round env data_store s) := by
  cases hq : s.q_ with
  | nil => simpa only [round, hq] using h
  | cons m rest =>
    cases hret : (sendMessage env s.spool.posts m.text).1 with
    | false =>
      refine h.of_round hq (round_of_failed data_store hq hret) ?_ ?_
      · intro c hc
        rw [List.mem_singleton.mp hc]
        exact Or.inl rfl
      · intro x hx
        rcases List.mem_append.mp hx with hx | hx
        · exact Or.inr hx
        · exact Or.inl (List.mem_singleton.mp hx)
    | true =>
      obtain ⟨more, waiting, hround, hresent⟩ := round_of_sent data_store hq hret
      refine h.of_round hq hround ?_ ?_
      · intro c hc
        rcases List.mem_cons.mp hc with rfl | hc
        · exact Or.inl rfl
        · exact Or.inr (hresent.calls c hc)
      · exact fun x hx => Or.inr (hresent.suffix.subset hx)

/-- An enqueue touches neither the records nor `failed_q`. -/
theorem sendToFlowServer_books (env : FlowEnv) (data_store pack : String) (s : Uploader) :
    let s' := SendToFlowServer env data_store pack s
    s'.failed_q = s.failed_q ∧ s'.popped = s.popped ∧ s'.calls = s.calls ∧ s'.saved = s.saved := by
  unfold SendToFlowServer
  split <;> exact ⟨rfl, rfl, rfl, rfl⟩

/-- Every step keeps the books in order, an enqueue as well as a round. -/
theorem step_inOrder {env : FlowEnv} {data_store : String} {s : Uploader} (h : InOrder s)
    (e : Event) : InOrder (step env data_store s e) := by
  cases e with
  | round => exact round_inOrder h
  | enqueue pack =>
    obtain ⟨hf, hp, hc, hs⟩ := sendToFlowServer_books env data_store pack s
    refine ⟨?_, ?_, ?_, ?_⟩
    · simp only [step, SendToFlowServer]
      split
      · exact h.order
      · rw [← List.append_assoc, List.map_append, h.order, List.range_succ]
        simp
    all_goals simp only [step, hf, hp, hc, hs]
    · exact h.failed
    · exact h.saved
    · exact h.calls

/-! ## When a step keeps the law -/

/-- A message the records do not know yet. -/
theorem InOrder.unknown {s : Uploader} (h : InOrder s) {m : Msg} (hm : m ∉ s.popped) :
    s.deliveries m = 0 ∧ m ∉ s.failed_q ∧ m ∉ s.saved := by
  refine ⟨List.count_eq_zero_of_not_mem fun hc => hm (h.calls _ hc), fun hf => hm (h.failed m hf),
    fun hs => hm (h.saved m hs)⟩

/-- A failed first send puts the message into `failed_q` and moves nothing else. -/
theorem handOver_of_failed {env : FlowEnv} {data_store : String} {s : Uploader} (h : InOrder s)
    (hlaw : HandOver s) {m : Msg} {rest : List Msg} (hq : s.q_ = m :: rest)
    (hret : (sendMessage env s.spool.posts m.text).1 = false) :
    HandOver (round env data_store s) ∧ ResendSound s (round env data_store s) := by
  have hnew := h.front_notMem hq
  obtain ⟨hd, hf, hs⟩ := h.unknown hnew
  have hround := round_of_failed data_store hq hret
  constructor
  · intro x hx
    apply hround.inOnePlace
    rw [hround.popped] at hx
    rcases List.mem_append.mp hx with hold | hlast
    · have hxm : x ≠ m := by
        rintro rfl
        exact hnew hold
      simpa [InOnePlace, deliveries, List.count_append, hxm, hxm.symm] using hlaw x hold
    · rw [List.mem_singleton.mp hlast]
      refine Or.inr (Or.inl ⟨?_, ?_, hs⟩)
      · simpa [deliveries, List.count_append] using hd
      · simp [List.count_append, List.count_eq_zero_of_not_mem hf]
  · -- the only call of the round is the first send, and `m` is not in `failed_q`
    intro x hx ret hcall
    rw [hround.calls, List.drop_left, List.mem_singleton] at hcall
    obtain ⟨rfl, -⟩ := Prod.mk.inj hcall
    exact absurd hx hf

/-- A successful first send with nothing waiting delivers the message and moves nothing else. -/
theorem handOver_of_sent {env : FlowEnv} {data_store : String} {s : Uploader} (h : InOrder s)
    (hlaw : HandOver s) {m : Msg} {rest : List Msg} (hq : s.q_ = m :: rest)
    (hret : (sendMessage env s.spool.posts m.text).1 = true) (hempty : s.failed_q = []) :
    HandOver (round env data_store s) ∧ ResendSound s (round env data_store s) := by
  have hnew := h.front_notMem hq
  obtain ⟨hd, -, hs⟩ := h.unknown hnew
  obtain ⟨more, waiting, hround, hresent⟩ := round_of_sent data_store hq hret
  rw [hempty] at hresent
  obtain rfl : more = [] := List.eq_nil_iff_forall_not_mem.mpr fun c hc =>
    absurd (hresent.calls c hc) (by simp)
  obtain rfl : waiting = [] := List.suffix_nil.mp hresent.suffix
  constructor
  · intro x hx
    apply hround.inOnePlace
    rw [hround.popped] at hx
    rcases List.mem_append.mp hx with hold | hlast
    · have hxm : x ≠ m := by
        rintro rfl
        exact hnew hold
      simpa [InOnePlace, deliveries, List.count_append, hempty, hxm, hxm.symm] using hlaw x hold
    · rw [List.mem_singleton.mp hlast]
      refine Or.inl ⟨?_, by simp, hs⟩
      simp only [deliveries] at hd
      simp [deliveries, List.count_append, hd]
  · intro x hx
    rw [hempty] at hx
    exact absurd hx (by simp)

/-- **A re-send always breaks the law**: whatever the server answers, the front of `failed_q` ends up
in two places or in none.

If the first re-send succeeds its message is delivered and still waits, in two places; if it fails
the message has been popped from both queues and is in none. What the later re-sends do does not
matter. -/
theorem not_handOver_of_resend {env : FlowEnv} {data_store : String} {s : Uploader} (h : InOrder s)
    (hlaw : HandOver s) {m : Msg} {rest : List Msg} (hq : s.q_ = m :: rest)
    (hret : (sendMessage env s.spool.posts m.text).1 = true) (hne : s.failed_q ≠ []) :
    ¬ HandOver (round env data_store s) := by
  obtain ⟨f, tail, hfq⟩ := List.exists_cons_of_ne_nil hne
  have hwaits : f ∈ s.failed_q := by
    rw [hfq]
    exact List.mem_cons_self
  have hfpop : f ∈ s.popped := h.failed f hwaits
  have hfm : f ≠ m := by
    rintro rfl
    exact h.front_notMem hq hfpop
  -- so far `f` waits in `failed_q`, once, and is nowhere else
  obtain ⟨hd, hone, hns⟩ : s.deliveries f = 0 ∧ s.failed_q.count f = 1 ∧ f ∉ s.saved := by
    rcases hlaw f hfpop with ⟨-, hnf, -⟩ | hwait | ⟨-, hnf, -⟩
    · exact absurd hwaits hnf
    · exact hwait
    · exact absurd hwaits hnf
  have hftail : f ∉ tail := by
    rw [hfq, List.count_cons_self] at hone
    apply List.count_eq_zero.mp
    omega
  obtain ⟨more, waiting, hround, hresent⟩ := round_of_sent data_store hq hret
  obtain ⟨r, later, rfl, hlater, hfront⟩ := hresent.front f tail hfq
  have hdeliv : (round env data_store s).deliveries f = if r then 1 else 0 := by
    have hcm : (f, true) ∉ later := fun hc => hftail (hlater _ hc)
    simp only [deliveries] at hd
    rw [deliveries, hround.calls, List.count_append, hd, List.count_cons, List.count_cons,
      List.count_eq_zero_of_not_mem hcm]
    cases r <;> simp [hfm.symm]
  intro hlaw'
  have hplace : (round env data_store s).InOnePlace f := by
    apply hlaw'
    rw [hround.popped]
    exact List.mem_append_left _ hfpop
  simp only [InOnePlace, hdeliv] at hplace
  cases r with
  | true =>
    -- delivered, and still in `failed_q` or flushed to disk
    rw [if_pos rfl] at hfront
    rcases hround.move with ⟨hf, hs⟩ | ⟨hf, hs⟩ <;> rw [hf, hs, hfront] at hplace <;>
      simp [hfq] at hplace
  | false =>
    -- not delivered, and popped from `failed_q`
    have hgone : f ∉ waiting := fun hf => hftail (List.IsSuffix.subset hfront hf)
    rcases hround.move with ⟨hf, hs⟩ | ⟨hf, hs⟩ <;> rw [hf, hs] at hplace <;>
      simp [List.count_eq_zero_of_not_mem, hgone, hns] at hplace

/-- One step keeps the law exactly when it re-sends nothing.

It is asked only in states where the law holds and the books are in order. From right to left the two
kinds of rounds keep the law; from left to right a re-send breaks it. -/
theorem step_handOver_iff {env : FlowEnv} {data_store : String} {s : Uploader} (h : InOrder s)
    (hlaw : HandOver s) (e : Event) :
    HandOver (step env data_store s e) ∧ ResendSound s (step env data_store s e) ↔
      NoResend env s e := by
  cases e with
  -- an enqueue moves nothing that has been popped
  | enqueue pack =>
    obtain ⟨hf, hp, hc, hs⟩ := sendToFlowServer_books env data_store pack s
    refine iff_of_true ⟨?_, ?_⟩ trivial
    · intro x hx
      have hx' : x ∈ s.popped := by rwa [← hp]
      simpa only [step, InOnePlace, deliveries, hf, hc, hs] using hlaw x hx'
    · intro x _ ret hcall
      simp [step, hc] at hcall
  | round =>
    simp only [step, NoResend]
    cases hq : s.q_ with
    | nil =>
      have hround : round env data_store s = s := by simp only [round, hq]
      rw [hround]
      refine iff_of_true ⟨hlaw, ?_⟩ ?_
      · intro x _ ret hcall
        simp at hcall
      · rintro ⟨m, rest, hq', -⟩
        rw [hq] at hq'
        cases hq'
    | cons m rest =>
      cases hret : (sendMessage env s.spool.posts m.text).1 with
      -- a failed first send does not come to the loop
      | false =>
        refine iff_of_true (handOver_of_failed h hlaw hq hret) ?_
        rintro ⟨m', rest', hq', hret'⟩
        obtain ⟨rfl, -⟩ := List.cons.inj (hq.symm.trans hq')
        rw [hret] at hret'
        cases hret'
      -- a successful one re-sends exactly if something waits
      | true =>
        constructor
        · rintro ⟨hlaw', -⟩ -
          by_contra hne
          exact not_handOver_of_resend h hlaw hq hret hne hlaw'
        · intro hno
          exact handOver_of_sent h hlaw hq hret (hno ⟨m, rest, hq, hret⟩)

/-! ## The law over runs -/

/-- **Exactly when nothing is lost or doubled.** Over every run of the uploader, for every sequence
of enqueued messages and of answers of the server: every popped message is in exactly one place at
every head of the inner loop, and every re-send keeps what failed and drops what was delivered, if
and only if no first send succeeds while a message waits in `failed_q`.

Both sides are broken down to single steps by induction on the run: the law holds at the start, and
`step_handOver_iff` is what one step does. The condition is asked of the state before a round and of
its first post. -/
theorem handOver_iff (env : FlowEnv) (data_store : String) (spool : Spool) (evs : List Event) :
    Lib.EachStep (step env data_store)
        (fun s e => HandOver (step env data_store s e) ∧ ResendSound s (step env data_store s e))
        (init spool) evs ↔
      Lib.EachStep (step env data_store) (NoResend env) (init spool) evs := by
  have hinit : HandOver (init spool) := by
    intro m hm
    simp [init] at hm
  have hkeep : ∀ s e, InOrder s ∧ HandOver s →
      HandOver (step env data_store s e) ∧ ResendSound s (step env data_store s e) →
      InOrder (step env data_store s e) ∧ HandOver (step env data_store s e) :=
    fun s e hs he => ⟨step_inOrder hs.1 e, he.1⟩
  exact Lib.eachStep_iff_of_invariant hkeep (fun s e hs => step_handOver_iff hs.1 hs.2 e)
    ⟨inOrder_init spool, hinit⟩

/-- A server that refuses the first post only; nothing is on disk. -/
def refuseFirst : FlowEnv where
  httpPost n := n != 0
  getCurrentTime n := n
  searchFile _ _ := []
  opens _ _ := true
  removes _ _ := true

/-- `"a"` is refused once, then `"b"` goes through and `"a"` is re-sent. -/
def resendEvents : List Event := [.enqueue "a", .enqueue "b", .round, .round]

/-- **A delivered message stays queued**: after the re-send of `"a"` the server has it and
`failed_q` still holds it, so it will be sent or stored again. -/
theorem resent_message_in_two_places :
    let s := run refuseFirst "/data/" resendEvents (init ⟨emptyDir, {}, 0⟩)
    s.deliveries ⟨0, "a"⟩ = 1 ∧ (⟨0, "a"⟩ : Msg) ∈ s.failed_q ∧ ¬ HandOver s ∧
      ¬ Lib.EachStep (step refuseFirst "/data/")
          (fun s e => HandOver (step refuseFirst "/data/" s e) ∧
            ResendSound s (step refuseFirst "/data/" s e))
          (init ⟨emptyDir, {}, 0⟩) resendEvents := by
  have hcalls : (run refuseFirst "/data/" resendEvents (init ⟨emptyDir, {}, 0⟩)).calls =
      [(⟨0, "a"⟩, false), (⟨1, "b"⟩, true), (⟨0, "a"⟩, true)] := by decide
  have hfailed : (run refuseFirst "/data/" resendEvents (init ⟨emptyDir, {}, 0⟩)).failed_q =
      [⟨0, "a"⟩] := by decide
  have hpopped : (run refuseFirst "/data/" resendEvents (init ⟨emptyDir, {}, 0⟩)).popped =
      [⟨0, "a"⟩, ⟨1, "b"⟩] := by decide
  have hlaw : ¬ HandOver (run refuseFirst "/data/" resendEvents (init ⟨emptyDir, {}, 0⟩)) := by
    intro h
    have hplace := h ⟨0, "a"⟩ (by rw [hpopped]; exact List.mem_cons_self)
    simp [InOnePlace, deliveries, hcalls, hfailed] at hplace
  refine ⟨by simp [deliveries, hcalls], by simp [hfailed], hlaw, ?_⟩
  rintro ⟨-, -, -, ⟨h, -⟩, -⟩
  exact hlaw h

end Uploader

end EdgeFrame.Flow
