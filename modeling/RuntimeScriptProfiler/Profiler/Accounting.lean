import RuntimeScriptProfiler.Framework.Intervals
import RuntimeScriptProfiler.Profiler.WholeLog

/-!
# The time of a block and the time of its scripts

A separator prints the time of one call of the main-loop hook, and stands behind the
entries of the scripts that ran since the separator before it. The two are measured
independently. Here the scripts' times come from the counter as well
(`TimedExecution`), the arithmetic is exact, and a run is *well timed* when its
readings are in order, the executions of the main thread are pairwise nested or
apart, and none of them straddles an end of a frame (`WellTimed`).

Every execution of a block then lies inside the frame that its separator is about, or
had ended when that frame started, and the outermost of the first kind take no longer
than the separator says (`block_time_le`). Those of the second kind are in the block
because the script hook does not ask whether a frame is open, and the separator's time
does not cover them (`block_exceeds_frame`).
-/

namespace RuntimeScriptProfiler

open Blocks Intervals

/-! ### Timed executions -/

/-- A script execution with the counter readings it lies between. -/
structure TimedExecution where
  threadID : UInt32
  script : Script
  span : Span LargeInteger
  deriving DecidableEq

namespace TimedExecution

/-- What is reported of it: the elapsed time is the length of its interval. -/
def report (game : Game) (x : TimedExecution) : Execution ℚ :=
  ⟨x.threadID, x.script, x.span.length / game.frequency⟩

/-- Its time in the log. -/
def printedMs (game : Game) (x : TimedExecution) : ℚ :=
  HookArith.scriptMs (x.report game).elapsed

/-- It lies between two counter readings. -/
def Within (start stop : LargeInteger) (x : TimedExecution) : Prop :=
  start ≤ x.span.lo ∧ x.span.hi ≤ stop

instance (start stop : LargeInteger) : DecidablePred (Within start stop) := fun _ =>
  inferInstanceAs (Decidable (_ ∧ _))

/-- It encloses another one. -/
def Encloses (x y : TimedExecution) : Prop := x.span.Encloses y.span

instance : DecidableRel Encloses := fun _ _ => inferInstanceAs (Decidable (_ ∧ _))

end TimedExecution

open TimedExecution

/-- The readings of the counter over an item: its reports on the main thread, and its
frame's start and end. -/
def Item.ticks (game : Game) : Item TimedExecution → List LargeInteger
  | script x => if x.threadID = game.mainThreadID then [x.span.hi] else []
  | frame f =>
    f.start.counter ::
      ((f.scripts.filter fun x => x.threadID = game.mainThreadID).map (·.span.hi)
        ++ [f.stop])

/-- The executions of the main thread. -/
def Run.mainThread (game : Game) (r : Run TimedExecution) : List TimedExecution :=
  (r.chronicle.filterMap Event.execution?).filter fun x => x.threadID = game.mainThreadID

/-- A well timed run. -/
structure WellTimed (game : Game) (r : Run TimedExecution) : Prop where
  monotone : (r.items.flatMap (Item.ticks game)).Pairwise (· ≤ ·)
  nested : (r.mainThread game).Pairwise fun x y => x.span.NestedOrApart y.span
  framed : ∀ x ∈ r.mainThread game,
    (∃ f ∈ r.frames, x.Within f.start.counter f.stop) ∨
      ∀ f ∈ r.frames, x.span.hi ≤ f.start.counter ∨ f.stop ≤ x.span.lo

/-- The log of a run with timed executions, as events. -/
def Run.timedLog (game : Game) (o : Options) (r : Run TimedExecution) :
    List (Event TimedExecution) :=
  compact Event.isFrameEnd
    (r.chronicle.filter fun e => o.writes game r.starts (e.map (report game)))

/-! ### Where the events of a run come from -/

/-- Behind the events of its items a run shows executions only. -/
theorem exists_chronicle_eq {X : Type} (r : Run X) :
    ∃ tl, (∀ e ∈ tl, Event.isFrameEnd e = false) ∧
      r.chronicle = chronicleFrom 0 r.items ++ tl := by
  refine ⟨_, ?_, rfl⟩
  intro e he
  cases hcurrent : r.current with
  | none => simp [hcurrent] at he
  | some open? =>
    rw [hcurrent] at he
    obtain ⟨x, -, rfl⟩ := List.mem_map.mp he
    rfl

/-- A frame end among the events of a run is that of one of its frames, before which
stand the events of the items before the frame and the frame's own executions. -/
theorem exists_frame_of_chronicleFrom {X : Type} {k : ℕ} {is : List (Item X)}
    {tl pre post : List (Event X)} {start stop : LargeInteger}
    (htl : ∀ e ∈ tl, Event.isFrameEnd e = false)
    (h : chronicleFrom k is ++ tl = pre ++ .frameEnd start stop :: post) :
    ∃ A f B k', is = A ++ .frame f :: B ∧ f.start.counter = start ∧ f.stop = stop ∧
      pre = chronicleFrom k A ++ f.scripts.map (.script k') := by
  induction is generalizing k pre with
  | nil =>
    -- behind the items there is no frame end
    have hmem : Event.frameEnd start stop ∈ tl := by
      rw [show tl = pre ++ .frameEnd start stop :: post from h]
      simp
    exact absurd (htl _ hmem) (by simp)
  | cons i is ih =>
    cases i with
    | script x =>
      cases pre with
      | nil => exact absurd (List.cons.inj h).1 (by simp)
      | cons e pre =>
        obtain ⟨rfl, htail⟩ := List.cons.inj h
        obtain ⟨A, f, B, k', rfl, hstart, hstop, rfl⟩ := ih htail
        exact ⟨.script x :: A, f, B, k', rfl, hstart, hstop, rfl⟩
    | frame f =>
      have hscripts : ∀ e ∈ f.scripts.map (Event.script (k + 1)),
          Event.isFrameEnd e = false := by
        intro e he
        obtain ⟨x, -, rfl⟩ := List.mem_map.mp he
        rfl
      rw [chronicleFrom, Frame.events, List.append_assoc, List.append_assoc,
        List.singleton_append] at h
      -- either it is this frame's end, or it is further on
      rcases append_mark_eq_append_mark hscripts (Event.isFrameEnd_frameEnd start stop) h with
        ⟨rfl, hend, -⟩ | ⟨pre', rfl, htail⟩
      · obtain ⟨hstart, hstop⟩ := Event.frameEnd.inj hend
        exact ⟨[], f, is, k + 1, rfl, hstart, hstop, rfl⟩
      · obtain ⟨A, g, B, k', rfl, hstart, hstop, rfl⟩ := ih htail
        refine ⟨.frame f :: A, g, B, k', rfl, hstart, hstop, ?_⟩
        rw [chronicleFrom, Frame.events, List.append_assoc, List.append_assoc]
        rfl

/-- The report of an execution on the main thread reads the counter. -/
theorem hi_mem_ticks {game : Game} {k k' : ℕ} {is : List (Item TimedExecution)}
    {x : TimedExecution} (hx : Event.script k' x ∈ chronicleFrom k is)
    (hmain : x.threadID = game.mainThreadID) :
    x.span.hi ∈ is.flatMap (Item.ticks game) := by
  induction is generalizing k with
  | nil => exact absurd hx List.not_mem_nil
  | cons i is ih =>
    rw [List.flatMap_cons, List.mem_append]
    cases i with
    | script y =>
      rcases List.mem_cons.mp hx with heq | hx
      · obtain ⟨-, rfl⟩ := Event.script.inj heq
        left
        simp [Item.ticks, hmain]
      · exact Or.inr (ih hx)
    | frame f =>
      rcases List.mem_append.mp hx with hx | hx
      · left
        simp only [Frame.events, List.mem_append, List.mem_map, List.mem_singleton,
          reduceCtorEq, or_false] at hx
        obtain ⟨y, hy, heq⟩ := hx
        obtain ⟨-, rfl⟩ := Event.script.inj heq
        refine List.mem_cons_of_mem _ (List.mem_append_left _ (List.mem_map_of_mem ?_))
        exact List.mem_filter.mpr ⟨hy, decide_eq_true hmain⟩
      · exact Or.inr (ih hx)

/-! ### Well timed runs -/

section WellTimed

variable {game : Game} {r : Run TimedExecution} {A B : List (Item TimedExecution)}
  {f : Frame TimedExecution}

/-- The readings around a frame. -/
theorem WellTimed.frame_ticks (h : WellTimed game r) (hr : r.items = A ++ .frame f :: B) :
    (∀ t ∈ A.flatMap (Item.ticks game), t ≤ f.start.counter) ∧ f.start.counter ≤ f.stop ∧
      (∀ x ∈ f.scripts, x.threadID = game.mainThreadID → x.span.hi ≤ f.stop) ∧
      ∀ t ∈ B.flatMap (Item.ticks game), f.stop ≤ t := by
  -- the readings before the frame, its own, and those after it
  have hm := h.monotone
  rw [hr, List.flatMap_append, List.flatMap_cons, List.pairwise_append,
    List.pairwise_append] at hm
  obtain ⟨-, ⟨hframe, -, hafter⟩, hbefore⟩ := hm
  obtain ⟨hstart, hscripts⟩ := List.pairwise_cons.mp hframe
  obtain ⟨-, -, hstop⟩ := List.pairwise_append.mp hscripts
  refine ⟨?_, ?_, ?_, ?_⟩
  · intro t ht
    exact hbefore t ht _ (List.mem_append_left _ List.mem_cons_self)
  · exact hstart _ (List.mem_append_right _ (List.mem_singleton_self _))
  · intro x hx hmain
    refine hstop _ (List.mem_map_of_mem ?_) _ (List.mem_singleton_self _)
    exact List.mem_filter.mpr ⟨hx, decide_eq_true hmain⟩
  · intro t ht
    refine hafter _ ?_ t ht
    exact List.mem_cons_of_mem _ (List.mem_append_right _ (List.mem_singleton_self _))

/-- The frames before a frame end by its start, and those after it start no earlier
than its end. -/
theorem WellTimed.frames_split (h : WellTimed game r) (hr : r.items = A ++ .frame f :: B)
    {g : Frame TimedExecution} (hg : g ∈ r.frames) :
    g.stop ≤ f.start.counter ∨ g = f ∨ f.stop ≤ g.start.counter := by
  obtain ⟨hbefore, -, -, hafter⟩ := h.frame_ticks hr
  obtain ⟨i, hi, hig⟩ := List.mem_filterMap.mp hg
  cases i with
  | script x => exact absurd hig (by simp [Item.frame?])
  | frame g' =>
    obtain rfl : g' = g := by simpa [Item.frame?] using hig
    rw [hr, List.mem_append, List.mem_cons] at hi
    rcases hi with hi | heq | hi
    · left
      refine hbefore _ (List.mem_flatMap.mpr ⟨_, hi, ?_⟩)
      exact List.mem_cons_of_mem _ (List.mem_append_right _ (List.mem_singleton_self _))
    · exact Or.inr (Or.inl (Item.frame.inj heq))
    · exact Or.inr (Or.inr (hafter _ (List.mem_flatMap.mpr ⟨_, hi, List.mem_cons_self⟩)))

/-- An execution reported during a frame lies inside it, or had ended at its start. -/
theorem WellTimed.within_of_mem_scripts (h : WellTimed game r)
    (hr : r.items = A ++ .frame f :: B) {x : TimedExecution} (hx : x ∈ f.scripts)
    (hmain : x ∈ r.mainThread game) :
    x.Within f.start.counter f.stop ∨ x.span.hi ≤ f.start.counter := by
  obtain ⟨-, hle, hstop, -⟩ := h.frame_ticks hr
  have hthread : x.threadID = game.mainThreadID :=
    of_decide_eq_true (List.mem_filter.mp hmain).2
  have hhi : x.span.hi ≤ f.stop := hstop x hx hthread
  -- it was reported by the end of `f`, so no later frame can have it inside
  rcases h.framed x hmain with ⟨g, hg, hlo, hg'⟩ | hout
  · rcases h.frames_split hr hg with hbefore | rfl | hafter
    · exact Or.inr (hg'.trans hbefore)
    · exact Or.inl ⟨hlo, hg'⟩
    · exact Or.inl ⟨hle.trans (hafter.trans hlo), hhi⟩
  · have hf : f ∈ r.frames := by
      refine List.mem_filterMap.mpr ⟨.frame f, ?_, rfl⟩
      rw [hr]
      simp
    rcases hout f hf with hbefore | hafter
    · exact Or.inr hbefore
    · exact Or.inl ⟨hle.trans hafter, hhi⟩

end WellTimed

/-! ### Blocks of the log -/

/-- An event that is written is a frame end or ran on the main thread. -/
theorem threadID_of_writes {game : Game} {o : Options} {starts : List FrameStart} {k : ℕ}
    {x : TimedExecution}
    (h : o.writes game starts ((Event.script k x).map (report game)) = true) :
    x.threadID = game.mainThreadID := by
  have hloggable : (x.report game).loggable game = true := by
    rw [Event.map, writes_script, Bool.and_eq_true, Bool.and_eq_true] at h
    exact h.1.2
  have hboth := of_decide_eq_true hloggable
  exact hboth.2

/-- What the log shows before a separator was written before the frame's end. -/
theorem exists_chronicle_of_timedLog {game : Game} {o : Options} {r : Run TimedExecution}
    {pre post : List (Event TimedExecution)} {start stop : LargeInteger}
    (hlog : r.timedLog game o = pre ++ .frameEnd start stop :: post) :
    ∃ before after, r.chronicle = before ++ .frameEnd start stop :: after ∧
      pre.Sublist (before.filter fun e => o.writes game r.starts (e.map (report game))) := by
  obtain ⟨pre₁, post₁, hwritten, hpre₁⟩ := exists_of_compactFrom_eq_append hlog
  obtain ⟨pre₂, rest, hchronicle, hpre₂, hrest⟩ := List.filter_eq_append_iff.mp hwritten
  obtain ⟨between, after, rfl, hbetween, -, -⟩ := List.filter_eq_cons_iff.mp hrest
  refine ⟨pre₂ ++ between, after, ?_, ?_⟩
  · rw [hchronicle, List.append_assoc]
  · rw [← hpre₁, List.filter_append, hpre₂]
    exact (compactFrom_sublist _ _).trans (List.sublist_append_left _ _)

/-- The block before a separator of the log of a well timed run. -/
theorem WellTimed.block (game : Game) (o : Options) {r : Run TimedExecution}
    (h : WellTimed game r) {pre post : List (Event TimedExecution)}
    {start stop : LargeInteger}
    (hlog : r.timedLog game o = pre ++ .frameEnd start stop :: post) :
    start ≤ stop ∧
      (pre.filterMap Event.execution?).Sublist (r.mainThread game) ∧
      ∀ x ∈ pre.filterMap Event.execution?, x.Within start stop ∨ x.span.hi ≤ start := by
  obtain ⟨before, after, hall, hsub⟩ := exists_chronicle_of_timedLog hlog
  have hmain : ∀ x ∈ pre.filterMap Event.execution?, x.threadID = game.mainThreadID := by
    intro x hx
    obtain ⟨e, he, hex⟩ := List.mem_filterMap.mp hx
    cases e with
    | frameEnd a b => exact absurd hex (by simp)
    | script k y =>
      obtain rfl : y = x := by simpa using hex
      exact threadID_of_writes (List.mem_filter.mp (hsub.mem he)).2
  have hsublist : pre.Sublist before := hsub.trans List.filter_sublist
  have hthread : (pre.filterMap Event.execution?).Sublist (r.mainThread game) := by
    have hfilter := List.filter_eq_self.mpr fun x hx => decide_eq_true (hmain x hx)
    rw [← hfilter, Run.mainThread, hall]
    exact ((hsublist.trans (List.sublist_append_left _ _)).filterMap _).filter _
  -- the separator is the end of a frame of the run
  obtain ⟨tl, htl, htail⟩ := exists_chronicle_eq r
  obtain ⟨A, f, B, k', hitems, rfl, rfl, heq⟩ :=
    exists_frame_of_chronicleFrom htl (htail.symm.trans hall)
  obtain ⟨hbefore, hle, -, -⟩ := h.frame_ticks hitems
  refine ⟨hle, hthread, ?_⟩
  intro x hx
  obtain ⟨e, he, hex⟩ := List.mem_filterMap.mp hx
  -- reported before the frame or in it
  have hmem := hsublist.mem he
  rw [heq, List.mem_append] at hmem
  cases e with
  | frameEnd a b => exact absurd hex (by simp)
  | script k y =>
    obtain rfl : y = x := by simpa using hex
    rcases hmem with hmem | hmem
    · exact Or.inr (hbefore _ (hi_mem_ticks hmem (hmain y hx)))
    · obtain ⟨z, hz, hzy⟩ := List.mem_map.mp hmem
      obtain ⟨-, rfl⟩ := Event.script.inj hzy
      exact h.within_of_mem_scripts hitems hz (hthread.mem hx)

/-- Lengths in ticks and times in the log. -/
theorem sum_printedMs (game : Game) (l : List TimedExecution) :
    (l.map (printedMs game)).sum
      = ((l.map TimedExecution.span).map Span.length).sum * 1000 / game.frequency := by
  induction l with
  | nil => simp
  | cons x l ih =>
    have hx : x.printedMs game = x.span.length * 1000 / game.frequency := by
      simp only [printedMs, report, HookArith.scriptMs]
      ring
    calc ((x :: l).map (printedMs game)).sum
        = x.printedMs game + (l.map (printedMs game)).sum := by
          rw [List.map_cons, List.sum_cons]
      _ = x.span.length * 1000 / game.frequency
            + ((l.map TimedExecution.span).map Span.length).sum * 1000 / game.frequency := by
          rw [hx, ih]
      _ = (((x :: l).map TimedExecution.span).map Span.length).sum * 1000
            / game.frequency := by
          simp only [List.map_cons, List.sum_cons]
          push_cast
          ring

/-- **The time of a block.** In a well timed run, every execution of the block before a
separator lies inside the separator's own frame or had ended when that frame started,
and the times logged for the outermost executions inside the frame add up to at most
the time on the separator. -/
theorem block_time_le (game : Game) (logName : String) (o : Options)
    (r : Run TimedExecution) (h : WellTimed game r) :
    ((r.map (report game)).exec game (loaded logName o)).lines
        = (loaded logName o : Profiler ℚ).lines
          ++ (r.timedLog game o).map (fun e => (e.map (report game)).message game) ∧
      ∀ pre start stop post, r.timedLog game o = pre ++ .frameEnd start stop :: post →
        let block := (lastBlock Event.isFrameEnd pre).filterMap Event.execution?
        (∀ x ∈ block, x.Within start stop ∨ x.span.hi ≤ start) ∧
          (((outermost Encloses block).filter fun x => x.Within start stop).map
              (printedMs game)).sum
            ≤ HookArith.frameMs ℚ (stop - start) game.frequency := by
  constructor
  · rw [lines_run, log_map, List.map_map]
    rfl
  · intro pre start stop post hlog block
    obtain ⟨hle, hthread, hwithin⟩ := h.block game o hlog
    have hblock : block.Sublist (pre.filterMap Event.execution?) :=
      (List.rtakeWhile_suffix _ _).sublist.filterMap _
    refine ⟨fun x hx => hwithin x (hblock.mem hx), ?_⟩
    -- the outermost executions of the block lie apart, and those inside the frame are packed
    have hnested := h.nested.sublist (hblock.trans hthread)
    have hapart : (outermost Encloses block).Pairwise fun x y => x.span.Apart y.span :=
      pairwise_outermost hnested
    have hpack := Span.sum_length_le hle
      (List.pairwise_map.mpr (hapart.filter fun x => x.Within start stop)) (by
        intro I hI
        obtain ⟨x, hx, rfl⟩ := List.mem_map.mp hI
        exact of_decide_eq_true (List.mem_filter.mp hx).2)
    have hfreq : (0 : ℚ) < game.frequency := by exact_mod_cast game.frequency_pos
    -- from ticks to milliseconds
    rw [sum_printedMs]
    change _ ≤ ((stop - start : ℤ) : ℚ) * 1000 / game.frequency
    gcongr

/-! ### A block that takes longer than its frame -/

/-- A script that runs from tick 0 to tick 10, before any frame. -/
def earlyExecution : TimedExecution := ⟨1, ⟨0x01000800⟩, ⟨0, 10, by decide⟩⟩

/-- The script, then a frame from tick 20 to tick 21 in which none runs. -/
def earlyRun : Run TimedExecution :=
  ⟨[.script earlyExecution, .frame ⟨⟨fun _ _ => 0, 20⟩, [], 21⟩], none⟩

theorem wellTimed_earlyRun : WellTimed sampleGame earlyRun where
  monotone := by decide
  nested := by decide
  framed := by decide

/-- **A block that takes longer than its frame.** The run is well timed. Its log is an
entry of 10 milliseconds and a separator of 1 millisecond, and the entry's execution is
the outermost one of the block. -/
theorem block_exceeds_frame :
    WellTimed sampleGame earlyRun ∧
      ((earlyRun.map (report sampleGame)).exec sampleGame (loaded "log" sampleOptions)).lines
        = (loaded "log" sampleOptions : Profiler ℚ).lines
          ++ [.entry 0x01000800 10, .separator 1] ∧
      earlyRun.timedLog sampleGame sampleOptions
        = [.script 0 earlyExecution, .frameEnd 20 21] ∧
      ((outermost Encloses [earlyExecution]).map (printedMs sampleGame)).sum = 10 := by
  have hlog : earlyRun.timedLog sampleGame sampleOptions
      = [.script 0 earlyExecution, .frameEnd 20 21] := by decide +kernel
  refine ⟨wellTimed_earlyRun, ?_, hlog, by decide +kernel⟩
  rw [lines_run, log_map, ← Run.timedLog, hlog]
  refine congrArg (_ ++ ·) ?_
  decide +kernel

/-! ### A block with executions inside its frame -/

/-- What runs in a frame from tick 20 to tick 36, in the order in which it ends: a script that is
called by another one, the other one, and a third after both. -/
def frameExecutions : List TimedExecution :=
  [⟨1, ⟨0x01000801⟩, ⟨22, 24, by decide⟩⟩, ⟨1, ⟨0x01000802⟩, ⟨20, 28, by decide⟩⟩,
    ⟨1, ⟨0x01000803⟩, ⟨30, 33, by decide⟩⟩]

/-- The early script, and the frame. -/
def nestedRun : Run TimedExecution :=
  ⟨[.script earlyExecution, .frame ⟨⟨fun _ _ => 0, 20⟩, frameExecutions, 36⟩], none⟩

theorem wellTimed_nestedRun : WellTimed sampleGame nestedRun where
  monotone := by decide
  nested := by decide
  framed := by decide

/-- Two of the four executions of the block are outermost ones inside the frame. They take 11 of
its 16 milliseconds. -/
theorem block_time_le_nestedRun :
    let block := earlyExecution :: frameExecutions
    let inside := (outermost Encloses block).filter fun x => x.Within 20 36
    nestedRun.timedLog sampleGame sampleOptions
        = .script 0 earlyExecution :: (frameExecutions.map (.script 1) ++ [.frameEnd 20 36]) ∧
      (∀ x ∈ block, x.Within 20 36 ∨ x.span.hi ≤ 20) ∧ inside = frameExecutions.tail ∧
      (inside.map (printedMs sampleGame)).sum = 11 ∧
      (inside.map (printedMs sampleGame)).sum ≤ 16 := by
  intro block inside
  have hlog : nestedRun.timedLog sampleGame sampleOptions
      = .script 0 earlyExecution :: (frameExecutions.map (.script 1) ++ [.frameEnd 20 36]) := by
    decide +kernel
  obtain ⟨hwithin, hsum⟩ := (block_time_le sampleGame "log" sampleOptions nestedRun
    wellTimed_nestedRun).2 (.script 0 earlyExecution :: frameExecutions.map (.script 1)) 20 36 []
      hlog
  refine ⟨hlog, hwithin, by decide +kernel, by decide +kernel, hsum.trans ?_⟩
  decide +kernel

end RuntimeScriptProfiler
