import RuntimeScriptProfiler.Profiler.WholeLog

/-!
# When a frame ends in a separator

`scriptWasExecutedThisFrame` is set by the script hook whether or not a frame is
open, and cleared by a frame's end only. What it says at a frame's end is therefore
that an entry was written since the end of the frame before: between the two frames
or during the later one. `frame_separator_iff` says so for every frame of every run,
and `separator_of_disabled_frame` is a run in which the difference shows.
-/

namespace RuntimeScriptProfiler

open Blocks

section Frames

variable {F D : Type} [HookArith F D] {game : Game} {o : Options}

omit [HookArith F D] in
/-- After the end of a frame, as after loading, the block is empty. -/
theorem latch_closed {w : Event (Execution F) → Bool} (hw : ∀ a b, w (.frameEnd a b) = true)
    {is : List (Item (Execution F))} (h : is = [] ∨ ∃ js f, is = js ++ [.frame f]) :
    latch Event.isFrameEnd false ((chronicleFrom 0 is).filter w) = false := by
  rcases h with rfl | ⟨js, f, rfl⟩
  · rfl
  · -- the last event is a frame end, which is written and clears the latch
    rw [chronicleFrom_append, chronicleFrom, chronicleFrom, List.append_nil, Frame.events,
      ← List.append_assoc, List.filter_append, latch_append,
      List.filter_cons_of_pos (hw _ _)]
    rfl

/-- The block a complete frame closes, from a state in which it is empty: the entries
reported before the frame's start, those reported during the frame, and a separator if
there are any. Nothing is written while profiling is off. -/
theorem Tracks.frame_lines {on : Bool} {file : FILE D} {s : Profiler D}
    (h : Tracks game o on false file s) (outs : List (Execution F))
    (f : Frame (Execution F)) :
    let on' := on ^^ getIsKeyTapped f.start o.toggleExecutionHotkey
    let between := (outs.filter fun x =>
      on && x.loggable game && o.passes x.script.refID).map Execution.message
    let within := (f.scripts.filter fun x =>
      on' && x.loggable game && o.passes x.script.refID).map Execution.message
    let s₁ := runScripts game outs s
    let s₂ := startFrameExecutionTimer game f.start s₁
    let s₃ := runScripts game f.scripts s₂
    s₁.lines = s.lines ++ between ∧ s₂.lines = s₁.lines ∧ s₂.options.isModEnabled = on' ∧
      s₃.lines = s₂.lines ++ within ∧
      (endFrameExecutionTimerAndLog F f.stop s₃).lines
        = s₃.lines ++ if (between ++ within).isEmpty then [] else
            [.separator (HookArith.frameMs F (f.stop - f.start.counter) game.frequency)] := by
  intro on' between within s₁ s₂ s₃
  -- the four steps, each from the state in which the one before it leaves the log
  obtain ⟨hbetween, file₁, h₁⟩ := h.scripts_lines outs
  obtain ⟨h₂, htiming⟩ := startFrame_spec h₁ f.start
  obtain ⟨hwithin, file₃, h₃⟩ := h₂.scripts_lines f.scripts
  have h₄ := Tracks.stop (F := F) h₃ (htiming.scripts f.scripts) f.stop
  refine ⟨hbetween, ?_, ?_, hwithin, ?_⟩
  · exact h₂.log.lines.trans h₁.log.lines.symm
  · rw [h₂.options]
  · have hend := h₄.log.lines
    have hs₃ := h₃.log.lines
    rw [FILE.lines_does, ← hs₃] at hend
    refine hend.trans (congrArg (s₃.lines ++ ·) ?_)
    -- the block is open if there is an entry in either part of it
    have hempty : (between ++ within).isEmpty = (between.isEmpty && within.isEmpty) := by
      cases between <;> rfl
    rw [hempty, List.isEmpty_map, List.isEmpty_map, Bool.false_or]
    cases (outs.filter _).isEmpty <;> cases (f.scripts.filter _).isEmpty <;> rfl

/-- **When a frame ends in a separator.** Let a frame be reached after the run
`before`, which is empty or ends in the frame before it, and the executions `outs`
between the two. The end of the frame writes a separator exactly when an entry was
written since the end of the frame before, `between` the two frames or `within` the
later one. A frame that runs with profiling off writes no entry. -/
theorem frame_separator_iff (game : Game) (logName : String) (o : Options)
    (before : List (Item (Execution F))) (outs : List (Execution F))
    (f : Frame (Execution F))
    (hbefore : before = [] ∨ ∃ is g, before = is ++ [.frame g]) :
    let s₀ := execItems game before (loaded logName o)
    let s₁ := runScripts game outs s₀
    let s₂ := startFrameExecutionTimer game f.start s₁
    let s₃ := runScripts game f.scripts s₂
    let s₄ := endFrameExecutionTimerAndLog F f.stop s₃
    ∃ between within : List (Message D),
      (∀ m ∈ between ++ within, m.isEntry = true) ∧
      s₁.lines = s₀.lines ++ between ∧ s₂.lines = s₁.lines ∧
      s₃.lines = s₂.lines ++ within ∧
      s₄.lines = s₃.lines ++ (if (between ++ within).isEmpty then [] else
        [.separator (HookArith.frameMs F (f.stop - f.start.counter) game.frequency)]) ∧
      (s₂.options.isModEnabled = false → within = []) := by
  intro s₀ s₁ s₂ s₃ s₄
  have h₀ := loaded_items game logName o before
  unfold Logs at h₀
  rw [latch_closed (fun _ _ => rfl) hbefore] at h₀
  obtain ⟨hbetween, hstart, hon, hwithin, hend⟩ := h₀.frame_lines outs f
  refine ⟨_, _, ?_, hbetween, hstart, hwithin, hend, ?_⟩
  · intro m hm
    rcases List.mem_append.mp hm with hm | hm <;>
    · obtain ⟨x, -, rfl⟩ := List.mem_map.mp hm
      rfl
  · -- with profiling off no execution passes the test
    intro hoff
    rw [hoff] at hon
    simp only [← hon, Bool.false_and, List.filter_false, List.map_nil]

end Frames

/-! ### A frame that runs with profiling off -/

/-- A script runs before the first frame, whose start switches profiling off. No entry
is written between the start of the frame and its end, which writes a separator. -/
theorem separator_of_disabled_frame :
    let s₁ := runScripts sampleGame [sampleExecution] (loaded "log" sampleOptions)
    let s₂ := startFrameExecutionTimer sampleGame tappedFrame.start s₁
    let s₃ := runScripts sampleGame tappedFrame.scripts s₂
    let s₄ := endFrameExecutionTimerAndLog Float32 tappedFrame.stop s₃
    s₂.options.isModEnabled = false ∧ s₃.lines = s₂.lines ∧
      s₄.lines = s₃.lines ++ [.separator (Float.ofInt 16 * 1000.0 / Float.ofInt 1000)] := by
  intro s₁ s₂ s₃ s₄
  have h₀ := loaded_tracks (F := Float32) sampleGame "log" sampleOptions
  obtain ⟨-, -, hon, -, hend⟩ := h₀.frame_lines [sampleExecution] tappedFrame
  refine ⟨hon, rfl, ?_⟩
  exact hend

/-! ### A frame after another one -/

/-- The filter for the second plugin in the load order. -/
def filteredOptions : Options := { sampleOptions with filterModID := 1 }

/-- A frame with a script of the second plugin in the load order. -/
def firstFrame : Frame (Execution ℚ) := ⟨⟨fun _ _ => 0, 0⟩, [⟨1, ⟨0x01000800⟩, 1 / 2⟩], 8⟩

/-- A script that runs on another thread than the main one. -/
def otherThread : Execution ℚ := ⟨2, ⟨0x01000800⟩, 1 / 2⟩

/-- A frame with a script of the third plugin and another one of the second. -/
def secondFrame : Frame (Execution ℚ) :=
  ⟨⟨fun _ _ => 0, 10⟩, [⟨1, ⟨0x02000800⟩, 1 / 2⟩, ⟨1, ⟨0x01000801⟩, 1 / 4⟩], 26⟩

/-- A frame that comes after another one, between which a script has run on another thread. One of
its two scripts passes the filter, and so it ends in a separator. -/
theorem frame_separator_iff_secondFrame :
    let s₀ := execItems sampleGame [.frame firstFrame] (loaded "log" filteredOptions)
    let s₁ := runScripts sampleGame [otherThread] s₀
    let s₂ := startFrameExecutionTimer sampleGame secondFrame.start s₁
    let s₃ := runScripts sampleGame secondFrame.scripts s₂
    let s₄ := endFrameExecutionTimerAndLog ℚ secondFrame.stop s₃
    s₁.lines = s₀.lines ∧ s₃.lines = s₂.lines ++ [.entry 0x01000801 250] ∧
      s₄.lines = s₃.lines ++ [.separator (16 : ℚ)] := by
  intro s₀ s₁ s₂ s₃ s₄
  obtain ⟨between, within, -, hbetween, -, hwithin, hend, -⟩ :=
    frame_separator_iff (D := ℚ) sampleGame "log" filteredOptions [.frame firstFrame]
      [otherThread] secondFrame (Or.inr ⟨[], firstFrame, rfl⟩)
  have hnone : s₁.lines = s₀.lines := by decide +kernel
  have hone : s₃.lines = s₂.lines ++ [.entry 0x01000801 250] := by decide +kernel
  obtain rfl : between = [] := List.append_right_eq_self.mp (hbetween.symm.trans hnone)
  obtain rfl : within = [.entry 0x01000801 250] :=
    List.append_cancel_left (hwithin.symm.trans hone)
  refine ⟨hnone, hone, hend.trans ?_⟩
  refine congrArg (fun t => s₃.lines ++ [Message.separator t]) ?_
  decide +kernel

end RuntimeScriptProfiler
