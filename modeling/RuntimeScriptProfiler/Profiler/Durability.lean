import RuntimeScriptProfiler.Profiler.WholeLog

/-!
# What survives a crash

The log goes through a buffered file, and a line is sure to be on disk once an
`fflush` has followed it. `autoFlush` is off while entries are written and on while a
separator is, so the calls on the file are the loader's first line with its flushes,
then each further line, flushed exactly if it is a separator (`ops_run`). What is
unflushed at any point between two hook calls is then the block since the last
separator, by `Blocks.lastBlock_flatMap`; and since a frame's end leaves no block open
(`lastBlock_log_frame`), no entry is among it when the main-loop hook returns.
-/

namespace RuntimeScriptProfiler

open Blocks

section Durability

variable {F D : Type} [HookArith F D]

/-- The loader's lines written after it switches `autoFlush` off. -/
def unflushedPreamble (D : Type) : List (Message D) :=
  [.text "RuntimeScriptProfiler Initialized!\n\n",
    .text "Script\t\t\t\t\t\t\t\t\t\tElapsed Time\n"]

/-- The log's file after a run. -/
def runFile (game : Game) (logName : String) (o : Options) (r : Run (Execution F)) : FILE D :=
  (loadedFile D logName).does ((r.log game o).flatMap (Event.writes game))

/-- The lines after the switch, the run's included. -/
def linesSince (game : Game) (o : Options) (r : Run (Execution F)) : List (Message D) :=
  unflushedPreamble D ++ (r.log game o).map (Event.message game)

/-- The calls on the file: the first line with its flushes, then every line, flushed
exactly if it is a separator. -/
theorem ops_run (game : Game) (logName : String) (o : Options) (r : Run (Execution F)) :
    (runFile game logName o r : FILE D).ops
      = lineWrites true (.text "RuntimeScriptProfiler Initializing...")
        ++ (linesSince game o r).flatMap fun m => lineWrites m.isSeparator m := by
  have hpreamble : preambleWrites D
      = lineWrites true (.text "RuntimeScriptProfiler Initializing...")
        ++ (unflushedPreamble D).flatMap fun m => lineWrites m.isSeparator m := by
    simp [preambleWrites, unflushedPreamble]
  calc (runFile game logName o r : FILE D).ops
      = preambleWrites D ++ (r.log game o).flatMap (Event.writes game) := rfl
    _ = (lineWrites true (.text "RuntimeScriptProfiler Initializing...")
          ++ (unflushedPreamble D).flatMap fun m => lineWrites m.isSeparator m)
        ++ ((r.log game o).map (Event.message game)).flatMap
          fun m => lineWrites m.isSeparator m := by rw [hpreamble, flatMap_writes]
    _ = lineWrites true (.text "RuntimeScriptProfiler Initializing...")
        ++ (linesSince game o r).flatMap fun m => lineWrites m.isSeparator m := by
        rw [List.append_assoc, linesSince, List.flatMap_append]

/-- What is unflushed is the block since the last separator. -/
theorem unflushed_run (game : Game) (logName : String) (o : Options)
    (r : Run (Execution F)) :
    (runFile game logName o r : FILE D).unflushed
      = (lastBlock Message.isSeparator (linesSince game o r)).flatMap (lineWrites false) := by
  -- a separator ends in a flush, and no other line has one
  have hitem : ∀ m : Message D, m.isSeparator = false →
      ∀ op ∈ lineWrites m.isSeparator m, op.isFlush = false := by
    intro m hm op hop
    rw [hm] at hop
    exact isFlush_of_mem_lineWrites hop
  have hmark : ∀ m : Message D, m.isSeparator = true →
      ∃ ps p, lineWrites m.isSeparator m = ps ++ [p] ∧ p.isFlush = true := by
    intro m hm
    rw [hm, lineWrites_true]
    exact ⟨_, _, rfl, rfl⟩
  calc (runFile game logName o r : FILE D).unflushed
      = (lastBlock Message.isSeparator (linesSince game o r)).flatMap
          fun m => lineWrites m.isSeparator m := by
        rw [FILE.unflushed, ops_run, lineWrites_true, List.append_assoc,
          List.singleton_append]
        exact lastBlock_flatMap hitem hmark rfl (linesSince game o r)
    _ = (lastBlock Message.isSeparator (linesSince game o r)).flatMap (lineWrites false) := by
        -- no line of the block is a separator
        apply List.flatMap_congr
        intro m hm
        rw [mark_of_mem_lastBlock hm]

/-- A frame's end leaves no block open. -/
theorem lastBlock_log_frame (game : Game) (o : Options) (is : List (Item (Execution F)))
    (f : Frame (Execution F)) :
    lastBlock Event.isFrameEnd
      ((⟨is ++ [.frame f], none⟩ : Run (Execution F)).log game o) = [] := by
  have hend : ∀ w : Event (Execution F) → Bool, w (.frameEnd f.start.counter f.stop) = true →
      [(Event.frameEnd f.start.counter f.stop : Event (Execution F))].filter w
        = [.frameEnd f.start.counter f.stop] := by
    intro w hw
    rw [List.filter_cons_of_pos hw, List.filter_nil]
  rw [Run.log, lastBlock_compact, chronicle_frame, List.filter_append, hend _ rfl,
    lastBlock_append_mark (Event.isFrameEnd_frameEnd _ _)]

/-- **Crash durability.** At every point between two hook calls `autoFlush` is off, and
the lines written but not flushed are exactly those since the last separator, or since
the loader switched `autoFlush` off if there is none. When the main-loop hook returns,
no entry is among them. The only flushes are those of the loader's first line and of
separators: the calls that write any other line have none. -/
theorem profile_durable (game : Game) (logName : String) (o : Options)
    (r : Run (Execution F)) :
    let s := r.exec game (loaded logName o)
    ∃ (file : FILE D) (since : List (Message D)),
      s.gLog.logFile = some file ∧ s.gLog.autoFlush = false ∧
      s.lines = .text "RuntimeScriptProfiler Initializing..." :: since ∧
      file.unflushed.filterMap FileOp.line? = lastBlock Message.isSeparator since ∧
      (∀ is f, r = ⟨is ++ [.frame f], none⟩ →
        ∀ m ∈ file.unflushed.filterMap FileOp.line?, m.isEntry = false) ∧
      file.ops = lineWrites true (.text "RuntimeScriptProfiler Initializing...")
        ++ since.flatMap (fun m => lineWrites m.isSeparator m) ∧
      ∀ m : Message D, m.isSeparator = false →
        ∀ op ∈ lineWrites m.isSeparator m, op.isFlush = false := by
  intro s
  have h : Tracks game o (o.enabledAfter r.starts) _ (runFile game logName o r) s :=
    loaded_run game logName o r
  have hunflushed : (runFile game logName o r : FILE D).unflushed.filterMap FileOp.line?
      = lastBlock Message.isSeparator (linesSince game o r) := by
    rw [unflushed_run]
    exact filterMap_line?_flatMap (fun _ => false) _
  refine ⟨runFile game logName o r, linesSince game o r, h.log.logFile, h.autoFlush, ?_,
    hunflushed, ?_, ops_run game logName o r, ?_⟩
  · rw [lines_run, lines_loaded]
    rfl
  · -- the run's part of the last block is empty at a frame's end
    rintro is f rfl m hm
    rw [hunflushed, linesSince] at hm
    rcases mem_lastBlock_append hm with hm | hm
    · -- the loader's own lines
      simp only [unflushedPreamble, List.mem_cons, List.not_mem_nil, or_false] at hm
      rcases hm with rfl | rfl <;> rfl
    · rw [lastBlock_map (Event.isSeparator_message game), lastBlock_log_frame] at hm
      exact absurd hm List.not_mem_nil
  · intro m hm op hop
    rw [hm] at hop
    exact isFlush_of_mem_lineWrites hop

end Durability

end RuntimeScriptProfiler
