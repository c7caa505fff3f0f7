import RuntimeScriptProfiler.Profiler.WholeLog

/-!
# Filtering and pausing project the log

The log under any configuration and any pattern of hotkey taps, compared with the
log `L₀` of the same run with no filter set, profiling on from the start, and no tap
(`Run.untapped`, `Options.unfiltered`). The first is the second with the entries
removed that fail a filter or were executed while profiling was off, and then the
separators of the blocks that this leaves empty (`log_eq_compact_filter`).

The flags of the two runs diverge: a frame may find `scriptWasExecutedThisFrame` set
in one and clear in the other. Both logs are compactions of one chronicle, though, and
`Blocks.compact_filter_compact` lets the second be compacted before the entries are
removed from it. The same law gives the effect of one more filter on the lines of a
log, whatever filters are set already (`profile_only_cons`).
-/

namespace RuntimeScriptProfiler

open Blocks

/-! ### The same run without hotkey taps -/

/-- A frame start at which no key is down. -/
def FrameStart.untapped (f : FrameStart) : FrameStart := { f with input := fun _ _ => 0 }

section Untapped

variable {X : Type}

/-- The same frame, started with no key down. -/
def Frame.untapped (f : Frame X) : Frame X := { f with start := f.start.untapped }

/-- The same item with no key down. -/
def Item.untapped : Item X → Item X
  | script x => .script x
  | frame f => .frame f.untapped

/-- The same ticks, threads, scripts and elapsed times, without hotkey taps. -/
def Run.untapped (r : Run X) : Run X where
  items := r.items.map Item.untapped
  current := r.current.map fun (start, xs) => (start.untapped, xs)

theorem chronicleFrom_untapped (k : ℕ) (is : List (Item X)) :
    chronicleFrom k (is.map Item.untapped) = chronicleFrom k is := by
  induction is generalizing k with
  | nil => rfl
  | cons i is ih =>
    cases i with
    | script x => exact congrArg (Event.script k x :: ·) (ih k)
    | frame f => exact congrArg (f.events k ++ ·) (ih (k + 1))

/-- The hotkey has no part in what a run shows. -/
theorem chronicle_untapped (r : Run X) : r.untapped.chronicle = r.chronicle := by
  obtain ⟨is, current⟩ := r
  -- the stamps of the open frame count the same frames
  have hframes : ((is.map Item.untapped).filterMap Item.frame?).length
      = (is.filterMap Item.frame?).length := by
    induction is with
    | nil => rfl
    | cons i is ih =>
      cases i with
      | script x => exact ih
      | frame f => exact congrArg (· + 1) ih
  unfold Run.chronicle
  rw [show (⟨is, current⟩ : Run X).untapped.items = is.map Item.untapped from rfl,
    chronicleFrom_untapped]
  cases current with
  | none => rfl
  | some open? =>
    obtain ⟨start, xs⟩ := open?
    simp only [Run.untapped, Option.map_some, Run.frames, hframes]

theorem untapped_of_mem_starts {r : Run X} {f : FrameStart} (h : f ∈ r.untapped.starts) :
    ∃ g : FrameStart, f = g.untapped := by
  rcases List.mem_append.mp h with h | h
  · -- the start of a complete frame
    obtain ⟨g, hg, rfl⟩ := List.mem_map.mp h
    obtain ⟨i, hi, hig⟩ := List.mem_filterMap.mp hg
    obtain ⟨j, -, rfl⟩ := List.mem_map.mp hi
    cases j with
    | script x => exact absurd hig (by simp [Item.untapped, Item.frame?])
    | frame g' =>
      obtain rfl : g'.untapped = g := by simpa [Item.untapped, Item.frame?] using hig
      exact ⟨g'.start, rfl⟩
  · -- the start of the open frame
    cases hc : r.current with
    | none => simp [Run.untapped, hc] at h
    | some open? =>
      refine ⟨open?.1, ?_⟩
      simpa [Run.untapped, hc] using h

/-- Without taps profiling stays as it was set. -/
theorem enabledAfter_untapped (o : Options) (r : Run X) (k : ℕ) :
    o.enabledAfter (r.untapped.starts.take k) = o.isModEnabled := by
  have hnone : (r.untapped.starts.take k).countP
      (fun f => getIsKeyTapped f o.toggleExecutionHotkey) = 0 := by
    rw [List.countP_eq_zero]
    intro f hf
    obtain ⟨g, rfl⟩ := untapped_of_mem_starts (List.mem_of_mem_take hf)
    simp [getIsKeyTapped, getDXKeyState, FrameStart.untapped]
  simp [Options.enabledAfter, hnone]

end Untapped

/-! ### Configurations with some of the filters -/

namespace Options

/-- The configuration with the filters of a list set and the others zero. -/
def only (o : Options) (fs : List Filter) : Options :=
  { o with
    skipVanillaScripts := if Filter.skipVanilla ∈ fs then o.skipVanillaScripts else 0
    filterModID := if Filter.modID ∈ fs then o.filterModID else 0
    filterFormID := if Filter.formID ∈ fs then o.filterFormID else 0 }

/-- No filter set, and profiling on from the start. -/
def unfiltered (o : Options) : Options := { o.only [] with isModEnabled := true }

/-- All filters set. -/
theorem only_of_forall_mem (o : Options) {fs : List Filter} (h : ∀ f, f ∈ fs) :
    o.only fs = o := by
  simp [only, h]

@[simp] theorem enabledAfter_only (o : Options) (fs : List Filter)
    (starts : List FrameStart) : (o.only fs).enabledAfter starts = o.enabledAfter starts := rfl

/-- A filter that is not set lets everything through. -/
theorem keeps_only (o : Options) (fs : List Filter) (refID : UInt32) (f : Filter) :
    f.keeps (o.only fs) refID = (decide (f ∉ fs) || f.keeps o refID) := by
  cases f with
  | skipVanilla => by_cases h : Filter.skipVanilla ∈ fs <;> simp [Filter.keeps, only, h]
  | modID => by_cases h : Filter.modID ∈ fs <;> simp [Filter.keeps, only, h]
  | formID => by_cases h : Filter.formID ∈ fs <;> simp [Filter.keeps, only, h]

/-- A form ID passes when every filter set lets it through. -/
theorem passes_only (o : Options) (fs : List Filter) (refID : UInt32) :
    (o.only fs).passes refID = fs.all fun f => f.keeps o refID := by
  simp only [passes, keeps_only]
  rw [Bool.eq_iff_iff, List.all_eq_true]
  simp only [Bool.and_eq_true, Bool.or_eq_true, decide_eq_true_eq, ← imp_iff_not_or]
  constructor
  · rintro ⟨⟨hskip, hmod⟩, hform⟩ f hf
    cases f with
    | skipVanilla => exact hskip hf
    | modID => exact hmod hf
    | formID => exact hform hf
  · intro h
    exact ⟨⟨h .skipVanilla, h .modID⟩, h .formID⟩

end Options

section Projection

variable {F D : Type} [HookArith F D] (game : Game) (logName : String) (o : Options)

/-- Whether an event of `L₀` survives: an execution does if profiling was on when it
was reported and its form ID passes the filters. -/
def Options.survives (starts : List FrameStart) : Event (Execution F) → Bool
  | .script k x => o.enabledAfter (starts.take k) && o.passes x.script.refID
  | .frameEnd _ _ => true

/-- **Filtering and pausing only project the log**, as events. -/
theorem log_eq_compact_filter (r : Run (Execution F)) :
    r.log game o
      = compact Event.isFrameEnd
          ((r.untapped.log game o.unfiltered).filter (o.survives r.starts)) := by
  have hsurvives : ∀ e : Event (Execution F), e.isFrameEnd = true →
      o.survives r.starts e = true := by
    intro e he
    cases e with
    | script k x => exact absurd he Bool.false_ne_true
    | frameEnd a b => rfl
  have hwrites : ∀ e : Event (Execution F), o.writes game r.starts e
      = (o.survives r.starts e && o.unfiltered.writes game r.untapped.starts e) := by
    intro e
    cases e with
    | frameEnd a b => rfl
    | script k x =>
      -- in `L₀` an execution is written as soon as it can be logged at all
      have hon : o.unfiltered.enabledAfter (r.untapped.starts.take k) = true :=
        enabledAfter_untapped o.unfiltered r k
      have hpass : o.unfiltered.passes x.script.refID = true :=
        o.passes_only [] x.script.refID
      rw [writes_script, writes_script, hon, hpass, Options.survives]
      cases o.enabledAfter (r.starts.take k) <;> cases x.loggable game <;> simp
  calc r.log game o
      = compact Event.isFrameEnd (r.chronicle.filter fun e =>
          o.survives r.starts e && o.unfiltered.writes game r.untapped.starts e) :=
        congrArg (compact Event.isFrameEnd) (List.filter_congr fun e _ => hwrites e)
    _ = compact Event.isFrameEnd ((r.untapped.chronicle.filter
          (o.unfiltered.writes game r.untapped.starts)).filter (o.survives r.starts)) := by
        rw [List.filter_filter, chronicle_untapped]
    -- what compaction removes from `L₀` would not survive either
    _ = compact Event.isFrameEnd
          ((r.untapped.log game o.unfiltered).filter (o.survives r.starts)) :=
        (compact_filter_compact hsurvives _).symm

/-! ### One filter after the other -/

/-- Whether a filter leaves a line in the log. -/
def Filter.keepsLine (f : Filter) : Message D → Bool
  | .entry refID _ => f.keeps o refID
  | _ => true

/-- The log without the entries that fail a filter, and without the separators whose
block has become empty. -/
def Filter.drop (f : Filter) (lines : List (Message D)) : List (Message D) :=
  compact Message.isSeparator (lines.filter (f.keepsLine o))

variable {game logName o}

/-- Setting one more filter drops what fails it from the log. -/
theorem profile_only_cons (r : Run (Execution F)) (f : Filter) (fs : List Filter) :
    r.profile game logName (o.only (f :: fs))
      = f.drop o (r.profile game logName (o.only fs)) := by
  have hmark : ∀ e : Event (Execution F), e.isFrameEnd = true →
      (f.keepsLine o ∘ Event.message game) e = true := by
    intro e he
    cases e with
    | script k x => exact absurd he Bool.false_ne_true
    | frameEnd a b => rfl
  -- dropping lines is dropping events
  rw [profile_run, profile_run, Filter.drop, List.filter_map, compact,
    ← map_compactFrom (Event.isSeparator_message game)]
  refine congrArg (List.map (Event.message game)) ?_
  unfold Run.log
  rw [← compact, compact_filter_compact hmark, List.filter_filter]
  refine congrArg (compact Event.isFrameEnd) (List.filter_congr ?_)
  intro e _
  cases e with
  | frameEnd a b => rfl
  | script k x =>
    have hkeeps : (f.keepsLine o ∘ Event.message game) (.script k x)
        = f.keeps o x.script.refID := rfl
    rw [hkeeps, writes_script, writes_script, Options.enabledAfter_only,
      Options.enabledAfter_only, Options.passes_only, Options.passes_only, List.all_cons]
    cases f.keeps o x.script.refID <;> simp

/-- Setting filters one after the other. -/
theorem profile_only_foldl (r : Run (Execution F)) (fs gs : List Filter) :
    fs.foldl (fun lines f => f.drop o lines) (r.profile game logName (o.only gs))
      = r.profile game logName (o.only (fs.reverse ++ gs)) := by
  -- `gs` are the filters set so far
  induction fs generalizing gs with
  | nil => rw [List.foldl_nil, List.reverse_nil, List.nil_append]
  | cons f fs ih =>
    calc (f :: fs).foldl (fun lines f => f.drop o lines) (r.profile game logName (o.only gs))
        = fs.foldl (fun lines f => f.drop o lines)
            (f.drop o (r.profile game logName (o.only gs))) := List.foldl_cons ..
      _ = fs.foldl (fun lines f => f.drop o lines)
            (r.profile game logName (o.only (f :: gs))) := by rw [profile_only_cons]
      _ = r.profile game logName (o.only (fs.reverse ++ f :: gs)) := ih (f :: gs)
      _ = r.profile game logName (o.only ((f :: fs).reverse ++ gs)) := by
          rw [List.reverse_cons, List.append_assoc, List.singleton_append]

/-- **Filtering and pausing only project the log.** Let `L₀` be the log of the run
without taps, nothing filtered and profiling on. The log of the run under a
configuration is `L₀` without the entries that fail a filter or were reported while
profiling was off, and without the separators whose block this empties. Setting the
three filters one at a time, in any order, removes the same lines as setting them
together. -/
theorem profile_projection (game : Game) (logName : String) (o : Options)
    (r : Run (Execution F)) :
    let L₀ := r.untapped.log game o.unfiltered
    r.untapped.profile game logName o.unfiltered = L₀.map (Event.message game) ∧
      r.profile game logName o
        = (compact Event.isFrameEnd (L₀.filter (o.survives r.starts))).map
          (Event.message game) ∧
      ∀ fs : List Filter, (∀ f, f ∈ fs) →
        fs.foldl (fun lines f => f.drop o lines) (r.profile game logName (o.only []))
          = r.profile game logName o := by
  refine ⟨profile_run game logName _ r.untapped, ?_, ?_⟩
  · rw [profile_run, log_eq_compact_filter]
  · intro fs hfs
    have hmem : ∀ f, f ∈ fs.reverse ++ [] := by
      intro f
      simpa using hfs f
    rw [profile_only_foldl, o.only_of_forall_mem hmem]

end Projection

/-- All three filters set: no script of the base game, the second plugin in the load order, and one
of its forms. -/
def allFilters : Options := { sampleOptions with
  skipVanillaScripts := 1
  filterModID := 1
  filterFormID := 0x01000800 }

/-- Three frames: one with a script of the base game and the script of the form, one with a
script of another plugin, and one with another script of the same plugin. -/
def mixedRun : Run (Execution ℚ) where
  items := [
    .frame ⟨⟨fun _ _ => 0, 0⟩, [⟨1, ⟨0x00000800⟩, 1 / 2⟩, ⟨1, ⟨0x01000800⟩, 1 / 4⟩], 16⟩,
    .frame ⟨⟨fun _ _ => 0, 20⟩, [⟨1, ⟨0x02000800⟩, 1 / 2⟩], 36⟩,
    .frame ⟨⟨fun _ _ => 0, 40⟩, [⟨1, ⟨0x01000801⟩, 1 / 2⟩], 56⟩]
  current := none

/-- Each of the filters drops an entry, and the last two of them the separator of its block with
it: of seven lines six are left, then four, then two. -/
theorem profile_projection_mixedRun :
    let drop := fun lines (f : Filter) => f.drop allFilters lines
    let unfiltered := mixedRun.profile sampleGame "log" (allFilters.only [])
    unfiltered.length = 7 ∧ ([Filter.skipVanilla].foldl drop unfiltered).length = 6 ∧
      ([Filter.skipVanilla, .modID].foldl drop unfiltered).length = 4 ∧
      [Filter.skipVanilla, .modID, .formID].foldl drop unfiltered
        = mixedRun.profile sampleGame "log" allFilters ∧
      mixedRun.profile sampleGame "log" allFilters
        = [.entry 0x01000800 250, .separator (16 : ℚ)] := by
  intro drop unfiltered
  have hfilters := (profile_projection (D := ℚ) sampleGame "log" allFilters mixedRun).2.2
    [.skipVanilla, .modID, .formID] fun f => by cases f <;> decide
  exact ⟨by decide +kernel, by decide +kernel, by decide +kernel, hfilters, by decide +kernel⟩

end RuntimeScriptProfiler
