import RuntimeScriptProfiler.Framework.Columns
import RuntimeScriptProfiler.Log.IDebugLog
import RuntimeScriptProfiler.Profiler.Arith

/-!
# The layout of the log

The rest of the log's public interface, its sources and blocks included
(`SourcedLog`, `LogCall`), and what the layout it writes is meant to be (`Outline`): lines
at a tab stop, each with the header of its source, and blocks whose lines stand under the
text of their first. The outline counts tab stops, and pads with tabs only.

The log keeps a column in an `int`, moves it by what it writes, and pads with tabs or
spaces by how far the column is from a stop, which it does not read again while it pads.
`lays_run` shows that none of this can go wrong: after any sequence of calls the file has
the text of the outline, and the column kept is the one a reader sees. Padding always
starts at a stop, so the branch that writes spaces is never taken.
-/

namespace RuntimeScriptProfiler

open Columns

/-! ### Sources and blocks -/

/-- The static members of the log with the buffer that holds the name of its source. -/
structure SourcedLog (D : Type) where
  gLog : IDebugLog D
  sourceBuf : String

/-- The loop of `SetSource`: `n` more characters of the target at most are replaced by
those of the source, up to its end. -/
def overwrite : ℕ → List Char → List Char → List Char
  | n + 1, _ :: tgt, c :: src => c :: overwrite n tgt src
  | _, tgt, _ => tgt

/-- The header text of a source. -/
def sourceHeader (source : String) : String :=
  String.ofList ('[' :: overwrite 8 "        ]\t".toList source.toList)

namespace IDebugLog

variable {D : Type} [PrintfDouble D]

/-- `FormattedMessage`. -/
def formattedMessage (m : Message D) (g : IDebugLog D) : IDebugLog D :=
  { g with formatBuf := m }.message m

/-- `OpenBlock`. -/
def openBlock (g : IDebugLog D) : IDebugLog D :=
  { (g.seekCursor (g.indentLevel * 4)).printText (.headerText g.headerText) with inBlock := true }

/-- `CloseBlock`. -/
def closeBlock (g : IDebugLog D) : IDebugLog D := { g with inBlock := false }

/-- `SetLogLevel`. -/
def setLogLevel (level : LogLevel) (g : IDebugLog D) : IDebugLog D := { g with logLevel := level }

/-- `SetPrintLevel`. -/
def setPrintLevel (level : LogLevel) (g : IDebugLog D) : IDebugLog D :=
  { g with printLevel := level }

end IDebugLog

/-- A call of the log's public interface, its file once opened. -/
inductive LogCall (D : Type) where
  | message (m : Message D) (source : Option String)
  | formattedMessage (m : Message D)
  | log (level : LogLevel) (m : Message D)
  | setSource (source : String)
  | clearSource
  | indent
  | outdent
  | openBlock
  | closeBlock
  | setAutoFlush (inAutoFlush : Bool)
  | setLogLevel (level : LogLevel)
  | setPrintLevel (level : LogLevel)

namespace SourcedLog

variable {D : Type} [PrintfDouble D]

/-- `SetSource`, for a name that fits the buffer. -/
def setSource (source : String) (s : SourcedLog D) : SourcedLog D where
  gLog := { s.gLog with headerText := sourceHeader source }
  sourceBuf := source

/-- `ClearSource`. The header text is left as it is. -/
def clearSource (s : SourcedLog D) : SourcedLog D := { s with sourceBuf := "" }

/-- `Message`. -/
def message (m : Message D) (source : Option String) (s : SourcedLog D) : SourcedLog D :=
  let s :=
    match source with
    | some source => s.setSource source
    | none => s
  { s with gLog := s.gLog.message m }

/-- One call. -/
def call (s : SourcedLog D) : LogCall D → SourcedLog D
  | .message m source => s.message m source
  | .formattedMessage m => { s with gLog := s.gLog.formattedMessage m }
  | .log level m => { s with gLog := s.gLog.log level m }
  | .setSource source => s.setSource source
  | .clearSource => s.clearSource
  | .indent => { s with gLog := s.gLog.indent }
  | .outdent => { s with gLog := s.gLog.outdent }
  | .openBlock => { s with gLog := s.gLog.openBlock }
  | .closeBlock => { s with gLog := s.gLog.closeBlock }
  | .setAutoFlush b => { s with gLog := s.gLog.setAutoFlush b }
  | .setLogLevel level => { s with gLog := s.gLog.setLogLevel level }
  | .setPrintLevel level => { s with gLog := s.gLog.setPrintLevel level }

/-- The log with a file just opened. -/
def opened (D : Type) (name : String) : SourcedLog D :=
  ⟨{ IDebugLog.statics D with logFile := some (FILE.fresh name) }, ""⟩

/-- The calls of a list, one after the other. -/
def run (calls : List (LogCall D)) (s : SourcedLog D) : SourcedLog D := calls.foldl call s

end SourcedLog

/-- The log after a list of calls, from its opening. -/
def logAfter {D : Type} [PrintfDouble D] (name : String) (calls : List (LogCall D)) : IDebugLog D :=
  ((SourcedLog.opened D name).run calls).gLog

namespace LogCall

variable {D : Type}

/-- The sources a call names. -/
def source? : LogCall D → Option String
  | message _ source => source
  | setSource source => some source
  | _ => none

/-- Does the call go one level or one header further to the right? -/
def deepens : LogCall D → Bool
  | indent => true
  | openBlock => true
  | _ => false

/-- The name of a source fits its buffer of 16 characters, and is on one line. -/
def Fits (c : LogCall D) : Prop := ∀ source ∈ c.source?, source.length < 16 ∧ '\n' ∉ source.toList

end LogCall

/-! ### The layout -/

/-- A log as a reader sees it: its indentation, the header its lines get, and its text,
whose last line has got to a tab stop. -/
structure Outline (D : Type) where
  level : ℕ
  header : List Char
  inBlock : Bool
  stop : ℕ
  text : List Char
  logLevel : LogLevel
  printLevel : LogLevel
  stdout : List (Message D)

namespace Outline

variable {D : Type}

/-- An empty log. -/
def empty (D : Type) : Outline D := ⟨0, [], false, 0, [], .debugMessage, .message, []⟩

/-- Tabs up to a stop. -/
def pad (target : ℕ) (o : Outline D) : Outline D :=
  { o with text := o.text ++ List.replicate (target - o.stop) '\t', stop := max o.stop target }

/-- The header, which ends at a stop. -/
def heading (o : Outline D) : Outline D :=
  { o with text := o.text ++ o.header, stop := o.stop + after 4 0 o.header / 4 }

/-- The stops that are kept free for a header in front of the lines of a block. -/
def margin (o : Outline D) : ℕ := (o.header.length + 3) / 4

/-- A line: under the header of its block, or behind its own. -/
def line [PrintfDouble D] (m : Message D) (o : Outline D) : Outline D :=
  let o := if o.inBlock then o.pad (o.level + o.margin) else (o.pad o.level).heading
  { o with text := o.text ++ m.chars ++ ['\n'], stop := 0 }

/-- The header of a source: the first eight characters of its name, in brackets. -/
def setSource (source : String) (o : Outline D) : Outline D :=
  { o with header :=
      '[' :: ((source.toList ++ List.replicate 8 ' ').take 8 ++ [']', '\t']) }

/-- A line and an echo, each if its level asks for it. -/
def log [PrintfDouble D] (level : LogLevel) (m : Message D) (o : Outline D) : Outline D :=
  let o := if level.toNat ≤ o.logLevel.toNat then o.line m else o
  if level.toNat ≤ o.printLevel.toNat then { o with stdout := o.stdout ++ [m] } else o

/-- What a call does to the layout. -/
def call [PrintfDouble D] (o : Outline D) : LogCall D → Outline D
  | .message m none => o.line m
  | .message m (some source) => (o.setSource source).line m
  | .formattedMessage m => o.line m
  | .log level m => o.log level m
  | .setSource source => o.setSource source
  | .clearSource => o
  | .indent => { o with level := o.level + 1 }
  | .outdent => { o with level := o.level - 1 }
  | .openBlock => { (o.pad o.level).heading with inBlock := true }
  | .closeBlock => { o with inBlock := false }
  | .setAutoFlush _ => o
  | .setLogLevel level => { o with logLevel := level }
  | .setPrintLevel level => { o with printLevel := level }

/-- What a list of calls does to it. -/
def run [PrintfDouble D] (calls : List (LogCall D)) (o : Outline D) : Outline D :=
  calls.foldl call o

end Outline

/-! ### The arithmetic of columns -/

section Arithmetic

open IDebugLog

theorem tabSize_ofNat {c : ℕ} (hc : c < 2 ^ 31) :
    tabSize (Int32.ofNat c) = Int32.ofNat (4 - c % 4) := by
  apply Int32.toBitVec_inj.mp
  apply BitVec.eq_of_toNat_eq
  -- `TabSize` is the low two bits of `~column`, plus one
  have hlow : (4294967295 - c) &&& 3 = (4294967295 - c) % 4 := Nat.and_two_pow_sub_one_eq_mod _ 2
  have hc' : c % 4294967296 = c := Nat.mod_eq_of_lt (by omega)
  simp [tabSize, hc', hlow]
  omega

theorem and_neg_four {x : ℕ} (hx : x < 2 ^ 32) : x &&& 4294967292 = 4 * (x / 4) := by
  apply Nat.eq_of_testBit_eq
  intro i
  -- bit by bit: the mask clears the two lowest and keeps the thirty above them
  have hmask : 4294967292 = 2 ^ 2 * (2 ^ 30 - 1) := rfl
  have htabs : 4 * (x / 4) = 2 ^ 2 * (x / 2 ^ 2) := rfl
  rw [hmask, htabs, Nat.testBit_and, Nat.testBit_two_pow_mul, Nat.testBit_two_pow_mul,
    Nat.testBit_two_pow_sub_one, Nat.testBit_div_two_pow]
  by_cases hi : 2 ≤ i
  · by_cases hi' : i < 32
    · simp [hi, show i - 2 < 30 by omega, show i - 2 + 2 = i by omega]
    · -- beyond the 32 bits of the mask the number has none either
      have hhigh : x.testBit i = false :=
        Nat.testBit_lt_two_pow (hx.trans_le (Nat.pow_le_pow_right (by decide) (by omega)))
      simp [hi, show i - 2 + 2 = i by omega, hhigh]
  · simp [hi]

theorem roundToTab_ofNat {c : ℕ} (hc : c + 3 < 2 ^ 31) :
    roundToTab (Int32.ofNat c) = Int32.ofNat (4 * ((c + 3) / 4)) := by
  apply Int32.toBitVec_inj.mp
  apply BitVec.eq_of_toNat_eq
  have hc' : (c + 3) % 4294967296 = c + 3 := Nat.mod_eq_of_lt (by omega)
  simp [roundToTab, hc']
  rw [and_neg_four (by omega), Nat.mod_eq_of_lt (by omega)]

theorem advance_ofNat {c : ℕ} (hc : c < 2 ^ 31) {x : Char} (hx : x ≠ '\n') :
    advance (Int32.ofNat c) x = Int32.ofNat (step 4 c x) := by
  unfold advance step
  -- a tab goes to the next stop, any other character one column on
  by_cases htab : x = '\t'
  · rw [if_pos htab, if_pos htab, tabSize_ofNat hc, ← Int32.ofNat_add]
    congr 1
    omega
  · rw [if_neg htab, if_neg htab, if_neg hx, Int32.ofNat_add]
    rfl

theorem foldl_advance_ofNat {c : ℕ} {text : List Char} (hc : c + 4 * text.length < 2 ^ 31)
    (htext : '\n' ∉ text) :
    text.foldl advance (Int32.ofNat c) = Int32.ofNat (after 4 c text) := by
  induction text generalizing c with
  | nil => rfl
  | cons x text ih =>
    rw [List.mem_cons, not_or] at htext
    rw [List.length_cons] at hc
    -- no character moves further than a tab, so the rest still fits the `int`
    have hstep : step 4 c x ≤ c + 4 := after_le (by decide) c [x]
    rw [List.foldl_cons, advance_ofNat (by omega) (Ne.symm htext.1), ih (by omega) htext.2,
      after_cons]

theorem spaceRun_mul (k : ℕ) : spaceRun 4 (4 * k) = List.replicate k '\t' := by
  -- each round of the loop takes four columns off and puts one tab out
  induction k with
  | zero => rw [Nat.mul_zero, spaceRun, List.replicate_zero]
  | succ k ih =>
    rw [show 4 * (k + 1) = 4 * k + 3 + 1 by ring, spaceRun, if_pos (by omega),
      show 4 * k + 3 + 1 - 4 = 4 * k by omega, ih, List.replicate_succ]

end Arithmetic

/-! ### The log keeps to the layout -/

section Lays

variable {D : Type} [PrintfDouble D]

theorem FILE.chars_does (f : FILE D) (ops : List (FileOp D)) :
    (f.does ops).chars = f.chars ++ ops.flatMap FileOp.chars :=
  List.flatMap_append

/-- A header is short, is on one line and ends at a stop. -/
structure HeaderFits (header : List Char) : Prop where
  length_le : header.length ≤ 11
  notMem : '\n' ∉ header
  dvd : 4 ∣ after 4 0 header

/-- The log has laid out what the outline shows, and knows the column it has got to. -/
structure Lays (g : IDebugLog D) (o : Outline D) : Prop where
  file : ∃ f, g.logFile = some f ∧ f.chars = o.text
  headerText : g.headerText.toList = o.header
  indentLevel : g.indentLevel = Int32.ofNat o.level
  cursorPos : g.cursorPos = Int32.ofNat (4 * o.stop)
  inBlock : g.inBlock = o.inBlock
  logLevel : g.logLevel = o.logLevel
  printLevel : g.printLevel = o.printLevel
  stdout : g.stdout = o.stdout
  column : after 4 0 o.text = 4 * o.stop
  header : HeaderFits o.header

namespace Lays

variable {g : IDebugLog D} {o : Outline D}

/-- Text that is put on the file and gets from one stop to another. -/
theorem put (h : Lays g o) {logFile : Option (FILE D)} {cursorPos : Int32}
    (ops : List (FileOp D)) {text : List Char} {k : ℕ}
    (hfile : logFile = g.logFile.map fun f => f.does ops) (hops : ops.flatMap FileOp.chars = text)
    (hcursor : cursorPos = Int32.ofNat (4 * k)) (hcolumn : after 4 (4 * o.stop) text = 4 * k) :
    Lays { g with logFile := logFile, cursorPos := cursorPos }
      { o with text := o.text ++ text, stop := k } := by
  obtain ⟨f, hopen, hchars⟩ := h.file
  -- nothing but the file and the column changes
  refine { h with file := ⟨f.does ops, ?_, ?_⟩, cursorPos := hcursor, column := ?_ }
  · rw [hfile, hopen, Option.map_some]
  · rw [FILE.chars_does, hchars, hops]
  · rw [after_append, h.column, hcolumn]

/-- Seeking a stop pads with tabs. -/
theorem pad (target : ℕ) (h : Lays g o) (hstop : 4 * o.stop < 2 ^ 31)
    (htarget : 4 * target < 2 ^ 31) :
    Lays (g.seekCursor (Int32.ofNat (4 * target))) (o.pad target) := by
  unfold IDebugLog.seekCursor
  rw [h.cursorPos]
  -- the cursor moves to the right only
  by_cases hlt : o.stop < target
  · obtain ⟨k, rfl⟩ : ∃ k, target = o.stop + k := ⟨target - o.stop, by omega⟩
    rw [if_pos ((Int32.ofNat_lt_iff_lt hstop htarget).mpr (by omega))]
    have hspaces : Int32.ofNat (4 * (o.stop + k)) - Int32.ofNat (4 * o.stop)
        = Int32.ofNat (4 * k) := by
      rw [← Int32.ofNat_sub _ _ (by omega)]
      congr 1
      omega
    -- the column is at a stop, so what is left to the next one is a whole tab
    have htab : (IDebugLog.tabSize g.cursorPos).toInt.toNat = 4 := by
      rw [h.cursorPos, tabSize_ofNat hstop, Nat.mul_mod_right]
      rfl
    have hcount : (Int32.ofNat (4 * k)).toInt.toNat = 4 * k := by
      rw [Int32.toInt_ofNat_of_lt (by omega), Int.toNat_natCast]
    have hpad : o.pad (o.stop + k)
        = { o with text := o.text ++ List.replicate k '\t', stop := o.stop + k } := by
      rw [Outline.pad, Nat.add_sub_cancel_left, max_eq_right (by omega)]
    -- `k` whole tabs are missing, and the loop writes them all
    rw [hpad, IDebugLog.printSpaces, hspaces, htab, hcount, spaceRun_mul]
    refine h.put ((List.replicate k '\t').map FileOp.fputc) rfl ?_ ?_ ?_
    · rw [List.flatMap_map]
      exact List.flatMap_singleton' _
    · rw [h.cursorPos, ← Int32.ofNat_add, mul_add]
    · exact after_replicate_tab (by decide) o.stop k
  · -- past the target nothing is written, and the outline pads by nothing
    rw [if_neg fun hseek => hlt (by
      have := (Int32.ofNat_lt_iff_lt hstop htarget).mp hseek
      omega)]
    have hpad : o.pad target = o := by
      rw [Outline.pad, Nat.sub_eq_zero_of_le (by omega), List.replicate_zero, List.append_nil,
        max_eq_left (by omega)]
    rwa [hpad]

/-- Printing the header gets to the next stop after it. -/
theorem heading (h : Lays g o) (hstop : 4 * o.stop + 44 < 2 ^ 31) :
    Lays (g.printText (.headerText g.headerText)) o.heading := by
  have hfits := h.header
  obtain ⟨w, hw⟩ := hfits.dvd
  -- the header is as wide behind any stop as at the start of a line
  have hafter : after 4 (4 * o.stop) o.header = 4 * (o.stop + w) := by
    have hshift := after_mul_add (w := 4) (by decide) o.stop 0 hfits.notMem
    rw [add_zero, hw] at hshift
    rw [hshift, mul_add]
  have hheading : o.heading = { o with text := o.text ++ o.header, stop := o.stop + w } := by
    rw [Outline.heading, hw, Nat.mul_div_cancel_left w (by decide)]
  rw [hheading, IDebugLog.printText]
  refine h.put _ rfl ?_ ?_ hafter
  · cases g.autoFlush <;> simp [FileOp.chars, Buf.chars, h.headerText]
  · have hlength := hfits.length_le
    rw [h.cursorPos, Buf.chars, h.headerText, foldl_advance_ofNat (by omega) hfits.notMem, hafter]

/-- The end of a line, whatever its text. -/
theorem finish (m : Message D) (h : Lays g o) :
    Lays (g.printText (.formatBuf m)).newLine
      { o with text := o.text ++ m.chars ++ ['\n'], stop := 0 } := by
  -- the text and the line break, each flushed if the log flushes
  let ops : List (FileOp D) := [.fputs (.formatBuf m)] ++ (if g.autoFlush then [.fflush] else [])
    ++ ([.fputc '\n'] ++ if g.autoFlush then [.fflush] else [])
  have hfile : (g.printText (.formatBuf m)).newLine.logFile
      = g.logFile.map fun f => f.does ops := by
    simp only [IDebugLog.newLine, IDebugLog.printText, Option.map_map]
    congr 1
    funext f
    exact FILE.does_does f _ _
  have hops : ops.flatMap FileOp.chars = m.chars ++ ['\n'] := by
    cases hflush : g.autoFlush <;> simp [ops, hflush, FileOp.chars, Buf.chars]
  -- the column is zero after the line break, so it does not matter how far the text got
  have hcursor : (0 : Int32) = Int32.ofNat (4 * 0) := rfl
  have hput := h.put ops hfile hops hcursor (after_concat_newline _ _)
  rw [List.append_assoc]
  exact hput

/-- A line of the log is a line of the outline. -/
theorem line (m : Message D) (h : Lays g o) (hlevel : 4 * o.level < 2 ^ 30)
    (hstop : 4 * o.stop < 2 ^ 30) : Lays (g.message m) (o.line m) := by
  have hlength := h.header.length_le
  have hlines : o.margin ≤ 3 := by
    unfold Outline.margin
    omega
  unfold IDebugLog.message Outline.line
  rw [h.inBlock]
  cases o.inBlock with
  | true =>
    -- inside a block: no header, but the width of one is left free
    have htarget : IDebugLog.roundToTab (g.indentLevel * 4 + Int32.ofNat g.headerText.length)
        = Int32.ofNat (4 * (o.level + o.margin)) := by
      have hlen : g.headerText.length = o.header.length := by
        rw [← h.headerText, String.length_toList]
      rw [h.indentLevel, hlen, show (4 : Int32) = Int32.ofNat 4 from rfl, ← Int32.ofNat_mul,
        ← Int32.ofNat_add, roundToTab_ofNat (by omega), Outline.margin]
      congr 1
      omega
    simp only [if_true, htarget]
    exact (h.pad _ (by omega) (by omega)).finish m
  | false =>
    -- outside: the indentation, and the header behind it
    have htarget : g.indentLevel * 4 = Int32.ofNat (4 * o.level) := by
      rw [h.indentLevel, show (4 : Int32) = Int32.ofNat 4 from rfl, ← Int32.ofNat_mul, mul_comm]
    simp only [Bool.false_eq_true, if_false, htarget]
    have hpad := h.pad o.level (by omega) (by omega)
    have hheader : (g.seekCursor (Int32.ofNat (4 * o.level))).headerText = g.headerText := by
      unfold IDebugLog.seekCursor
      split <;> rfl
    -- the column may have been left behind a header that was printed before
    have hheading := hpad.heading (by
      change 4 * max o.stop o.level + 44 < 2 ^ 31
      omega)
    rw [hheader] at hheading
    exact hheading.finish m

/-- Opening a block prints its header. -/
theorem openBlock (h : Lays g o) (hlevel : 4 * o.level < 2 ^ 30) (hstop : 4 * o.stop < 2 ^ 30) :
    Lays g.openBlock { (o.pad o.level).heading with inBlock := true } := by
  have htarget : g.indentLevel * 4 = Int32.ofNat (4 * o.level) := by
    rw [h.indentLevel, show (4 : Int32) = Int32.ofNat 4 from rfl, ← Int32.ofNat_mul, mul_comm]
  have hheader : (g.seekCursor (Int32.ofNat (4 * o.level))).headerText = g.headerText := by
    unfold IDebugLog.seekCursor
    split <;> rfl
  have hpad := h.pad o.level (by omega) (by omega)
  have hheading := hpad.heading (by
    change 4 * max o.stop o.level + 44 < 2 ^ 31
    omega)
  rw [hheader] at hheading
  -- as for a line outside a block, without the text
  unfold IDebugLog.openBlock
  rw [htarget]
  exact { hheading with inBlock := rfl }

/-- The loop of `SetSource` leaves the first eight characters of the name, filled up with
blanks, in front of what was there. -/
theorem overwrite_replicate (n : ℕ) (c : Char) (tgt src : List Char) :
    overwrite n (List.replicate n c ++ tgt) src
      = (src ++ List.replicate n c).take n ++ tgt := by
  induction n generalizing src with
  | zero => rfl
  | succ n ih =>
    -- the loop stops at the end of the name: the blanks stay
    cases src with
    | nil => simp [overwrite]
    | cons x src =>
      rw [List.replicate_succ, List.cons_append, overwrite, ih, List.cons_append,
        List.take_succ_cons, List.cons_append]
      have hmin : min (n - src.length) n = min (n - src.length) (n + 1) := by omega
      rw [List.take_append, List.take_append, List.take_replicate, ← List.replicate_succ,
        List.take_replicate, hmin]

/-- Setting a source sets the header. -/
theorem setSource (source : String) (hsource : '\n' ∉ source.toList) {s : SourcedLog D}
    (h : Lays s.gLog o) : Lays (s.setSource source).gLog (o.setSource source) := by
  have hheader : (sourceHeader source).toList = (o.setSource source).header := by
    rw [sourceHeader, String.toList_ofList, Outline.setSource,
      ← overwrite_replicate 8 ' ' [']', '\t'] source.toList]
    rfl
  -- the eight characters are of the name or blanks
  have hname : '\n' ∉ (source.toList ++ List.replicate 8 ' ').take 8 := by
    intro hmem
    rcases List.mem_append.mp (List.mem_of_mem_take hmem) with hmem | hmem
    · exact hsource hmem
    · exact absurd (List.eq_of_mem_replicate hmem) (by decide)
  refine { h with headerText := hheader, header := ⟨?_, ?_, ?_⟩ }
  -- eleven characters, none of them a line break, and the last one a tab
  · rw [Outline.setSource]
    simp
  · rw [Outline.setSource]
    simp only [List.mem_cons, List.mem_append, not_or]
    refine ⟨by decide, hname, by decide, by decide, List.not_mem_nil⟩
  · rw [Outline.setSource]
    have hsplit : '[' :: ((source.toList ++ List.replicate 8 ' ').take 8 ++ [']', '\t'])
        = ('[' :: ((source.toList ++ List.replicate 8 ' ').take 8 ++ [']'])) ++ ['\t'] := by
      simp
    simp only [hsplit]
    exact dvd_after_concat_tab _ _

end Lays

section Line

variable (m : Message D) (o : Outline D)

@[simp] theorem Outline.level_line : (o.line m).level = o.level := by
  unfold Outline.line
  cases o.inBlock <;> rfl

@[simp] theorem Outline.stop_line : (o.line m).stop = 0 := rfl

@[simp] theorem Outline.header_line : (o.line m).header = o.header := by
  unfold Outline.line
  cases o.inBlock <;> rfl

@[simp] theorem Outline.printLevel_line : (o.line m).printLevel = o.printLevel := by
  unfold Outline.line
  cases o.inBlock <;> rfl

@[simp] theorem Outline.level_log (level : LogLevel) : (o.log level m).level = o.level := by
  simp only [Outline.log]
  split <;> split <;> simp

@[simp] theorem Outline.header_log (level : LogLevel) : (o.log level m).header = o.header := by
  simp only [Outline.log]
  split <;> split <;> simp

theorem Outline.stop_log_le (level : LogLevel) : (o.log level m).stop ≤ o.stop := by
  simp only [Outline.log]
  split <;> split <;> simp

end Line

/-- The outline after `n` calls that go deeper. -/
structure Bounded (n : ℕ) (o : Outline D) : Prop where
  level_le : o.level ≤ n
  stop_le : o.stop ≤ 12 * n

omit [PrintfDouble D] in
theorem Bounded.mono {n k : ℕ} {o : Outline D} (h : Bounded n o) (hk : n ≤ k) : Bounded k o :=
  ⟨h.level_le.trans hk, h.stop_le.trans (Nat.mul_le_mul_left 12 hk)⟩

/-- The log writes and echoes what its levels let through. -/
theorem Lays.log {g : IDebugLog D} {o : Outline D} (level : LogLevel) (m : Message D)
    (h : Lays g o) (hlevel : 4 * o.level < 2 ^ 30) (hstop : 4 * o.stop < 2 ^ 30) :
    Lays (g.log level m) (o.log level m) := by
  have hformat : Lays { g with formatBuf := m } o := { h with }
  -- the text is put in the buffer before the levels are looked at
  have hline := hformat.line m hlevel hstop
  have hbuf : ∀ g : IDebugLog D, (g.message m).formatBuf = g.formatBuf := by
    intro g
    simp only [IDebugLog.message, IDebugLog.newLine, IDebugLog.printText]
    split
    · unfold IDebugLog.seekCursor
      split <;> rfl
    · unfold IDebugLog.seekCursor
      split <;> rfl
  have hlog : level.toNat ≤ g.logLevel.toNat ↔ level.toNat ≤ o.logLevel.toNat := by rw [h.logLevel]
  have hprint : level.toNat ≤ g.printLevel.toNat ↔ level.toNat ≤ (o.line m).printLevel.toNat := by
    rw [Outline.printLevel_line, h.printLevel]
  have hprint' : level.toNat ≤ g.printLevel.toNat ↔ level.toNat ≤ o.printLevel.toNat := by
    rw [h.printLevel]
  unfold IDebugLog.log Outline.log
  -- the log has one test for both levels in front of the two: four cases
  by_cases hl : level.toNat ≤ g.logLevel.toNat
  · have hl' := hlog.mp hl
    by_cases hp : level.toNat ≤ g.printLevel.toNat
    · have hp' := hprint.mp hp
      simp only [hl, hl', hp, hp', decide_true, Bool.or_self, if_true]
      -- the line is written first, and the echo takes the text from the buffer
      refine { hline with stdout := ?_ }
      rw [hbuf, hline.stdout]
    · have hp' := hprint.not.mp hp
      simp only [hl, hl', hp, hp', decide_true, decide_false, Bool.or_false, if_true,
        Bool.false_eq_true, if_false]
      exact hline
  · have hl' := hlog.not.mp hl
    by_cases hp : level.toNat ≤ g.printLevel.toNat
    · have hp' := hprint'.mp hp
      simp only [hl, hl', hp, hp', decide_true, decide_false, Bool.false_or, if_true,
        Bool.false_eq_true, if_false]
      refine { hformat with stdout := ?_ }
      rw [hformat.stdout]
    · have hp' := hprint'.not.mp hp
      simp only [hl, hl', hp, hp', decide_false, Bool.or_self, Bool.false_eq_true, if_false]
      exact h

/-- **One call** keeps the log to its layout. -/
theorem Lays.call {n : ℕ} {s : SourcedLog D} {o : Outline D} (h : Lays s.gLog o)
    (hbound : Bounded n o) (hn : n < 2 ^ 24) {c : LogCall D} (hc : c.Fits) :
    Lays (s.call c).gLog (o.call c) := by
  -- `2 ^ 24` calls that go deeper stay far from the end of an `int`
  have hlevel : 4 * o.level < 2 ^ 30 := by
    have := hbound.level_le
    omega
  have hstop : 4 * o.stop < 2 ^ 30 := by
    have := hbound.stop_le
    omega
  cases c with
  | message m source =>
    cases source with
    | none => exact h.line m hlevel hstop
    | some source => exact (h.setSource source (hc source rfl).2).line m hlevel hstop
  | formattedMessage m =>
    have hformat : Lays { s.gLog with formatBuf := m } o := { h with }
    exact hformat.line m hlevel hstop
  | log level m => exact h.log level m hlevel hstop
  | setSource source => exact h.setSource source (hc source rfl).2
  | clearSource => exact h
  | indent =>
    refine { h with indentLevel := ?_ }
    change s.gLog.indentLevel + 1 = Int32.ofNat (o.level + 1)
    rw [h.indentLevel, Int32.ofNat_add]
    rfl
  | outdent =>
    change Lays s.gLog.outdent { o with level := o.level - 1 }
    -- at level zero both stay: the log by its test, the outline by subtraction
    have hzero : Int32.ofNat o.level = 0 ↔ o.level = 0 := by
      constructor
      · intro hz
        have hint := congrArg Int32.toInt hz
        rw [Int32.toInt_ofNat_of_lt (by omega)] at hint
        exact Int.ofNat_eq_zero.mp hint
      · intro hz
        rw [hz]
        rfl
    unfold IDebugLog.outdent
    rw [h.indentLevel]
    by_cases hl : o.level = 0
    · rw [if_pos (hzero.mpr hl), hl]
      exact { h with indentLevel := by rw [h.indentLevel, hl] }
    · rw [if_neg (hzero.not.mpr hl)]
      refine { h with indentLevel := ?_ }
      change Int32.ofNat o.level - 1 = Int32.ofNat (o.level - 1)
      rw [Int32.ofNat_sub _ _ (by omega)]
      rfl
  | openBlock => exact h.openBlock hlevel hstop
  | closeBlock => exact { h with inBlock := rfl }
  | setAutoFlush b => exact { h with }
  | setLogLevel level => exact { h with logLevel := rfl }
  | setPrintLevel level => exact { h with printLevel := rfl }

/-- How far a call can move. -/
theorem Bounded.call {n : ℕ} {o : Outline D} (h : Bounded n o) (hheader : HeaderFits o.header)
    (c : LogCall D) : Bounded (n + if c.deepens then 1 else 0) (o.call c) := by
  obtain ⟨hlevel, hstop⟩ := h
  -- a line ends at column zero; only `Indent` and `OpenBlock` go to the right
  cases c with
  | message m source =>
    cases source with
    | none => exact ⟨(o.level_line m).trans_le hlevel, Nat.zero_le _⟩
    | some source => exact ⟨((o.setSource source).level_line m).trans_le hlevel, Nat.zero_le _⟩
  | formattedMessage m => exact ⟨(o.level_line m).trans_le hlevel, Nat.zero_le _⟩
  | log level m =>
    exact ⟨(o.level_log m level).trans_le hlevel, (o.stop_log_le m level).trans hstop⟩
  | indent => exact ⟨Nat.succ_le_succ hlevel, hstop.trans (Nat.mul_le_mul_left 12 n.le_succ)⟩
  | outdent => exact ⟨(Nat.sub_le _ _).trans hlevel, hstop⟩
  | openBlock =>
    refine ⟨hlevel.trans (Nat.le_succ n), ?_⟩
    -- a header is at most eleven tabs wide
    have hwide : after 4 0 o.header / 4 ≤ 11 := by
      have := after_le (w := 4) (by decide) 0 o.header
      have := hheader.length_le
      omega
    change max o.stop o.level + after 4 0 o.header / 4 ≤ 12 * (n + 1)
    omega
  | setSource source => exact ⟨hlevel, hstop⟩
  | clearSource => exact ⟨hlevel, hstop⟩
  | closeBlock => exact ⟨hlevel, hstop⟩
  | setAutoFlush b => exact ⟨hlevel, hstop⟩
  | setLogLevel level => exact ⟨hlevel, hstop⟩
  | setPrintLevel level => exact ⟨hlevel, hstop⟩

/-- A log just opened is an empty outline. -/
theorem lays_opened (name : String) : Lays (SourcedLog.opened D name).gLog (Outline.empty D) where
  file := ⟨FILE.fresh name, rfl, rfl⟩
  headerText := rfl
  indentLevel := rfl
  cursorPos := rfl
  inBlock := rfl
  logLevel := rfl
  printLevel := rfl
  stdout := rfl
  column := rfl
  header := ⟨Nat.zero_le _, List.not_mem_nil, Nat.dvd_zero 4⟩

/-- A log that keeps to its layout does so after any further calls. -/
theorem Lays.run {n : ℕ} {s : SourcedLog D} {o : Outline D} {calls : List (LogCall D)}
    (h : Lays s.gLog o) (hbound : Bounded n o) (hfits : ∀ c ∈ calls, c.Fits)
    (hcount : n + calls.countP LogCall.deepens < 2 ^ 24) :
    Lays (s.run calls).gLog (o.run calls)
      ∧ Bounded (n + calls.countP LogCall.deepens) (o.run calls) := by
  -- `n` counts the calls so far that go deeper: it bounds the next call's columns
  induction calls generalizing n s o with
  | nil => exact ⟨h, hbound⟩
  | cons c calls ih =>
    rw [List.countP_cons] at hcount ⊢
    have hcall := h.call hbound (by omega) (hfits c List.mem_cons_self)
    have hrun := ih hcall (hbound.call h.header c) (fun c hc => hfits c (List.mem_cons_of_mem _ hc))
      (by omega)
    rwa [add_assoc, add_comm (if c.deepens then 1 else 0)] at hrun

/-- The log keeps to its layout, whatever the calls. -/
theorem lays_run (name : String) {calls : List (LogCall D)} (hfits : ∀ c ∈ calls, c.Fits)
    (hcount : calls.countP LogCall.deepens < 2 ^ 24) :
    Lays (logAfter name calls) ((Outline.empty D).run calls)
      ∧ Bounded (calls.countP LogCall.deepens) ((Outline.empty D).run calls) := by
  have hrun := (lays_opened name).run ⟨Nat.le_refl 0, Nat.zero_le _⟩ hfits (by omega)
  rwa [Nat.zero_add] at hrun

/-- **The layout of the log.** After any calls the file has the text of the outline, the
console its echoes, and the column the log keeps is the one a reader sees, at a tab stop. -/
theorem layout_of_calls (name : String) {calls : List (LogCall D)} (hfits : ∀ c ∈ calls, c.Fits)
    (hcount : calls.countP LogCall.deepens < 2 ^ 24) :
    ∃ f, (logAfter name calls).logFile = some f
      ∧ f.chars = ((Outline.empty D).run calls).text
      ∧ (logAfter name calls).stdout = ((Outline.empty D).run calls).stdout
      ∧ (logAfter name calls).cursorPos.toInt = after 4 0 f.chars
      ∧ 4 ∣ after 4 0 f.chars := by
  obtain ⟨h, hbound⟩ := lays_run name hfits hcount
  obtain ⟨f, hopen, hchars⟩ := h.file
  have hcolumn : after 4 0 f.chars = 4 * ((Outline.empty D).run calls).stop := by
    rw [hchars, h.column]
  refine ⟨f, hopen, hchars, h.stdout, ?_, hcolumn ▸ Nat.dvd_mul_right 4 _⟩
  -- the bound makes the `int` and the number agree
  have hstop := hbound.stop_le
  rw [h.cursorPos, hcolumn, Int32.toInt_ofNat_of_lt (by omega)]

/-- A line of a source, and a block one level in. -/
def sampleCalls : List (LogCall ℚ) :=
  [.message (.text "one") (some "main"), .indent, .openBlock, .message (.text "two") none,
    .message (.text "three") none]

theorem fits_sampleCalls : ∀ c ∈ sampleCalls, c.Fits := by
  have hmain : "main".length < 16 ∧ '\n' ∉ "main".toList := by decide
  simpa [sampleCalls, LogCall.Fits, LogCall.source?] using hmain

theorem layout_of_calls_sampleCalls :
    ∃ f, (logAfter "a.log" sampleCalls).logFile = some f
      ∧ f.chars = "[main    ]\tone\n\t[main    ]\ttwo\n\t\t\t\tthree\n".toList
      ∧ 4 ∣ after 4 0 f.chars := by
  obtain ⟨f, hopen, hchars, -, -, hdvd⟩ :=
    layout_of_calls "a.log" fits_sampleCalls (by decide)
  exact ⟨f, hopen, hchars.trans (by decide), hdvd⟩

end Lays

/-! ### Blocks -/

section Blocks

variable {D : Type} [PrintfDouble D]

/-- The text of a block: its first line behind `lead`, the others behind `margin`. -/
def blockChars (lead margin : List Char) : List (Message D) → List Char
  | [] => lead
  | m :: ms => lead ++ m.chars ++ ['\n'] ++ ms.flatMap fun m => margin ++ m.chars ++ ['\n']

/-- The calls that open a block and put lines in it. -/
def blockCalls (ms : List (Message D)) : List (LogCall D) :=
  .openBlock :: ms.map fun m => .message m none

omit [PrintfDouble D] in
theorem fits_of_mem_blockCalls {ms : List (Message D)} {c : LogCall D} (hc : c ∈ blockCalls ms) :
    c.Fits := by
  rcases List.mem_cons.mp hc with rfl | hc
  · exact fun source hsource => nomatch hsource
  · obtain ⟨m, -, rfl⟩ := List.mem_map.mp hc
    exact fun source hsource => nomatch hsource

omit [PrintfDouble D] in
theorem countP_blockCalls (ms : List (Message D)) :
    (blockCalls ms).countP LogCall.deepens = 1 := by
  have hlines : (ms.map fun m => LogCall.message m none).countP LogCall.deepens = 0 := by
    rw [List.countP_map]
    exact List.countP_eq_zero.mpr fun m _ => Bool.false_ne_true
  rw [blockCalls, List.countP_cons, hlines]
  rfl

namespace Outline

/-- The header is as wide as the margin that is kept for it. -/
def Square (o : Outline D) : Prop := after 4 0 o.header = 4 * o.margin

omit [PrintfDouble D] in
theorem square_empty : (empty D).Square := by
  simp [Square, margin, empty]

omit [PrintfDouble D] in
theorem Square.setSource (source : String) (htab : '\t' ∉ source.toList)
    (hline : '\n' ∉ source.toList) (o : Outline D) : (o.setSource source).Square := by
  -- what is in the header is in the name, or a blank
  have hname : ∀ x ∉ source.toList, x ≠ ' ' →
      x ∉ (source.toList ++ List.replicate 8 ' ').take 8 := by
    intro x hx hblank hmem
    rcases List.mem_append.mp (List.mem_of_mem_take hmem) with hmem | hmem
    · exact hx hmem
    · exact hblank (List.eq_of_mem_replicate hmem)
  have hnametab := hname '\t' htab (by decide)
  have hnameline := hname '\n' hline (by decide)
  have hlength : ((source.toList ++ List.replicate 8 ' ').take 8).length = 8 := by simp
  unfold Square margin Outline.setSource
  generalize (source.toList ++ List.replicate 8 ' ').take 8 = short at *
  -- the header is ten columns and a tab
  have hbracket : after 4 0 ('[' :: (short ++ [']'])) = 10 := by
    rw [after_of_plain] <;> simp [hlength, hnametab, hnameline]
  have hsplit : '[' :: (short ++ [']', '\t']) = '[' :: (short ++ [']']) ++ ['\t'] := by simp
  simp only [hsplit, after_append, hbracket]
  simp [step, hlength]

/-- A call that names no source with a tab keeps the header square. -/
theorem Square.call {o : Outline D} (h : o.Square) {c : LogCall D} (hc : c.Fits)
    (htab : ∀ source ∈ c.source?, '\t' ∉ source.toList) : (o.call c).Square := by
  have hkeep : ∀ o' : Outline D, o'.Square → ∀ m : Message D, (o'.line m).Square := by
    intro o' ho' m
    unfold Square margin
    rw [o'.header_line m]
    exact ho'
  -- only a source changes the header
  cases c with
  | message m source =>
    cases source with
    | none => exact hkeep o h m
    | some source => exact hkeep _ (.setSource source (htab source rfl) (hc source rfl).2 o) m
  | formattedMessage m => exact hkeep o h m
  | log level m =>
    change (o.log level m).Square
    unfold Square margin
    rw [o.header_log m level]
    exact h
  | setSource source => exact .setSource source (htab source rfl) (hc source rfl).2 o
  | openBlock => exact h
  | _ => exact h

theorem Square.run {o : Outline D} {calls : List (LogCall D)} (h : o.Square)
    (hfits : ∀ c ∈ calls, c.Fits)
    (htabs : ∀ c ∈ calls, ∀ source ∈ c.source?, '\t' ∉ source.toList) : (o.run calls).Square := by
  induction calls generalizing o with
  | nil => exact h
  | cons c calls ih =>
    refine ih (h.call (hfits c List.mem_cons_self) (htabs c List.mem_cons_self)) ?_ ?_
    · exact fun c hc => hfits c (List.mem_cons_of_mem _ hc)
    · exact fun c hc => htabs c (List.mem_cons_of_mem _ hc)

/-- Lines inside a block, from the start of a line. -/
theorem text_run_lines {o : Outline D} (hin : o.inBlock = true) (hstop : o.stop = 0)
    (ms : List (Message D)) :
    (o.run (ms.map fun m => .message m none)).text
      = o.text ++ ms.flatMap fun m =>
          List.replicate (o.level + o.margin) '\t' ++ m.chars ++ ['\n'] := by
  induction ms generalizing o with
  | nil => rw [List.flatMap_nil, List.append_nil]; rfl
  | cons m ms ih =>
    -- a line starts at column zero, so it pads by the whole margin
    have hline : o.line m = { o with
        text := o.text ++ List.replicate (o.level + o.margin) '\t' ++ m.chars ++ ['\n'] } := by
      simp only [line, hin, if_true, pad, hstop, Nat.sub_zero]
    have hrun := ih (o := o.line m) (by rw [hline]; exact hin) rfl
    have hmargin : (o.line m).margin = o.margin := by rw [margin, o.header_line m, margin]
    change ((o.line m).run (ms.map fun m => .message m none)).text = _
    rw [hrun, o.level_line m, hmargin, hline, List.flatMap_cons]
    simp

/-- The text of a block that is opened at the start of a line. -/
theorem text_run_block {o : Outline D} (hstop : o.stop = 0) (hsquare : o.Square)
    (ms : List (Message D)) :
    (o.run (blockCalls ms)).text
      = o.text ++ blockChars (List.replicate o.level '\t' ++ o.header)
          (List.replicate (o.level + o.margin) '\t') ms := by
  have hmargin : after 4 0 o.header / 4 = o.margin := by
    rw [hsquare, Nat.mul_div_cancel_left _ (by decide)]
  -- the header ends where the margin does, as it is square
  have hopen : o.call .openBlock = { o with
      text := o.text ++ (List.replicate o.level '\t' ++ o.header)
      stop := o.level + o.margin, inBlock := true } := by
    simp only [Outline.call, pad, heading, hstop, hmargin, Nat.sub_zero, Nat.zero_max,
      List.append_assoc]
  change ((o.call .openBlock).run (ms.map fun m => .message m none)).text = _
  rw [hopen]
  cases ms with
  | nil => rfl
  | cons m ms =>
    -- the first line finds the column at its place
    have hline : Outline.line m { o with
        text := o.text ++ (List.replicate o.level '\t' ++ o.header)
        stop := o.level + o.margin, inBlock := true }
        = { o with
            text := o.text ++ (List.replicate o.level '\t' ++ o.header) ++ m.chars ++ ['\n']
            stop := 0, inBlock := true } := by
      simp [line, pad, margin]
    change (run (ms.map fun m => .message m none) (Outline.line m _)).text = _
    rw [hline, text_run_lines rfl rfl ms, blockChars]
    simp [margin]

end Outline

/-- **The lines of a block stand under each other.** A block that is opened at the start of a
line puts its first line behind the indentation and the header, and each line after it
behind tabs of the same width. -/
theorem block_aligned (name : String) {calls : List (LogCall D)} (hfits : ∀ c ∈ calls, c.Fits)
    (htabs : ∀ c ∈ calls, ∀ source ∈ c.source?, '\t' ∉ source.toList)
    (hcount : calls.countP LogCall.deepens + 1 < 2 ^ 24)
    (hline : (logAfter name calls).cursorPos = 0) (ms : List (Message D)) :
    ∃ f f' lead k, (logAfter name calls).logFile = some f
      ∧ (logAfter name (calls ++ blockCalls ms)).logFile = some f'
      ∧ f'.chars = f.chars ++ blockChars lead (List.replicate k '\t') ms
      ∧ lead = List.replicate (logAfter name calls).indentLevel.toInt.toNat '\t'
          ++ (logAfter name calls).headerText.toList
      ∧ after 4 0 lead = after 4 0 (List.replicate k '\t') := by
  obtain ⟨h, hbound⟩ := lays_run name hfits (by omega)
  have hsquare : ((Outline.empty D).run calls).Square :=
    Outline.square_empty.run hfits htabs
  have hfits' : ∀ c ∈ calls ++ blockCalls ms, c.Fits := by
    intro c hc
    rcases List.mem_append.mp hc with hc | hc
    · exact hfits c hc
    · exact fits_of_mem_blockCalls hc
  have hcount' : (calls ++ blockCalls ms).countP LogCall.deepens < 2 ^ 24 := by
    rwa [List.countP_append, countP_blockCalls]
  -- the layout before the block and after it, the one an extension of the other
  obtain ⟨h', -⟩ := lays_run name hfits' hcount'
  have hrun : (Outline.empty D).run (calls ++ blockCalls ms)
      = ((Outline.empty D).run calls).run (blockCalls ms) := List.foldl_append
  rw [hrun] at h'
  generalize (Outline.empty D).run calls = o at *
  have hlevel := hbound.level_le
  -- the log is at the start of a line, so the outline is
  have hstop : o.stop = 0 := by
    have hcursor := congrArg Int32.toInt (h.cursorPos.symm.trans hline)
    have hstop_le := hbound.stop_le
    rw [Int32.toInt_ofNat_of_lt (by omega)] at hcursor
    have hzero : 4 * o.stop = 0 := Int.ofNat_eq_zero.mp hcursor
    omega
  obtain ⟨f, hopen, hchars⟩ := h.file
  obtain ⟨f', hopen', hchars'⟩ := h'.file
  refine ⟨f, f', List.replicate o.level '\t' ++ o.header, o.level + o.margin, hopen, hopen',
    ?_, ?_, ?_⟩
  · rw [hchars', Outline.text_run_block hstop hsquare, hchars]
  · rw [h.indentLevel, h.headerText, Int32.toInt_ofNat_of_lt (by omega), Int.toNat_natCast]
  · have htab : ∀ n, after 4 0 (List.replicate n '\t') = 4 * n := by
      intro n
      have := after_replicate_tab (w := 4) (by decide) 0 n
      rwa [Nat.zero_add] at this
    -- both get to the stop of the level plus the margin
    calc after 4 0 (List.replicate o.level '\t' ++ o.header)
        = after 4 (4 * o.level + 0) o.header := by rw [after_append, htab, add_zero]
      _ = 4 * o.level + after 4 0 o.header := after_mul_add (by decide) _ 0 h.header.notMem
      _ = 4 * (o.level + o.margin) := by rw [hsquare, mul_add]
      _ = after 4 0 (List.replicate (o.level + o.margin) '\t') := (htab _).symm

theorem block_aligned_sampleCalls :
    ∃ f f' lead k, (logAfter "a.log" (sampleCalls.take 2)).logFile = some f
      ∧ (logAfter "a.log" sampleCalls).logFile = some f'
      ∧ f'.chars = f.chars
          ++ blockChars (D := ℚ) lead (List.replicate k '\t') [.text "two", .text "three"]
      ∧ after 4 0 lead = after 4 0 (List.replicate k '\t') := by
  have hfits : ∀ c ∈ sampleCalls.take 2, c.Fits :=
    fun c hc => fits_sampleCalls c (List.mem_of_mem_take hc)
  have htabs : ∀ c ∈ sampleCalls.take 2, ∀ source ∈ c.source?, '\t' ∉ source.toList := by
    simp [sampleCalls, LogCall.source?]
  obtain ⟨f, f', lead, k, hopen, hopen', hchars, -, hcolumn⟩ :=
    block_aligned "a.log" hfits htabs (by decide) rfl [.text "two", .text "three"]
  exact ⟨f, f', lead, k, hopen, hopen', hchars, hcolumn⟩

end Blocks

end RuntimeScriptProfiler
